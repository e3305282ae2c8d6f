import Startup.Context.Lifecycle

/-!
# Built contexts

A context is made step by step: its kind, its display name, beans and listeners, each step on its
own and in any order.
-/

namespace Startup

inductive BuildStep where
  | kind (kind : ApplicationKind)
  | displayName (name : String)
  | bean (bean : Bean)
  | listener (listener : ListenerId)
  deriving DecidableEq, Repr

namespace BuildStep

variable {σ : Type}

def apply (host : Host σ) (id : ContextId) : BuildStep → Act σ Unit
  | .kind value => Act.modifyContext id fun context => { context with kind := value }
  | .displayName value => Act.modifyContext id fun context => { context with displayName := value }
  | .bean value => id.register value
  | .listener value => id.subscribe host value

end BuildStep

namespace ContextId

variable {σ : Type}

def create (kind : ApplicationKind) : Act σ ContextId :=
  Act.addContext fun identity => Context.new identity kind

def build (host : Host σ) (steps : List BuildStep) : Act σ ContextId := do
  let id ← create .standalone
  steps.forM fun step => step.apply host id
  return id

end ContextId

end Startup
