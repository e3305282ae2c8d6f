import Startup.Effect.Journal
import Startup.Effect.Program

/-!
# The world of a run

What changes while the library works: the contexts and stores that were created, the journal, and
the memory of the programs outside. An act either does not come back, or gives an answer and the
world afterwards; an error is an answer too.
-/

namespace Startup

inductive ContextState where
  | created
  | active
  | closed
  deriving DecidableEq, Repr, Inhabited

def ContextState.name : ContextState → String
  | created => "Created"
  | active => "Active"
  | closed => "Closed"

structure Context where
  identity : Identity
  displayName : String
  kind : ApplicationKind
  beans : Beans
  multicaster : Multicaster
  state : ContextState

namespace Context

def new (identity : Identity) (kind : ApplicationKind) : Context :=
  ⟨identity, "context-" ++ identity.brief, kind, .empty, .empty, .created⟩

def isActive (context : Context) : Bool :=
  context.state == .active

def inspect (context : Context) : String :=
  Text.record "ApplicationContext"
    [("id", Text.quoted context.identity.full),
      ("display_name", Text.quoted context.displayName), ("kind", context.kind.inspect),
      ("state", context.state.name), ("beans", context.beans.inspect),
      ("listeners", Text.decimal context.multicaster.size)]

end Context

structure World (σ : Type) where
  contexts : List Context
  stores : List Properties
  /-- The identity that the next context will have, by the number of contexts before it. -/
  identities : Nat → Identity
  journal : List Entry
  memory : σ

abbrev Act (σ : Type) : Type → Type :=
  StateT (World σ) Option

namespace Act

variable {σ α : Type}

/-- An act that does not come back. -/
def stuck : Act σ α :=
  fun _ => none

def write (entry : Entry) : Act σ Unit :=
  modify fun world => { world with journal := world.journal ++ [entry] }

def context (id : ContextId) : Act σ Context := do
  match (← get).contexts[id.index]? with
  | some context => return context
  | none => stuck

def modifyContext (id : ContextId) (f : Context → Context) : Act σ Unit :=
  modify fun world => { world with contexts := world.contexts.modify id.index f }

def addContext (make : Identity → Context) : Act σ ContextId :=
  modifyGet fun world =>
    let count := world.contexts.length
    (⟨count⟩, { world with contexts := world.contexts ++ [make (world.identities count)] })

def properties (id : StoreId) : Act σ Properties := do
  match (← get).stores[id.index]? with
  | some properties => return properties
  | none => stuck

def assign (id : StoreId) (pairs : List (String × String)) : Act σ Unit :=
  modify fun world =>
    { world with stores := world.stores.modify id.index fun p => p.setAll pairs }

def addStore (properties : Properties) : Act σ StoreId :=
  modifyGet fun world =>
    (⟨world.stores.length⟩, { world with stores := world.stores ++ [properties] })

def memory : Act σ σ := do
  return (← get).memory

def remember (memory : σ) : Act σ Unit :=
  modify fun world => { world with memory := memory }

end Act

namespace Program

variable {σ α : Type}

def interpret (answer : (q : Request σ) → Act σ q.Answer) : Program σ α → Act σ α
  | done value => pure value
  | ask q next => do
    let reply ← answer q
    (next reply).interpret answer

end Program

end Startup
