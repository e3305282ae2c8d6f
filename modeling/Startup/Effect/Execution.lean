import Startup.Context.Reference

/-!
# Execution

A program runs by having its requests answered, and an answer may call listeners, whose programs
run one level deeper. A host of depth `n` answers as long as calls nest less than `n` deep; what
nests deeper does not come back.
-/

namespace Startup

variable {σ : Type}

namespace Host

def answer (host : Host σ) : (q : Request σ) → Act σ q.Answer
  | .publish context event => context.publish host event
  | .subscribe context listener => context.subscribe host listener
  | .isActive context => context.isActive host
  | .listeners context => context.listeners host
  | .identity context => context.identity host
  | .register context bean => context.register bean
  | .resolve context type => do return (← context.beans).map fun beans => beans.resolve type
  | .beanTypes context => do return (← context.beans).map Beans.typeNames
  | .refresh context => context.refresh host
  | .close context => context.close host
  | .createStore properties => Act.addStore properties
  | .properties store => Act.properties store
  | .assign store pairs => Act.assign store pairs
  | .listenerName listener => return (host.listener listener).name
  | .enlist listener => host.enlist listener
  | .broadcast multicaster event => host.broadcast .other .propagate multicaster event
  | .memory => Act.memory
  | .remember memory => Act.remember memory

/-- A host whose programs may nest calls to a depth. -/
def ofDepth (directory : Directory σ) : Nat → Host σ
  | 0 => ⟨directory, fun _ => Act.stuck⟩
  | depth + 1 => ⟨directory, fun program => program.interpret (ofDepth directory depth).answer⟩

@[simp] theorem directory_ofDepth (directory : Directory σ) (depth : Nat) :
    (ofDepth directory depth).directory = directory := by
  cases depth <;> rfl

end Host

end Startup
