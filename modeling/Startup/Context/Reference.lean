import Startup.Context.Lifecycle

/-!
# Contexts by reference

The operations that every context offers, whoever provides it.
-/

namespace Startup.ContextRef

variable {σ : Type}

def publish (host : Host σ) (ref : ContextRef) (event : Event) :
    Act σ (Except DeliveryError Unit) :=
  match ref with
  | managed id => id.publish host event
  | foreign id => host.perform ((host.directory.foreign id).publish event)

def subscribe (host : Host σ) (ref : ContextRef) (listener : ListenerId) : Act σ Unit :=
  match ref with
  | managed id => id.subscribe host listener
  | foreign id => host.perform ((host.directory.foreign id).subscribe listener)

def isActive (host : Host σ) : ContextRef → Act σ Bool
  | managed id => do return (← Act.context id).isActive
  | foreign id => do return (host.directory.foreign id).isActive (← Act.memory)

def listeners (host : Host σ) : ContextRef → Act σ (Option (List ListenerId))
  | managed id => do return some (← Act.context id).multicaster.listeners
  | foreign id => do return (host.directory.foreign id).listeners (← Act.memory)

def identity (host : Host σ) : ContextRef → Act σ String
  | managed id => do return (← Act.context id).identity.full
  | foreign id => do return (host.directory.foreign id).identity (← Act.memory)

def register (ref : ContextRef) (bean : Bean) : Act σ (Option Unit) :=
  match ref with
  | managed id => some <$> id.register bean
  | foreign _ => return none

def beans : ContextRef → Act σ (Option Beans)
  | managed id => do return some (← Act.context id).beans
  | foreign _ => return none

end Startup.ContextRef
