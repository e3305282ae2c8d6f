import Startup.Effect.Delivery

/-!
# Contexts at work

A context is created, becomes active by a refresh and ends closed. Only an active context
delivers events; a delivery goes to the listeners that it held when it was asked. A refresh that a
listener fails puts the context back.
-/

namespace Startup

variable {σ : Type}

def Beans.put (beans : Beans) (bean : Bean) : Act σ Beans := do
  if beans.contains bean.type then Act.write (.replacedBean bean.type)
  return beans.register bean

namespace ContextId

def setState (id : ContextId) (state : ContextState) : Act σ Unit :=
  Act.modifyContext id fun context => { context with state := state }

def publish (host : Host σ) (id : ContextId) (event : Event) :
    Act σ (Except DeliveryError Unit) := do
  let context ← Act.context id
  if context.isActive then
    let outcome ← host.broadcast (.context id) .propagate context.multicaster event
    return outcome.map fun _ => ()
  else return .error (.contextInactive context.identity.full event.kind)

def subscribe (host : Host σ) (id : ContextId) (listener : ListenerId) : Act σ Unit := do
  let registration ← host.enlist listener
  Act.modifyContext id fun context =>
    { context with multicaster := context.multicaster.register registration }

def register (id : ContextId) (bean : Bean) : Act σ Unit := do
  let context ← Act.context id
  let beans ← context.beans.put bean
  Act.modifyContext id fun context => { context with beans := beans }

def refreshOperation : String := "refresh"

def refresh (host : Host σ) (id : ContextId) : Act σ (Except DeliveryError Unit) := do
  let context ← Act.context id
  if context.state = .created then
    setState id .active
    match ← publish host id (.context ⟨.refreshed, context.identity.full⟩) with
    | .error error =>
      setState id .created
      Act.write (.refreshFailed id context.displayName error)
      return .error error
    | .ok () =>
      let context ← Act.context id
      Act.write (.refreshed id context.displayName context.beans.size)
      return .ok ()
  else
    return .error (.invalidState context.identity.full refreshOperation context.state.name)

/-- Closes a context, also if a listener fails the announcement; a context that never was active
makes none. -/
def close (host : Host σ) (id : ContextId) : Act σ (Except DeliveryError Unit) := do
  let context ← Act.context id
  if context.state = .closed then return .ok ()
  else
    let outcome ←
      if context.state = .active then
        publish host id (.context ⟨.closed, context.identity.full⟩)
      else pure (.ok ())
    setState id .closed
    Act.write (.closed id context.displayName)
    return outcome

end ContextId

end Startup
