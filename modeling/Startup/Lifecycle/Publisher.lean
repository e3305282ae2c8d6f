import Startup.Context.Reference
import Startup.Lifecycle.Application

/-!
# Publishers

A publisher announces the phases of one run, each only after its predecessor, and a failure at
most once. Early phases go to the listeners of the application directly; these are handed over to
the context before `contextLoaded`, and later phases go through the context. A failure goes
through the context if that is active, and otherwise to the application's listeners and those that
the context holds besides, whatever fails.
-/

namespace Startup

structure Publisher (σ : Type) where
  application : Application σ
  arguments : List String
  multicaster : Multicaster
  last : Option Phase

namespace Publisher

variable {σ : Type}

def create (host : Host σ) (application : Application σ) (arguments : List String) :
    Act σ (Publisher σ) := do
  let multicaster ← host.enlistAll .empty application.listeners
  return ⟨application, arguments, multicaster, none⟩

/-- Whether a phase may come after what was announced last. -/
def admits (last : Option Phase) (phase : Phase) : Bool :=
  if last = some .failed then false
  else if phase = .failed then true
  else last == phase.predecessor?

/-- Gives the application's listeners to a context, which they are told of first if they want. -/
def handOver (host : Host σ) (context : ContextRef) : List ListenerId → Act σ Unit
  | [] => return ()
  | id :: ids => do
    match (host.listener id).onContext with
    | some supply =>
      Act.write (.supplyingContext (← context.identity host) id (host.listener id).name)
      host.perform (supply context)
    | none => pure ()
    context.subscribe host id
    handOver host context ids

def copyListeners (host : Host σ) :
    List ListenerId → Multicaster → Nat → Act σ (Multicaster × Nat)
  | [], multicaster, copied => return (multicaster, copied)
  | id :: ids, multicaster, copied =>
    if multicaster.contains id then copyListeners host ids multicaster copied
    else do
      let registration ← host.enlist id
      copyListeners host ids (multicaster.register registration) (copied + 1)

def joinContext (host : Host σ) (context : ContextRef) (multicaster : Multicaster) :
    Act σ Multicaster := do
  match ← context.listeners host with
  | none =>
    Act.write (.cannotEnumerate (← context.identity host) multicaster.size)
    return multicaster
  | some listeners =>
    let (multicaster, copied) ← copyListeners host listeners multicaster 0
    Act.write (.copiedListeners copied (← context.identity host))
    return multicaster

def broadcast (host : Host σ) (strategy : Strategy σ) (multicaster : Multicaster) (event : Event) :
    Act σ (Except DeliveryError Unit) := do
  let outcome ← host.broadcast .other strategy multicaster event
  return outcome.map fun _ => ()

/-- Delivers a failure: through an active context only, or else to everyone known. -/
def deliverFailure (host : Host σ) (context : Option ContextRef) (multicaster : Multicaster)
    (event : Event) : Act σ (Except DeliveryError Unit × Multicaster) := do
  match context with
  | none => return (← broadcast host .ignore multicaster event, multicaster)
  | some context =>
    if ← context.isActive host then
      Act.write (.failedThroughContext (← context.identity host))
      return (← context.publish host event, multicaster)
    else
      let multicaster ← joinContext host context multicaster
      return (← broadcast host .ignore multicaster event, multicaster)

def deliver (host : Host σ) (p : Publisher σ) (event : Event) :
    RunPayload → Act σ (Except DeliveryError Unit × Multicaster)
  | .contextLoaded context => do
    handOver host context p.application.listeners
    Act.write (.handedOver p.application.listeners.length (← context.identity host))
    return (← broadcast host .propagate p.multicaster event, p.multicaster)
  | .started context => do return (← context.publish host event, p.multicaster)
  | .running context => do return (← context.publish host event, p.multicaster)
  | .failed context _ => deliverFailure host context p.multicaster event
  | _ => do return (← broadcast host .propagate p.multicaster event, p.multicaster)

def event (p : Publisher σ) (payload : RunPayload) : Event :=
  .run ⟨p.application.name, p.application.kind, p.arguments, payload⟩

/-- Announces a phase. It counts as announced before it is delivered, so a delivery that fails
does not take it back; a phase out of turn changes nothing. -/
def announce (host : Host σ) (payload : RunPayload) (p : Publisher σ) :
    Act σ (Except RunError Unit × Publisher σ) := do
  if admits p.last payload.phase then
    let p := { p with last := some payload.phase }
    Act.write (.publishing payload.phase p.application.name)
    let (outcome, multicaster) ← p.deliver host (p.event payload) payload
    return (outcome.mapError .delivery, { p with multicaster := multicaster })
  else
    return (.error (.invalidTransition (p.last.map .run) (.run payload.phase)), p)

end Publisher

end Startup
