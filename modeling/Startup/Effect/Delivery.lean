import Startup.Effect.Listener
import Startup.Effect.World

/-!
# Delivery

One event goes to the matching registrations of a multicaster in turn. A strategy decides what
the failure of a listener means for the rest: it may go on, or end the delivery with an error.
-/

namespace Startup

variable {σ : Type}

/-- What the library needs of its surroundings: whom references lead to, and how programs run. -/
structure Host (σ : Type) where
  directory : Directory σ
  perform : {α : Type} → Program σ α → Act σ α

/-- What to do about a listener's failure; an error ends the delivery. -/
abbrev Strategy (σ : Type) :=
  String → EventKind → Cause → Act σ (Except DeliveryError Unit)

namespace Strategy

def propagate : Strategy σ := fun listener kind cause => do
  Act.write (.listenerFailed listener kind cause)
  return .error (.listenerFailed listener kind cause)

def ignore : Strategy σ := fun listener kind cause => do
  Act.write (.listenerIgnored listener kind cause)
  return .ok ()

end Strategy

namespace Host

def listener (host : Host σ) (id : ListenerId) : Listener σ :=
  host.directory.listener id

def enlist (host : Host σ) (id : ListenerId) : Act σ Registration := do
  let (terms, memory) := (host.listener id).declare (← Act.memory)
  Act.remember memory
  let registration := ⟨id, (host.listener id).name, terms.filter, terms.order⟩
  Act.write (.registered registration)
  return registration

def enlistAll (host : Host σ) (multicaster : Multicaster) :
    List ListenerId → Act σ Multicaster
  | [] => return multicaster
  | id :: ids => do
    let registration ← host.enlist id
    host.enlistAll (multicaster.register registration) ids

/-- Invokes registrations in turn; the answer counts them and those `invoked` before. -/
def invokeAll (host : Host σ) (origin : Origin) (strategy : Strategy σ) (event : Event) :
    List Registration → Nat → Act σ (Except DeliveryError Nat)
  | [], invoked => return .ok invoked
  | r :: rest, invoked => do
    Act.write (.invoking origin r.listener r.name event.kind)
    match ← host.perform ((host.listener r.listener).onEvent event) with
    | .ok () => host.invokeAll origin strategy event rest (invoked + 1)
    | .error cause =>
      match ← strategy r.name event.kind cause with
      | .ok () => host.invokeAll origin strategy event rest (invoked + 1)
      | .error error => return .error error

def broadcast (host : Host σ) (origin : Origin) (strategy : Strategy σ)
    (multicaster : Multicaster) (event : Event) : Act σ (Except DeliveryError Nat) := do
  let matching := multicaster.matching event.kind
  Act.write (.broadcasting origin event.kind matching.length)
  host.invokeAll origin strategy event matching 0

end Host

end Startup
