import Startup.Proofs.Effect.Delivery

/-!
# What the operations of a context do

Publications, refreshes and closings by cases: on which state each case depends, what is left to
the listeners in between, and what is written to the context and the journal.
-/

namespace Startup

variable {σ : Type} {scope : Scope} {host : Host σ}

namespace ContextId

def deliver (host : Host σ) (id : ContextId) (context : Context) (event : Event) :
    Act σ (Except DeliveryError Unit) := do
  let outcome ← host.invokeAll (.context id) .propagate event
    (context.multicaster.matching event.kind) 0
  return outcome.map fun _ => ()

def opening (id : ContextId) (context : Context) (event : Event) : Entry :=
  .broadcasting (.context id) event.kind (context.multicaster.matching event.kind).length

theorem publish_active {w : World σ} {id : ContextId} {context : Context} {event : Event}
    (hContext : w.context? id = some context) (hActive : context.state = .active) :
    id.publish host event w =
      id.deliver host context event (w.note (id.opening context event)) := by
  have hCheck : context.isActive = true := by
    simp [Context.isActive, hActive]
  rw [publish, Act.bind_apply (Act.context_apply hContext), if_pos hCheck]
  rfl

theorem publish_inactive {w : World σ} {id : ContextId} {context : Context} {event : Event}
    (hContext : w.context? id = some context) (hInactive : context.state ≠ .active) :
    id.publish host event w =
      some (.error (.contextInactive context.identity.full event.kind), w) := by
  have hCheck : ¬ context.isActive = true := by
    simp [Context.isActive, hInactive]
  rw [publish, Act.bind_apply (Act.context_apply hContext), if_neg hCheck]
  rfl

inductive Publishing (host : Host σ) (id : ContextId) (event : Event) (w : World σ) :
    Except DeliveryError Unit → World σ → Prop
  | rejected {context : Context} (hContext : w.context? id = some context)
      (hState : context.state ≠ .active) :
      Publishing host id event w (.error (.contextInactive context.identity.full event.kind)) w
  | delivered {context : Context} {outcome : Except DeliveryError Unit} {w' : World σ}
      (hContext : w.context? id = some context) (hState : context.state = .active)
      (hDeliver : id.deliver host context event (w.note (id.opening context event)) =
        some (outcome, w')) :
      Publishing host id event w outcome w'

theorem publishing_of_publish {id : ContextId} {event : Event} {w w' : World σ}
    {outcome : Except DeliveryError Unit} (h : id.publish host event w = some (outcome, w')) :
    Publishing host id event w outcome w' := by
  obtain ⟨context, w₁, hRead, -⟩ := Act.bind_inv h
  obtain ⟨hContext, -⟩ := Act.context_inv hRead
  by_cases hState : context.state = .active
  · rw [publish_active hContext hState] at h
    exact .delivered hContext hState h
  · rw [publish_inactive hContext hState] at h
    cases h
    exact .rejected hContext hState

def refreshedEvent (context : Context) : Event :=
  .context ⟨.refreshed, context.identity.full⟩

def closedEvent (context : Context) : Event :=
  .context ⟨.closed, context.identity.full⟩

/-- How a refresh comes back. Whatever its listeners made of the context, one that fails leaves it
created. -/
inductive Refreshing (host : Host σ) (id : ContextId) (w : World σ) :
    Except DeliveryError Unit → World σ → Prop
  | rejected {context : Context} (hContext : w.context? id = some context)
      (hState : context.state ≠ .created) :
      Refreshing host id w
        (.error (.invalidState context.identity.full refreshOperation context.state.name)) w
  | failed {context : Context} {error : DeliveryError} {w₁ : World σ}
      (hContext : w.context? id = some context) (hState : context.state = .created)
      (hPublish : id.publish host (refreshedEvent context) (w.setState id .active) =
        some (.error error, w₁)) :
      Refreshing host id w (.error error)
        ((w₁.setState id .created).note (.refreshFailed id context.displayName error))
  | succeeded {context after : Context} {w₁ : World σ}
      (hContext : w.context? id = some context) (hState : context.state = .created)
      (hPublish : id.publish host (refreshedEvent context) (w.setState id .active) =
        some (.ok (), w₁))
      (hAfter : w₁.context? id = some after) :
      Refreshing host id w (.ok ())
        (w₁.note (.refreshed id after.displayName after.beans.size))

theorem refreshing_of_refresh {id : ContextId} {w w' : World σ}
    {outcome : Except DeliveryError Unit} (h : id.refresh host w = some (outcome, w')) :
    Refreshing host id w outcome w' := by
  obtain ⟨context, w₁, hRead, hRest⟩ := Act.bind_inv h
  obtain ⟨hContext, rfl⟩ := Act.context_inv hRead
  split at hRest
  · rename_i hState
    obtain ⟨_, _, hSet, hRest⟩ := Act.bind_inv hRest
    cases hSet
    obtain ⟨result, w₂, hPublish, hRest⟩ := Act.bind_inv hRest
    cases result with
    | error error =>
      cases hRest
      exact .failed hContext hState hPublish
    | ok _ =>
      obtain ⟨after, w₃, hAfterRead, hRest⟩ := Act.bind_inv hRest
      obtain ⟨hAfter, rfl⟩ := Act.context_inv hAfterRead
      cases hRest
      exact .succeeded hContext hState hPublish hAfter
  · rename_i hState
    cases hRest
    exact .rejected hContext hState

theorem refresh_closed {w : World σ} {id : ContextId} (host : Host σ)
    {context : Context} (hContext : w.context? id = some context)
    (hClosed : context.state = .closed) :
    id.refresh host w = some (.error (.invalidState context.identity.full refreshOperation
      ContextState.closed.name), w) := by
  have hCheck : ¬ context.state = .created := by
    rw [hClosed]
    decide
  rw [refresh, Act.bind_apply (Act.context_apply hContext), if_neg hCheck, ← hClosed]
  rfl

theorem close_closed (host : Host σ) {w : World σ} {id : ContextId} {context : Context}
    (hContext : w.context? id = some context) (hClosed : context.state = .closed) :
    id.close host w = some (.ok (), w) := by
  rw [close, Act.bind_apply (Act.context_apply hContext), if_pos hClosed]
  rfl

/-- An active context announces that it is closed while it still is active, so that its listeners
may yet publish through it or close it. -/
theorem close_active (host : Host σ) {w : World σ} {id : ContextId} {context : Context}
    (hContext : w.context? id = some context) (hActive : context.state = .active) :
    id.close host w = (id.deliver host context (closedEvent context)
      (w.note (id.opening context (closedEvent context)))).map fun (outcome, w') =>
        (outcome, (w'.setState id .closed).note (.closed id context.displayName)) := by
  have hOpen : ¬ context.state = .closed := by
    rw [hActive]
    decide
  rw [close, Act.bind_apply (Act.context_apply hContext), if_neg hOpen, if_pos hActive,
    ← publish_active hContext hActive]
  cases hPublish : id.publish host (closedEvent context) w with
  | none => exact Act.bind_eq_none hPublish
  | some answer => exact Act.bind_apply hPublish

inductive Closing (host : Host σ) (id : ContextId) (w : World σ) :
    Except DeliveryError Unit → World σ → Prop
  | idle {context : Context} (hContext : w.context? id = some context)
      (hState : context.state = .closed) : Closing host id w (.ok ()) w
  | silent {context : Context} (hContext : w.context? id = some context)
      (hState : context.state = .created) :
      Closing host id w (.ok ()) ((w.setState id .closed).note (.closed id context.displayName))
  | announced {context : Context} {outcome : Except DeliveryError Unit} {w₁ : World σ}
      (hContext : w.context? id = some context) (hState : context.state = .active)
      (hPublish : id.publish host (closedEvent context) w = some (outcome, w₁)) :
      Closing host id w outcome ((w₁.setState id .closed).note (.closed id context.displayName))

theorem closing_of_close {id : ContextId} {w w' : World σ} {outcome : Except DeliveryError Unit}
    (h : id.close host w = some (outcome, w')) : Closing host id w outcome w' := by
  obtain ⟨context, w₁, hRead, hRest⟩ := Act.bind_inv h
  obtain ⟨hContext, rfl⟩ := Act.context_inv hRead
  cases hState : context.state with
  | closed =>
    simp only [hState, if_true] at hRest
    cases hRest
    exact .idle hContext hState
  | created =>
    simp only [hState, reduceCtorEq, if_false] at hRest
    cases hRest
    exact .silent hContext hState
  | active =>
    simp only [hState, reduceCtorEq, if_true, if_false] at hRest
    obtain ⟨result, w₂, hPublish, hRest⟩ := Act.bind_inv hRest
    cases hRest
    exact .announced hContext hState hPublish

end ContextId

end Startup
