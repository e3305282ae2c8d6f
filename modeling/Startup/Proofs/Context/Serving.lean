import Startup.Proofs.Context.Nesting

/-!
# Calls that come back

The library itself never gets stuck. What listeners rely on is an invariant of the world: if they
come back from every world of the invariant, and leave it intact, then so does whatever calls them.
-/

namespace Startup

variable {σ α β : Type}

namespace World

/-- Whether the context that an event is about is there. -/
def Knows (w : World σ) (event : Event) : Prop :=
  ∀ ref, event.context? = some ref → ∃ id, ref = .managed id ∧ id.index < w.contexts.length

theorem knows_context (w : World σ) (event : ContextEvent) : w.Knows (.context event) := by
  intro ref hRef
  cases hRef

structure Has (w : World σ) (contexts stores : Nat) : Prop where
  contexts : contexts ≤ w.contexts.length
  stores : stores ≤ w.stores.length

end World

/-- The context is there in every world of the invariant. -/
def ContextId.Lasts (inv : World σ → Prop) (id : ContextId) : Prop :=
  ∀ w, inv w → id.index < w.contexts.length

namespace Act

/-- An act comes back from every world of an invariant, to a world of the same. -/
def Returns (inv : World σ → Prop) (act : Act σ α) : Prop :=
  ∀ ⦃w⦄, inv w → ∃ a w', act w = some (a, w') ∧ inv w'

variable {inv : World σ → Prop}

theorem returns_pure (a : α) : (pure a : Act σ α).Returns inv :=
  fun w hInv => ⟨a, w, rfl, hInv⟩

theorem Returns.bind {act : Act σ α} {f : α → Act σ β} (hAct : act.Returns inv)
    (hRest : ∀ a, (f a).Returns inv) : (act >>= f).Returns inv := by
  intro w hInv
  obtain ⟨a, w₁, hFirst, hBetween⟩ := hAct hInv
  obtain ⟨b, w₂, hLast, hEnd⟩ := hRest a hBetween
  refine ⟨b, w₂, ?_, hEnd⟩
  rw [bind_apply hFirst, hLast]

theorem returns_context {id : ContextId} (hHere : id.Lasts inv) :
    (Act.context id : Act σ Context).Returns inv := by
  intro w hInv
  have hContext := List.getElem?_eq_getElem (hHere w hInv)
  exact ⟨_, w, context_apply hContext, hInv⟩

theorem returns_properties {id : StoreId} (hHere : ∀ w, inv w → id.index < w.stores.length) :
    (Act.properties id : Act σ Properties).Returns inv := by
  intro w hInv
  have hProperties := List.getElem?_eq_getElem (hHere w hInv)
  refine ⟨w.stores.get ⟨id.index, hHere w hInv⟩, w, ?_, hInv⟩
  rw [properties_eq, hProperties]
  rfl

end Act

/-- What listeners rely on, and the library keeps: they come back from every world of the invariant
in which the context that they are told of is there. -/
structure Host.Serves (host : Host σ) (inv : World σ → Prop) : Prop where
  grows : ∀ w w', inv w → w'.memory = w.memory → w'.Has w.contexts.length w.stores.length → inv w'
  declare : ∀ w id, inv w → inv { w with memory := ((host.listener id).declare w.memory).2 }
  onEvent : ∀ w id event, inv w → w.Knows event →
    ∃ answer w', host.perform ((host.listener id).onEvent event) w = some (answer, w') ∧ inv w'
  onContext : ∀ w id supply context, (host.listener id).onContext = some supply → inv w →
    context.index < w.contexts.length →
      ∃ w', host.perform (supply (.managed context)) w = some ((), w') ∧ inv w'

variable {host : Host σ} {inv : World σ → Prop} {id : ContextId}

theorem World.Path.has {scope : Scope} {w w' : World σ} (h : World.Path scope w w')
    {contexts stores : Nat} (hHas : w.Has contexts stores) : w'.Has contexts stores where
  contexts := h.length_contexts ▸ hHas.contexts
  stores := Nat.le_trans hHas.stores h.length_stores

namespace Host.Serves

/-- Contexts and stores do not vanish, so that listeners may rely on these as well. -/
theorem having (h : host.Serves inv) (hHost : host.Within .full) (contexts stores : Nat) :
    host.Serves fun w => inv w ∧ w.Has contexts stores where
  grows w w' hInv hMemory hGrown :=
    ⟨h.grows w w' hInv.1 hMemory hGrown, Nat.le_trans hInv.2.contexts hGrown.contexts,
      Nat.le_trans hInv.2.stores hGrown.stores⟩
  declare w id hInv := ⟨h.declare w id hInv.1, hInv.2.contexts, hInv.2.stores⟩
  onEvent w id event hInv hKnows := by
    obtain ⟨answer, w', hPerform, hKept⟩ := h.onEvent w id event hInv.1 hKnows
    have hPath := hHost.perform _ (hHost.directory.onEvent id event) hPerform
    exact ⟨answer, w', hPerform, hKept, hPath.has hInv.2⟩
  onContext w id supply context hSupply hInv hHere := by
    obtain ⟨w', hPerform, hKept⟩ := h.onContext w id supply context hSupply hInv.1 hHere
    have hPath := hHost.perform _ (hHost.directory.onContext id supply hSupply _) hPerform
    exact ⟨w', hPerform, hKept, hPath.has hInv.2⟩

section

variable (h : host.Serves inv)
include h

theorem write (entry : Entry) : (Act.write entry).Returns inv := by
  intro w hInv
  exact ⟨(), _, rfl, h.grows w _ hInv rfl ⟨Nat.le_refl _, Nat.le_refl _⟩⟩

theorem modifyContext (id : ContextId) (f : Context → Context) :
    (Act.modifyContext id f).Returns inv := by
  intro w hInv
  refine ⟨(), _, rfl, h.grows w _ hInv rfl ⟨?_, Nat.le_refl _⟩⟩
  exact Nat.le_of_eq (List.length_modify ..).symm

theorem enlist (id : ListenerId) : (host.enlist id).Returns inv := by
  intro w hInv
  refine ⟨_, _, rfl, ?_⟩
  exact h.grows _ _ (h.declare w id hInv) rfl ⟨Nat.le_refl _, Nat.le_refl _⟩

theorem enlistAll (ids : List ListenerId) (multicaster : Multicaster) :
    (host.enlistAll multicaster ids).Returns inv := by
  induction ids generalizing multicaster with
  | nil => exact Act.returns_pure multicaster
  | cons id ids ih => exact (h.enlist id).bind fun r => ih (multicaster.register r)

theorem propagate (name : String) (kind : EventKind) (cause : Cause) :
    (Strategy.propagate name kind cause : Act σ _).Returns inv :=
  (h.write _).bind fun _ => Act.returns_pure _

theorem ignore (name : String) (kind : EventKind) (cause : Cause) :
    (Strategy.ignore name kind cause : Act σ _).Returns inv :=
  (h.write _).bind fun _ => Act.returns_pure _

theorem invokeAll {strategy : Strategy σ} {event : Event} (origin : Origin)
    (hStrategy : ∀ name cause, (strategy name event.kind cause).Returns inv)
    (hKnows : ∀ w, inv w → w.Knows event) (registrations : List Registration) (invoked : Nat) :
    (host.invokeAll origin strategy event registrations invoked).Returns inv := by
  induction registrations generalizing invoked with
  | nil => exact Act.returns_pure _
  | cons r rest ih =>
    refine (h.write _).bind fun _ => ?_
    have hEvent : (host.perform ((host.listener r.listener).onEvent event)).Returns inv :=
      fun w hInv => h.onEvent w r.listener event hInv (hKnows w hInv)
    refine hEvent.bind fun answer => ?_
    cases answer with
    | ok _ => exact ih (invoked + 1)
    | error cause =>
      refine (hStrategy r.name cause).bind fun verdict => ?_
      cases verdict with
      | ok _ => exact ih (invoked + 1)
      | error error => exact Act.returns_pure _

theorem broadcast {strategy : Strategy σ} {event : Event} (origin : Origin)
    (hStrategy : ∀ name cause, (strategy name event.kind cause).Returns inv)
    (hKnows : ∀ w, inv w → w.Knows event) (multicaster : Multicaster) :
    (host.broadcast origin strategy multicaster event).Returns inv :=
  (h.write _).bind fun _ => h.invokeAll origin hStrategy hKnows _ 0

theorem publish {event : Event} (hHere : id.Lasts inv)
    (hKnows : ∀ w, inv w → w.Knows event) : (id.publish host event).Returns inv := by
  refine (Act.returns_context hHere).bind fun context => ?_
  split
  · refine (h.broadcast _ (fun name => h.propagate name _) hKnows _).bind fun outcome => ?_
    exact Act.returns_pure _
  · exact Act.returns_pure _

theorem subscribe (id : ContextId) (listener : ListenerId) :
    (id.subscribe host listener).Returns inv :=
  (h.enlist listener).bind fun _ => h.modifyContext id _

theorem refresh (hHere : id.Lasts inv) :
    (id.refresh host).Returns inv := by
  refine (Act.returns_context hHere).bind fun context => ?_
  split
  · refine (h.modifyContext id _).bind fun _ => ?_
    refine (h.publish hHere fun w _ => w.knows_context _).bind fun outcome => ?_
    cases outcome with
    | error error =>
      refine (h.modifyContext id _).bind fun _ => ?_
      exact (h.write _).bind fun _ => Act.returns_pure _
    | ok _ =>
      refine (Act.returns_context hHere).bind fun after => ?_
      exact (h.write _).bind fun _ => Act.returns_pure _
  · exact Act.returns_pure _

theorem close (hHere : id.Lasts inv) :
    (id.close host).Returns inv := by
  refine (Act.returns_context hHere).bind fun context => ?_
  split
  · exact Act.returns_pure _
  · have hLast (outcome : Except DeliveryError Unit) : (do
        id.setState .closed
        Act.write (.closed id context.displayName)
        return outcome : Act σ _).Returns inv :=
      (h.modifyContext id _).bind fun _ => (h.write _).bind fun _ => Act.returns_pure _
    split
    · exact (h.publish hHere fun w _ => w.knows_context _).bind hLast
    · exact (Act.returns_pure _).bind hLast

end

end Host.Serves

end Startup
