import Startup.Effect.Execution
import Startup.Proofs.Effect.Path

/-!
# Programs within a scope

Where listeners and contexts ask only for what a scope leaves them to do, every call of the
library changes the world along a path of that scope, however deep calls nest.
-/

namespace Startup

variable {σ α β : Type}

instance : Inhabited (Listener σ) :=
  ⟨"listener", fun memory => (⟨.all, 0⟩, memory), fun _ => .done (.ok ()), none⟩

instance : Inhabited (ForeignContext σ) :=
  ⟨fun _ => "", fun _ => false, fun _ => none, fun _ => .done (.ok ()), fun _ => .done ()⟩

instance : Inhabited (Directory σ) := ⟨fun _ => default, fun _ => default⟩

instance [Inhabited σ] : Inhabited (World σ) := ⟨[], [], fun _ => default, [], default⟩

def Request.Within (scope : Scope) : Request σ → Prop
  | publish _ event => scope.Sends event.kind
  | broadcast _ event => scope.Sends event.kind
  | refresh context => scope.governs context ∧ scope.Sends (.context .refreshed)
  | close context => scope.governs context ∧ scope.Sends (.context .closed)
  | _ => True

def Program.Within (scope : Scope) : Program σ α → Prop
  | .done _ => True
  | .ask request next => request.Within scope ∧ ∀ answer, (next answer).Within scope

/-- Whether all that listeners and foreign contexts do is within a scope. -/
structure Directory.Within (scope : Scope) (directory : Directory σ) : Prop where
  onEvent : ∀ id event, ((directory.listener id).onEvent event).Within scope
  onContext : ∀ id supply, (directory.listener id).onContext = some supply →
    ∀ context, (supply context).Within scope
  publish : ∀ id event, ((directory.foreign id).publish event).Within scope
  subscribe : ∀ id listener, ((directory.foreign id).subscribe listener).Within scope

variable {scope : Scope}

theorem Request.within_full (request : Request σ) : request.Within Scope.full := by
  cases request <;> simp only [Within, Scope.full_sends, and_true] <;> exact trivial

theorem Request.Within.opened {request : Request σ} (h : request.Within scope) :
    request.Within scope.opened := by
  cases request with
  | publish context event => exact Scope.Sends.opened h
  | broadcast multicaster event => exact Scope.Sends.opened h
  | refresh context => exact ⟨trivial, h.2.opened⟩
  | close context => exact ⟨trivial, h.2.opened⟩
  | _ => exact trivial

theorem Program.within_full (program : Program σ α) : program.Within Scope.full := by
  induction program with
  | done value => exact trivial
  | ask request next ih => exact ⟨request.within_full, ih⟩

theorem Program.Within.opened {program : Program σ α} (h : program.Within scope) :
    program.Within scope.opened := by
  induction program with
  | done value => exact trivial
  | ask request next ih => exact ⟨h.1.opened, fun answer => ih answer (h.2 answer)⟩

theorem Directory.within_full (directory : Directory σ) : directory.Within Scope.full :=
  ⟨fun _ _ => Program.within_full _, fun _ _ _ _ => Program.within_full _,
    fun _ _ => Program.within_full _, fun _ _ => Program.within_full _⟩

theorem Directory.Within.opened {directory : Directory σ} (h : directory.Within scope) :
    directory.Within scope.opened :=
  ⟨fun id event => (h.onEvent id event).opened,
    fun id supply hSupply context => (h.onContext id supply hSupply context).opened,
    fun id event => (h.publish id event).opened,
    fun id listener => (h.subscribe id listener).opened⟩

theorem Directory.within_default : (default : Directory σ).Within scope :=
  ⟨fun _ _ => trivial, fun _ _ => nofun, fun _ _ => trivial, fun _ _ => trivial⟩

/-- Whether an act changes the world along a path of a scope. -/
def Act.Within (scope : Scope) (act : Act σ α) : Prop :=
  ∀ ⦃w a w'⦄, act w = some (a, w') → World.Path scope w w'

structure Host.Within (scope : Scope) (host : Host σ) : Prop where
  directory : host.directory.Within scope
  perform : ∀ {α : Type} (program : Program σ α), program.Within scope →
    (host.perform program).Within scope

namespace Act

theorem within_pure (a : α) : (pure a : Act σ α).Within scope := by
  intro w b w' h
  obtain ⟨-, rfl⟩ := pure_inv h
  exact .refl

theorem Within.bind {act : Act σ α} {f : α → Act σ β} (hAct : act.Within scope)
    (hRest : ∀ a, (f a).Within scope) : (act >>= f).Within scope := by
  intro w b w' h
  obtain ⟨a, w₁, h₁, h₂⟩ := bind_inv h
  exact (hAct h₁).trans (hRest a h₂)

theorem Within.map {act : Act σ α} (hAct : act.Within scope) (f : α → β) :
    (f <$> act).Within scope :=
  hAct.bind fun a => within_pure (f a)

theorem within_stuck : (stuck : Act σ α).Within scope := by
  intro w a w' h
  cases h

theorem within_write {entry : Entry} (hNotes : scope.notes entry) (hPlain : entry.sign = none) :
    (write entry : Act σ Unit).Within scope := by
  intro w a w' h
  rw [write_inv h]
  exact .single (.note w hNotes hPlain)

theorem within_memory : (memory : Act σ σ).Within scope := by
  intro w a w' h
  cases h
  exact .refl

theorem within_remember (value : σ) : (remember value).Within scope := by
  intro w a w' h
  cases h
  exact .single (.remember w value)

theorem within_context (id : ContextId) : (Act.context id : Act σ Context).Within scope := by
  intro w a w' h
  obtain ⟨-, rfl⟩ := context_inv h
  exact .refl

theorem within_properties (id : StoreId) : (Act.properties id : Act σ Properties).Within scope := by
  intro w a w' h
  obtain ⟨-, rfl⟩ := properties_inv h
  exact .refl

theorem within_assign (id : StoreId) (pairs : List (String × String)) :
    (Act.assign id pairs : Act σ Unit).Within scope := by
  intro w a w' h
  cases h
  exact .single (.store w _ (Nat.le_of_eq (List.length_modify ..).symm))

theorem within_addStore (properties : Properties) :
    (Act.addStore properties : Act σ StoreId).Within scope := by
  intro w a w' h
  cases h
  exact .single (.store w _ (by simp))

end Act

namespace Host

variable {host : Host σ}

theorem enlist_within (host : Host σ) (id : ListenerId) : (host.enlist id).Within scope := by
  intro w r w' h
  cases h
  exact (Relation.ReflTransGen.single (.remember w _)).tail
    (.note _ (scope.routine _ rfl) rfl)

theorem enlistAll_within (host : Host σ) (ids : List ListenerId) (multicaster : Multicaster) :
    (host.enlistAll multicaster ids).Within scope := by
  induction ids generalizing multicaster with
  | nil => exact Act.within_pure multicaster
  | cons id ids ih => exact (enlist_within host id).bind fun r => ih (multicaster.register r)

end Host

end Startup
