import Mathlib.Data.List.Forall2
import Startup.Proofs.Effect.Scope

/-!
# Listeners enlisted

A listener declares its filter and its order anew each time it is registered, and the registration
keeps what it declared then. Enlisting listeners never fails: it puts one registration for each of
them behind those that were there.
-/

namespace Startup

variable {σ : Type} {host : Host σ} {w w' : World σ}

/-- What a listener declares when it is registered. -/
def Host.Captures (host : Host σ) (id : ListenerId) (r : Registration) : Prop :=
  ∃ memory, r = ⟨id, (host.listener id).name, ((host.listener id).declare memory).1.filter,
    ((host.listener id).declare memory).1.order⟩

namespace Host

/-- The registration of a listener with what it declares in a world. -/
def registrationIn (host : Host σ) (id : ListenerId) (w : World σ) : Registration :=
  ⟨id, (host.listener id).name, ((host.listener id).declare w.memory).1.filter,
    ((host.listener id).declare w.memory).1.order⟩

/-- The world once a listener has declared and was written down. -/
def enlisted (host : Host σ) (id : ListenerId) (w : World σ) : World σ :=
  { w with memory := ((host.listener id).declare w.memory).2 }.note
    (.registered (host.registrationIn id w))

theorem enlist_eq (host : Host σ) (id : ListenerId) (w : World σ) :
    host.enlist id w = some (host.registrationIn id w, host.enlisted id w) := rfl

theorem captures_registrationIn (host : Host σ) (id : ListenerId) (w : World σ) :
    host.Captures id (host.registrationIn id w) :=
  ⟨w.memory, rfl⟩

theorem Captures.listener_eq {listener : ListenerId} {r : Registration}
    (h : host.Captures listener r) : r.listener = listener := by
  obtain ⟨_, rfl⟩ := h
  rfl

theorem Captures.map_listener {ids : List ListenerId} {registrations : List Registration}
    (h : List.Forall₂ host.Captures ids registrations) :
    registrations.map Registration.listener = ids := by
  induction h with
  | nil => rfl
  | cons hFirst _ ih => rw [List.map_cons, hFirst.listener_eq, ih]

/-- A collection holds of each listener what that listener declared. -/
theorem Captures.of_mem {ids : List ListenerId} {registrations : List Registration}
    (h : List.Forall₂ host.Captures ids registrations) {r : Registration}
    (hr : r ∈ registrations) : host.Captures r.listener r := by
  induction h with
  | nil => cases hr
  | cons hFirst _ ih =>
    rcases List.mem_cons.mp hr with rfl | hr
    · rw [hFirst.listener_eq]
      exact hFirst
    · exact ih hr

theorem enlist_inv {listener : ListenerId} {r : Registration}
    (h : host.enlist listener w = some (r, w')) :
    host.Captures listener r ∧ .registered r ∈ w'.since w := by
  cases h
  exact ⟨⟨w.memory, rfl⟩, World.mem_since_note w _⟩

theorem eq_registrationIn_of_enlist {listener : ListenerId} {r : Registration}
    (h : host.enlist listener w = some (r, w')) : r = host.registrationIn listener w := by
  cases h
  rfl

/-- Enlisting never fails. -/
theorem exists_enlistAll (host : Host σ) (ids : List ListenerId) (multicaster : Multicaster)
    (w : World σ) : ∃ after v, host.enlistAll multicaster ids w = some (after, v) := by
  induction ids generalizing multicaster w with
  | nil => exact ⟨multicaster, w, rfl⟩
  | cons id ids ih =>
    obtain ⟨r, w₁, hEnlist⟩ : ∃ r w₁, host.enlist id w = some (r, w₁) := ⟨_, _, rfl⟩
    obtain ⟨after, v, hRest⟩ := ih (multicaster.register r) w₁
    exact ⟨after, v, (Act.bind_apply hEnlist).trans hRest⟩

/-- Enlisting puts the new registrations, one for each listener, behind those that were there. -/
theorem enlistAll_inv {ids : List ListenerId} {multicaster after : Multicaster}
    (h : host.enlistAll multicaster ids w = some (after, w')) :
    ∃ fresh, after = ⟨multicaster.registrations ++ fresh⟩ ∧
      List.Forall₂ host.Captures ids fresh ∧ ∀ r ∈ fresh, .registered r ∈ w'.since w := by
  induction ids generalizing multicaster w with
  | nil =>
    cases h
    exact ⟨[], by rw [List.append_nil], .nil, nofun⟩
  | cons id ids ih =>
    obtain ⟨r, w₁, hEnlist, hRest⟩ := Act.bind_inv h
    obtain ⟨fresh, rfl, hFresh, hTold⟩ := ih hRest
    have hFirst : World.Path Scope.full w w₁ := enlist_within host id hEnlist
    have hPath : World.Path Scope.full w₁ w' := enlistAll_within host ids _ hRest
    obtain ⟨hCaptures, hRegistered⟩ := enlist_inv hEnlist
    refine ⟨r :: fresh, ?_, .cons hCaptures hFresh, ?_⟩
    · rw [Multicaster.register, List.append_assoc]
      rfl
    · intro s hMem
      rcases List.mem_cons.mp hMem with rfl | hMem
      · exact hFirst.mem_since_of_left hPath hRegistered
      · exact hFirst.mem_since_of_right hPath (hTold s hMem)

end Host

end Startup
