import Startup.Event.Filter
import Startup.Reference
import Startup.Text.Digits

/-!
# Multicasters

Registered listeners with the filter and the order that each declared when it was registered. An
event goes to the registrations that accept its kind, lower orders first and equal orders as they
were registered.
-/

namespace Startup

structure Registration where
  listener : ListenerId
  name : String
  filter : EventFilter
  order : Int
  deriving DecidableEq, Repr

namespace Registration

def accepts (r : Registration) (kind : EventKind) : Bool :=
  r.filter.accepts kind

def inspect (r : Registration) : String :=
  Text.record "Registration"
    [("name", Text.quoted r.name), ("filter", r.filter.inspect), ("order", Text.decimal r.order)]

/-- Puts a registration behind all of lower or equal order. -/
def insertByOrder (r : Registration) : List Registration → List Registration
  | [] => [r]
  | s :: rest => if s.order ≤ r.order then s :: insertByOrder r rest else r :: s :: rest

/-- Sorts by ascending order and keeps the sequence of equal orders. -/
def sortByOrder (registrations : List Registration) : List Registration :=
  registrations.foldl (fun sorted r => insertByOrder r sorted) []

theorem insertByOrder_perm (r : Registration) (rs : List Registration) :
    (insertByOrder r rs).Perm (r :: rs) := by
  induction rs with
  | nil => exact List.Perm.refl _
  | cons s rest ih =>
    simp only [insertByOrder]
    split
    · exact (ih.cons s).trans (List.Perm.swap r s rest)
    · exact List.Perm.refl _

theorem foldl_insertByOrder_perm (rs sorted : List Registration) :
    (rs.foldl (fun sorted r => insertByOrder r sorted) sorted).Perm (sorted ++ rs) := by
  induction rs generalizing sorted with
  | nil => simp
  | cons r rest ih =>
    exact (ih _).trans (((insertByOrder_perm r sorted).append_right rest).trans
      (List.perm_middle.symm))

theorem sortByOrder_perm (rs : List Registration) : (sortByOrder rs).Perm rs :=
  foldl_insertByOrder_perm rs []

theorem pairwise_insertByOrder {r : Registration} {rs : List Registration}
    (h : rs.Pairwise fun a b => a.order ≤ b.order) :
    (insertByOrder r rs).Pairwise fun a b => a.order ≤ b.order := by
  induction rs with
  | nil => simp [insertByOrder]
  | cons s rest ih =>
    obtain ⟨hs, hrest⟩ := List.pairwise_cons.mp h
    simp only [insertByOrder]
    split
    · rename_i hle
      refine List.pairwise_cons.mpr ⟨fun a ha => ?_, ih hrest⟩
      rcases List.mem_cons.mp ((insertByOrder_perm r rest).mem_iff.mp ha) with rfl | ha
      · exact hle
      · exact hs a ha
    · rename_i hlt
      refine List.pairwise_cons.mpr ⟨fun a ha => ?_, h⟩
      rcases List.mem_cons.mp ha with rfl | ha
      · omega
      · exact Int.le_trans (by omega) (hs a ha)

theorem pairwise_sortByOrder (rs : List Registration) :
    (sortByOrder rs).Pairwise fun a b => a.order ≤ b.order := by
  suffices ∀ sorted : List Registration, (sorted.Pairwise fun a b => a.order ≤ b.order) →
      (rs.foldl (fun sorted r => insertByOrder r sorted) sorted).Pairwise
        fun a b => a.order ≤ b.order from this [] List.Pairwise.nil
  induction rs with
  | nil => exact fun _ h => h
  | cons r rest ih => exact fun sorted h => ih _ (pairwise_insertByOrder h)

end Registration

structure Multicaster where
  registrations : List Registration
  deriving DecidableEq, Repr

namespace Multicaster

def empty : Multicaster :=
  ⟨[]⟩

instance : Inhabited Multicaster := ⟨empty⟩

def register (m : Multicaster) (r : Registration) : Multicaster :=
  ⟨m.registrations ++ [r]⟩

/-- Whether a listener is registered, itself and not just one that looks the same. -/
def contains (m : Multicaster) (listener : ListenerId) : Bool :=
  m.registrations.any fun r => r.listener == listener

def listeners (m : Multicaster) : List ListenerId :=
  m.registrations.map Registration.listener

def names (m : Multicaster) : List String :=
  m.registrations.map Registration.name

/-- The registrations that an event of a kind goes to, in the order of delivery. -/
def matching (m : Multicaster) (kind : EventKind) : List Registration :=
  Registration.sortByOrder (m.registrations.filter fun r => r.accepts kind)

def size (m : Multicaster) : Nat :=
  m.registrations.length

def isEmpty (m : Multicaster) : Bool :=
  m.registrations.isEmpty

def inspect (m : Multicaster) : String :=
  Text.listing (m.registrations.map Registration.inspect)

theorem mem_matching {m : Multicaster} {kind : EventKind} {r : Registration} :
    r ∈ m.matching kind ↔ r ∈ m.registrations ∧ r.accepts kind = true := by
  rw [matching, (Registration.sortByOrder_perm _).mem_iff, List.mem_filter]

end Multicaster

end Startup
