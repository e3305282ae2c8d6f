import Mathlib.Data.List.Induction
import Startup.Multicaster

/-!
# The sequence of a delivery

An event goes to every registration that accepts its kind, as often as it is registered, in
ascending order, and where orders are equal as they were registered.
-/

namespace Startup

namespace Registration

theorem filter_insertByOrder {r : Registration} {rs : List Registration}
    (h : rs.Pairwise fun a b => a.order ≤ b.order) (order : Int) :
    (insertByOrder r rs).filter (fun s => s.order == order) =
      rs.filter (fun s => s.order == order) ++ [r].filter fun s => s.order == order := by
  induction rs with
  | nil => rfl
  | cons s rest ih =>
    obtain ⟨hs, hRest⟩ := List.pairwise_cons.mp h
    rw [insertByOrder]
    split
    · rw [List.filter_cons, List.filter_cons, ih hRest]
      split
      · rw [List.cons_append]
      · rfl
    · rename_i hLater
      by_cases hOrder : r.order = order
      · -- all that stand behind the new one have a greater order than it
        have hNone : (s :: rest).filter (fun s => s.order == order) = [] := by
          apply List.filter_eq_nil_iff.mpr
          intro t ht
          have hFirst : s.order ≤ t.order := by
            rcases List.mem_cons.mp ht with rfl | ht
            · exact Int.le_refl _
            · exact hs t ht
          simp only [beq_iff_eq]
          omega
        rw [List.filter_cons, hNone, List.nil_append, List.filter_cons, List.filter_nil]
      · simp [List.filter_cons, hOrder]

theorem sortByOrder_concat (rs : List Registration) (r : Registration) :
    sortByOrder (rs ++ [r]) = insertByOrder r (sortByOrder rs) := by
  rw [sortByOrder, List.foldl_append]
  rfl

theorem filter_sortByOrder (rs : List Registration) (order : Int) :
    (sortByOrder rs).filter (fun r => r.order == order) = rs.filter fun r => r.order == order := by
  induction rs using List.reverseRecOn with
  | nil => rfl
  | append_singleton rs r ih =>
    rw [sortByOrder_concat, filter_insertByOrder (pairwise_sortByOrder rs), ih, List.filter_append]

end Registration

namespace Multicaster

structure InSequence (m : Multicaster) (kind : EventKind) (sequence : List Registration) :
    Prop where
  perm : sequence.Perm (m.registrations.filter fun r => r.accepts kind)
  ascending : sequence.Pairwise fun a b => a.order ≤ b.order
  stable : ∀ order, (sequence.filter fun r => r.order == order) =
    (m.registrations.filter fun r => r.accepts kind).filter fun r => r.order == order

theorem inSequence_matching (m : Multicaster) (kind : EventKind) :
    m.InSequence kind (m.matching kind) where
  perm := Registration.sortByOrder_perm _
  ascending := Registration.pairwise_sortByOrder _
  stable := Registration.filter_sortByOrder _

end Multicaster

end Startup
