import Startup.Proofs.Multicaster.Sequence

/-!
# Collections without a listener

Sorting commutes with leaving registrations out, whatever their order, so a collection without one
listener delivers to the others as the collection does. Two lists that differ in some elements only
stand beside each other: they are read together, and what is skipped comes on one side at a time.
-/

namespace Startup

/-- Two lists that are the same but for elements that are skipped. -/
inductive Beside {α : Type} (skip : α → Bool) : List α → List α → Prop
  | nil : Beside skip [] []
  | left {a : α} {as bs : List α} (hSkip : skip a = true) (h : Beside skip as bs) :
      Beside skip (a :: as) bs
  | right {b : α} {as bs : List α} (hSkip : skip b = true) (h : Beside skip as bs) :
      Beside skip as (b :: bs)
  | both {a : α} {as bs : List α} (hKeep : skip a = false) (h : Beside skip as bs) :
      Beside skip (a :: as) (a :: bs)

namespace Beside

variable {α : Type} {skip : α → Bool} {as bs : List α}

theorem of_filter_eq_nil (h : bs.filter (fun b => !skip b) = []) : Beside skip [] bs := by
  induction bs with
  | nil => exact .nil
  | cons b bs ih =>
    have hAll := List.filter_eq_nil_iff.mp h
    have hSkip : skip b = true := by simpa using hAll b (List.mem_cons_self ..)
    refine .right hSkip (ih (List.filter_eq_nil_iff.mpr fun c hc => ?_))
    exact hAll c (List.mem_cons_of_mem _ hc)

theorem of_filter_eq_cons {a : α} {kept : List α} (hKeep : skip a = false)
    (hRest : ∀ cs, kept = cs.filter (fun c => !skip c) → Beside skip as cs)
    (h : a :: kept = bs.filter fun b => !skip b) : Beside skip (a :: as) bs := by
  induction bs with
  | nil => cases h
  | cons b bs ih =>
    cases hSkip : skip b with
    | true =>
      rw [List.filter_cons_of_neg (by simp [hSkip])] at h
      exact .right hSkip (ih h)
    | false =>
      rw [List.filter_cons_of_pos (by simp [hSkip])] at h
      obtain ⟨rfl, hKept⟩ := List.cons.inj h
      exact .both hKeep (hRest bs hKept)

/-- Lists stand beside each other if nothing tells them apart once the skipped is left out. -/
theorem of_filter_eq (h : as.filter (fun a => !skip a) = bs.filter fun b => !skip b) :
    Beside skip as bs := by
  induction as generalizing bs with
  | nil => exact of_filter_eq_nil h.symm
  | cons a as ih =>
    cases hSkip : skip a with
    | true =>
      rw [List.filter_cons_of_neg (by simp [hSkip])] at h
      exact .left hSkip (ih h)
    | false =>
      rw [List.filter_cons_of_pos (by simp [hSkip])] at h
      exact of_filter_eq_cons hSkip (fun _ => ih) h

end Beside

namespace Registration

theorem insertByOrder_eq_cons {r : Registration} {rs : List Registration}
    (h : ∀ s ∈ rs, r.order < s.order) : insertByOrder r rs = r :: rs := by
  cases rs with
  | nil => rfl
  | cons s rest => rw [insertByOrder, if_neg (Int.not_le.mpr (h s (List.mem_cons_self ..)))]

theorem filter_insertByOrder_of_neg {keep : Registration → Bool} {r : Registration}
    (hKeep : keep r = false) (rs : List Registration) :
    (insertByOrder r rs).filter keep = rs.filter keep := by
  induction rs with
  | nil => rw [insertByOrder, List.filter_cons_of_neg (by simp [hKeep])]
  | cons s rest ih =>
    rw [insertByOrder]
    split
    · rw [List.filter_cons, List.filter_cons, ih]
    · rw [List.filter_cons_of_neg (by simp [hKeep])]

theorem filter_insertByOrder_of_pos {keep : Registration → Bool} {r : Registration}
    (hKeep : keep r = true) {rs : List Registration}
    (h : rs.Pairwise fun a b => a.order ≤ b.order) :
    (insertByOrder r rs).filter keep = insertByOrder r (rs.filter keep) := by
  induction rs with
  | nil => rw [insertByOrder, List.filter_cons_of_pos hKeep, List.filter_nil, insertByOrder]
  | cons s rest ih =>
    obtain ⟨hs, hRest⟩ := List.pairwise_cons.mp h
    rw [insertByOrder]
    split
    · rename_i hBehind
      rw [List.filter_cons, List.filter_cons, ih hRest]
      split
      · rw [insertByOrder, if_pos hBehind]
      · rfl
    · rename_i hBefore
      -- the new one comes before all that stand there, and so before those that are kept
      rw [List.filter_cons_of_pos hKeep, insertByOrder_eq_cons]
      intro t ht
      have hFirst : s.order ≤ t.order := by
        rcases List.mem_cons.mp (List.mem_filter.mp ht).1 with rfl | ht
        · exact Int.le_refl _
        · exact hs t ht
      omega

/-- Leaving registrations out and sorting commute, whatever is left out. -/
theorem sortByOrder_filter (keep : Registration → Bool) (rs : List Registration) :
    sortByOrder (rs.filter keep) = (sortByOrder rs).filter keep := by
  induction rs using List.reverseRecOn with
  | nil => rfl
  | append_singleton rs r ih =>
    rw [List.filter_append, sortByOrder_concat]
    cases hKeep : keep r with
    | true =>
      rw [List.filter_cons_of_pos hKeep, List.filter_nil, sortByOrder_concat, ih,
        filter_insertByOrder_of_pos hKeep (pairwise_sortByOrder rs)]
    | false =>
      rw [List.filter_cons_of_neg (by simp [hKeep]), List.filter_nil, List.append_nil, ih,
        filter_insertByOrder_of_neg hKeep]

end Registration

namespace Multicaster

def without (m : Multicaster) (o : ListenerId) : Multicaster :=
  ⟨m.registrations.filter fun r => !(r.listener == o)⟩

variable {m n : Multicaster} {o : ListenerId}

theorem without_register_self {r : Registration} (h : r.listener = o) :
    (m.register r).without o = m.without o := by
  simp [without, register, h]

theorem without_register (h : m.without o = n.without o) (r : Registration) :
    (m.register r).without o = (n.register r).without o := by
  have hRegistrations := congrArg Multicaster.registrations h
  simp only [without] at hRegistrations
  rw [without, without, register, register, List.filter_append, List.filter_append,
    hRegistrations]

theorem contains_of_ne {id : ListenerId} (h : id ≠ o) :
    (m.without o).contains id = m.contains id := by
  rw [without, contains, contains, List.any_filter]
  congr 1
  funext r
  by_cases hListener : r.listener = id
  · simp [hListener, h]
  · simp [hListener]

theorem listeners_without (m : Multicaster) (o : ListenerId) :
    (m.without o).listeners = m.listeners.filter fun id => !(id == o) := by
  rw [listeners, listeners, List.filter_map]
  rfl

/-- An event goes to the others in the same sequence if a listener is left out. -/
theorem matching_without (m : Multicaster) (o : ListenerId) (kind : EventKind) :
    (m.without o).matching kind = (m.matching kind).filter fun r => !(r.listener == o) := by
  rw [matching, matching, ← Registration.sortByOrder_filter, without, List.filter_filter,
    List.filter_filter]
  congr 2
  funext r
  exact Bool.and_comm _ _

theorem beside_matching (h : m.without o = n.without o) (kind : EventKind) :
    Beside (fun r => r.listener == o) (m.matching kind) (n.matching kind) := by
  apply Beside.of_filter_eq
  rw [← matching_without, ← matching_without, h]

end Multicaster

end Startup
