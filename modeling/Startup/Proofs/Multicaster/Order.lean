import Startup.Proofs.Effect.Enlisting
import Startup.Proofs.Multicaster.Without

/-!
# The order of deliveries

What is registered, each as often as it is, by ascending order, and equal orders as they were
registered: that is one sequence and no other. So the registration that comes last is put at one
place, behind all of lower or equal order, and a collection that stands behind another one is
merged into the sequence of that.
-/

namespace Startup

variable {σ : Type} {host : Host σ}

namespace Registration

theorem mem_of_filter_order {as bs : List Registration}
    (h : ∀ order, (as.filter fun r => r.order == order) = bs.filter fun r => r.order == order)
    {r : Registration} (hr : r ∈ as) : r ∈ bs := by
  have hMem : r ∈ as.filter fun s => s.order == r.order :=
    List.mem_filter.mpr ⟨hr, beq_self_eq_true _⟩
  rw [h] at hMem
  exact (List.mem_filter.mp hMem).1

/-- What stands first in an ascending list has the lowest order. -/
theorem head_le {a r : Registration} {as : List Registration}
    (h : (a :: as).Pairwise fun a b => a.order ≤ b.order) (hr : r ∈ a :: as) :
    a.order ≤ r.order := by
  rcases List.mem_cons.mp hr with rfl | hr
  · exact Int.le_refl _
  · exact (List.pairwise_cons.mp h).1 r hr

/-- Ascending lists are the same if they have the same registrations of each order. -/
theorem eq_of_filter_order {as bs : List Registration}
    (ha : as.Pairwise fun a b => a.order ≤ b.order) (hb : bs.Pairwise fun a b => a.order ≤ b.order)
    (h : ∀ order, (as.filter fun r => r.order == order) = bs.filter fun r => r.order == order) :
    as = bs := by
  induction as generalizing bs with
  | nil =>
    cases bs with
    | nil => rfl
    | cons b bs => exact absurd (mem_of_filter_order (fun order => (h order).symm)
        (List.mem_cons_self ..)) List.not_mem_nil
  | cons a as ih =>
    cases bs with
    | nil => exact absurd (mem_of_filter_order h (List.mem_cons_self ..)) List.not_mem_nil
    | cons b bs =>
      have hLower : b.order ≤ a.order :=
        head_le hb (mem_of_filter_order h (List.mem_cons_self ..))
      have hUpper : a.order ≤ b.order :=
        head_le ha (mem_of_filter_order (fun order => (h order).symm) (List.mem_cons_self ..))
      have hOrder : b.order = a.order := Int.le_antisymm hLower hUpper
      -- both are first of the lowest order
      have hFirst := h a.order
      rw [List.filter_cons, List.filter_cons, if_pos (beq_self_eq_true _),
        if_pos (beq_iff_eq.mpr hOrder)] at hFirst
      obtain ⟨rfl, -⟩ := List.cons.inj hFirst
      rw [ih (List.pairwise_cons.mp ha).2 (List.pairwise_cons.mp hb).2]
      intro order
      have hBoth := h order
      rw [List.filter_cons, List.filter_cons] at hBoth
      split at hBoth
      · exact (List.cons.inj hBoth).2
      · exact hBoth

theorem insertByOrder_eq_append (r : Registration) {rs : List Registration}
    (h : rs.Pairwise fun a b => a.order ≤ b.order) :
    ∃ before after, rs = before ++ after ∧ insertByOrder r rs = before ++ r :: after ∧
      (∀ s ∈ before, s.order ≤ r.order) ∧ ∀ s ∈ after, r.order < s.order := by
  induction rs with
  | nil => exact ⟨[], [], rfl, rfl, nofun, nofun⟩
  | cons s rest ih =>
    rw [insertByOrder]
    split
    · rename_i hBehind
      obtain ⟨before, after, hRest, hInsert, hBefore, hAfter⟩ := ih (List.pairwise_cons.mp h).2
      refine ⟨s :: before, after, by rw [hRest]; rfl, by rw [hInsert]; rfl, ?_, hAfter⟩
      exact List.forall_mem_cons.mpr ⟨hBehind, hBefore⟩
    · rename_i hFirst
      refine ⟨[], s :: rest, rfl, rfl, nofun, ?_⟩
      intro t ht
      exact Int.lt_of_lt_of_le (Int.not_le.mp hFirst) (head_le h ht)

/-- Whether a registration comes before another one that is registered later. -/
def precedes (a b : Registration) : Bool :=
  a.order ≤ b.order

theorem precedes_iff {a b : Registration} : precedes a b = true ↔ a.order ≤ b.order :=
  decide_eq_true_iff

theorem insertByOrder_merge_nil (r : Registration) (as : List Registration) :
    insertByOrder r as = as.merge [r] precedes := by
  induction as with
  | nil => rw [List.nil_merge, insertByOrder]
  | cons a as ih =>
    rw [insertByOrder, List.cons_merge_cons, List.merge_right, ih]
    simp only [precedes_iff]

theorem insertByOrder_merge (r : Registration) (as bs : List Registration) :
    insertByOrder r (as.merge bs precedes) = as.merge (insertByOrder r bs) precedes := by
  induction as generalizing bs with
  | nil => rw [List.nil_merge, List.nil_merge]
  | cons a as ihLeft =>
    induction bs with
    | nil => rw [List.merge_right, insertByOrder_merge_nil, insertByOrder]
    | cons b bs ihRight =>
      -- one of the heads comes first, and the new one stands before or behind it
      by_cases hab : precedes a b = true
      · have hOrder := precedes_iff.mp hab
        rw [List.cons_merge_cons_pos _ _ _ hab, insertByOrder, ihLeft, insertByOrder]
        by_cases har : a.order ≤ r.order
        · rw [if_pos har]
          split
          · rw [List.cons_merge_cons_pos _ _ _ hab]
          · rw [List.cons_merge_cons_pos _ _ _ (precedes_iff.mpr har)]
        · have hbr : ¬ b.order ≤ r.order := by omega
          rw [if_neg har, if_neg hbr, List.cons_merge_cons_neg _ _ _ (mt precedes_iff.mp har),
            List.cons_merge_cons_pos _ _ _ hab]
      · have hOrder := mt precedes_iff.mpr hab
        rw [List.cons_merge_cons_neg _ _ _ hab, insertByOrder, ihRight, insertByOrder]
        split
        · rw [List.cons_merge_cons_neg _ _ _ hab]
        · have har : ¬ a.order ≤ r.order := by omega
          rw [List.cons_merge_cons_neg _ _ _ (mt precedes_iff.mp har),
            List.cons_merge_cons_neg _ _ _ hab]

theorem sortByOrder_append (as bs : List Registration) :
    sortByOrder (as ++ bs) = (sortByOrder as).merge (sortByOrder bs) precedes := by
  induction bs using List.reverseRecOn with
  | nil =>
    rw [List.append_nil]
    exact (List.merge_right _).symm
  | append_singleton bs r ih =>
    rw [← List.append_assoc, sortByOrder_concat, sortByOrder_concat, ih, insertByOrder_merge]

end Registration

namespace Multicaster

/-- What a delivery goes to is settled by what is registered. -/
theorem inSequence_iff {m : Multicaster} {kind : EventKind} {sequence : List Registration} :
    m.InSequence kind sequence ↔ sequence = m.matching kind := by
  constructor
  · intro h
    have hMatching := m.inSequence_matching kind
    apply Registration.eq_of_filter_order h.ascending hMatching.ascending
    intro order
    rw [h.stable, hMatching.stable]
  · rintro rfl
    exact m.inSequence_matching kind

/-- A collection behind another one is merged into its sequence. -/
theorem matching_append (as bs : List Registration) (kind : EventKind) :
    Multicaster.matching ⟨as ++ bs⟩ kind =
      (Multicaster.matching ⟨as⟩ kind).merge (Multicaster.matching ⟨bs⟩ kind)
        Registration.precedes := by
  rw [matching, List.filter_append, Registration.sortByOrder_append]
  rfl

theorem matching_register_of_accepts (m : Multicaster) {kind : EventKind} {r : Registration}
    (h : r.accepts kind = true) :
    (m.register r).matching kind = Registration.insertByOrder r (m.matching kind) := by
  rw [matching, register, List.filter_append, List.filter_cons, if_pos h, List.filter_nil,
    Registration.sortByOrder_concat]
  rfl

theorem matching_register_of_not_accepts (m : Multicaster) {kind : EventKind} {r : Registration}
    (h : ¬ r.accepts kind = true) : (m.register r).matching kind = m.matching kind := by
  rw [matching, register, List.filter_append, List.filter_cons, if_neg h, List.filter_nil,
    List.append_nil]
  rfl

/-- A collection that listeners were registered with, one call after the other. Between two calls
the world may change in any way. -/
inductive Collected (host : Host σ) : List ListenerId → Multicaster → Prop
  | empty : Collected host [] .empty
  | registered {ids : List ListenerId} {m : Multicaster} {id : ListenerId} {r : Registration}
      {w w' : World σ} (earlier : Collected host ids m)
      (hEnlist : host.enlist id w = some (r, w')) :
      Collected host (ids ++ [id]) (m.register r)

variable {ids : List ListenerId} {m : Multicaster}

theorem Collected.captures (h : Collected host ids m) :
    List.Forall₂ host.Captures ids m.registrations := by
  induction h with
  | empty => exact .nil
  | registered _ hEnlist ih => exact List.rel_append ih (.cons (Host.enlist_inv hEnlist).1 .nil)

/-- A listener whose filter accepts a kind is delivered to as often as it was registered. -/
theorem Collected.countP_matching (h : Collected host ids m) {kind : EventKind} {id : ListenerId}
    (hAccepts : ∀ memory, ((host.listener id).declare memory).1.filter.accepts kind = true) :
    (m.matching kind).countP (fun r => r.listener == id) = ids.count id := by
  have hAll : ∀ r ∈ m.registrations,
      (r.listener == id && r.accepts kind) = true ↔ (r.listener == id) = true := by
    intro r hr
    rw [Bool.and_eq_true, and_iff_left_iff_imp]
    intro hListener
    obtain ⟨memory, hDeclared⟩ := Host.Captures.of_mem h.captures hr
    rw [Registration.accepts, hDeclared, beq_iff_eq.mp hListener]
    exact hAccepts memory
  calc (m.matching kind).countP (fun r => r.listener == id)
      = (m.registrations.filter fun r => r.accepts kind).countP (fun r => r.listener == id) :=
        (m.inSequence_matching kind).perm.countP_eq _
    _ = m.registrations.countP fun r => r.listener == id && r.accepts kind :=
        List.countP_filter
    _ = m.registrations.countP fun r => r.listener == id := List.countP_congr hAll
    _ = (m.registrations.map Registration.listener).count id := by
        rw [List.count, List.countP_map]
        rfl
    _ = ids.count id := by rw [Host.Captures.map_listener h.captures]

/-- However a collection was made: an event goes to what accepts its kind, as often as that is
registered, in the one sequence that ascends and keeps equal orders as they were registered. A
listener that is registered next gets one place in it, behind all of lower or equal order. -/
theorem Collected.delivers_in_order (h : Collected host ids m) (kind : EventKind) :
    List.Forall₂ host.Captures ids m.registrations ∧
    (∀ sequence, m.InSequence kind sequence ↔ sequence = m.matching kind) ∧
    m.matching kind = (Registration.sortByOrder m.registrations).filter (fun r => r.accepts kind) ∧
    (∀ id, (∀ memory, ((host.listener id).declare memory).1.filter.accepts kind = true) →
      (m.matching kind).countP (fun r => r.listener == id) = ids.count id) ∧
    ∀ id w, ∃ r w' before after,
      host.enlist id w = some (r, w') ∧ Collected host (ids ++ [id]) (m.register r) ∧
      m.matching kind = before ++ after ∧
      (m.register r).matching kind =
        (if r.accepts kind then before ++ r :: after else before ++ after) ∧
      (∀ s ∈ before, s.order ≤ r.order) ∧ ∀ s ∈ after, r.order < s.order := by
  refine ⟨h.captures, fun _ => inSequence_iff, Registration.sortByOrder_filter _ _,
    fun _ => h.countP_matching, ?_⟩
  intro id w
  obtain ⟨r, w', hEnlist⟩ : ∃ r w', host.enlist id w = some (r, w') := ⟨_, _, rfl⟩
  obtain ⟨before, after, hMatching, hInsert, hBefore, hAfter⟩ :=
    Registration.insertByOrder_eq_append r (m.inSequence_matching kind).ascending
  refine ⟨r, w', before, after, hEnlist, .registered h hEnlist, hMatching, ?_, hBefore, hAfter⟩
  split
  · rename_i hAccepts
    rw [matching_register_of_accepts m hAccepts, hInsert]
  · rename_i hAccepts
    rw [matching_register_of_not_accepts m hAccepts, hMatching]

/-- Listeners of which a later one comes before an earlier one. -/
def latestFirst : Directory Unit :=
  { (default : Directory Unit) with
    listener := fun id =>
      { (default : Listener Unit) with
        declare := fun memory => (⟨.all, -id.index⟩, memory) } }

/-- A listener that was registered before another one and again after it. -/
theorem delivers_in_order_repeated :
    ∃ m, Collected (Host.ofDepth latestFirst 1) [⟨0⟩, ⟨1⟩, ⟨0⟩] m ∧
      ∀ kind sequence, m.InSequence kind sequence →
        sequence.map Registration.listener = [⟨1⟩, ⟨0⟩, ⟨0⟩] ∧
        sequence.countP (fun r => r.listener == ⟨0⟩) = 2 := by
  have hCollected : Collected (Host.ofDepth latestFirst 1) [⟨0⟩, ⟨1⟩, ⟨0⟩] _ :=
    .registered (w := default) (.registered (w := default)
      (.registered (w := default) .empty rfl) rfl) rfl
  refine ⟨_, hCollected, ?_⟩
  intro kind sequence hSequence
  obtain ⟨-, hUnique, -, hCount, -⟩ := hCollected.delivers_in_order kind
  obtain rfl := (hUnique sequence).mp hSequence
  exact ⟨rfl, hCount ⟨0⟩ fun _ => rfl⟩

end Multicaster

end Startup
