import Startup.Binding.Decode
import Startup.Proofs.Property.Segments
import Startup.Proofs.Property.Tree

/-!
# The tree below a group

The properties below a group form a tree if none of their keys is behind another one, and their
texts are its leaves. Otherwise the first key that is behind another one is a conflict, for all
keys that it could be behind come before it.
-/

namespace Startup

namespace PropertyTree

variable {children : List (String × PropertyTree)} {entries done : List (String × String)}
  {head key lead segment text : String} {rest : List String}

/-- The leaves of a group are the texts of the entries, at the segments of their keys. -/
structure Holds (children : List (String × PropertyTree)) (entries : List (String × String)) :
    Prop where
  sound : Sound (group children)
  leaves : ∀ path text, (group children).leafAt path = some text ↔
    ∃ key, (key, text) ∈ entries ∧ Text.splitOn '.' key = path

def Apart (entries : List (String × String)) : Prop :=
  ∀ a ∈ entries, ∀ b ∈ entries, ¬ Key.Behind a.1 b.1

theorem holds_nil : Holds [] [] where
  sound := sound_empty
  leaves path text := by
    have hNone : (group []).leafAt path = none := leafAt_empty path
    simp [hNone]

theorem Holds.ordered (h : Holds children entries) : Keyed.Ordered children := by
  cases h.sound
  assumption

theorem Holds.behind_of_prefix (h : Holds children entries) {path : List String}
    (hLeaf : (group children).leafAt path = some text) (hPath : path ≠ Text.splitOn '.' key) :
    ∃ lead, (lead, text) ∈ entries ∧ (path <+: Text.splitOn '.' key → Key.Behind lead key) ∧
      (Text.splitOn '.' key <+: path → Key.Behind key lead) := by
  obtain ⟨lead, hMem, rfl⟩ := (h.leaves path text).mp hLeaf
  refine ⟨lead, hMem, ?_, ?_⟩
  · rintro ⟨segments, hSplit⟩
    refine Key.behind_iff.mpr ⟨segments, ?_, hSplit.symm⟩
    rintro rfl
    exact hPath (by simpa using hSplit)
  · rintro ⟨segments, hSplit⟩
    refine Key.behind_iff.mpr ⟨segments, ?_, hSplit.symm⟩
    rintro rfl
    exact hPath (by simpa using hSplit.symm)

/-- A text finds its place if its key is behind none of those that were put in, and after all of
them. -/
theorem Holds.insertKey (h : Holds children done) (hLater : ∀ entry ∈ done, entry.1 < key)
    (hFree : ∀ entry ∈ done, ¬ Key.Behind entry.1 key) (text : String) :
    ∃ grown, (group children).insertKey key text = (group grown, none) ∧
      Holds grown (done ++ [(key, text)]) := by
  have hInserting := inserting_key h.sound key text
  generalize (group children).insertKey key text = result at hInserting
  cases hInserting with
  | blocked segment hBlocked =>
    obtain ⟨other, old, hOld, hOther, hPrefix⟩ := hBlocked
    obtain ⟨lead, hMem, hBefore, hBehind⟩ := h.behind_of_prefix hOld hOther
    rcases hPrefix with hPrefix | hPrefix
    · exact absurd (hBefore hPrefix) (hFree _ hMem)
    · exact absurd (hBehind hPrefix).lt (String.lt_asymm (hLater _ hMem))
  | @placed grown hPlaced =>
    refine ⟨grown, rfl, hPlaced.sound, fun path found => ?_⟩
    rw [hPlaced.leaves]
    constructor
    · intro hFound
      split at hFound
      · rename_i hPath
        cases hFound
        exact ⟨key, by simp, hPath.symm⟩
      · obtain ⟨other, hMem, hPath⟩ := (h.leaves path found).mp hFound
        exact ⟨other, List.mem_append_left _ hMem, hPath⟩
    · rintro ⟨other, hMem, rfl⟩
      rcases List.mem_append.mp hMem with hMem | hMem
      · have hOther : Text.splitOn '.' other ≠ Text.splitOn '.' key := by
          intro hSame
          have hLess : other < key := hLater _ hMem
          rw [Text.splitOn_injective hSame] at hLess
          exact String.lt_irrefl key hLess
        rw [if_neg hOther]
        exact (h.leaves _ found).mpr ⟨other, hMem, rfl⟩
      · cases List.mem_singleton.mp hMem
        exact if_pos rfl

/-- On the way to a path behind a leaf the last segment before that leaf is the conflict. -/
theorem insert_behind_leaf {front more : List String} {next old : String}
    (hLeaf : (group children).leafAt (front ++ [segment]) = some old)
    (hPath : head :: rest = front ++ segment :: next :: more) (text : String) :
    (insert head rest text (group children)).2 = some (.valueAndGroup segment) := by
  induction front generalizing head rest children with
  | nil =>
    cases hPath
    obtain ⟨child, hFind, hChild⟩ := leafAt_group_cons_eq_some_iff.mp hLeaf
    cases child with
    | leaf found => rw [insert, hFind]; rfl
    | group inner => simp at hChild
  | cons first front ih =>
    obtain ⟨rfl, hRest⟩ := List.cons.inj hPath
    obtain ⟨child, hFind, hChild⟩ := leafAt_group_cons_eq_some_iff.mp hLeaf
    cases child with
    | leaf found =>
      cases front <;> simp at hChild
    | group inner =>
      obtain ⟨second, tail, rfl⟩ : ∃ second tail, rest = second :: tail := by
        cases rest with
        | nil => simp at hRest
        | cons second tail => exact ⟨second, tail, rfl⟩
      rw [insert, hFind]
      exact ih hChild hRest

theorem Holds.insertKey_behind (h : Holds children done) {old : String}
    (hLead : (lead, old) ∈ done) (hBehind : Key.Behind lead key)
    (hLast : Key.LastSegment lead segment) (text : String) :
    ((group children).insertKey key text).2 = some (.valueAndGroup segment) := by
  obtain ⟨head, rest, hSplit, hInsert⟩ := insertKey_eq_insert key text (group children)
  obtain ⟨segments, hNe, hBehind⟩ := Key.behind_iff.mp hBehind
  obtain ⟨front, hFront⟩ := hLast.splitOn_eq
  obtain ⟨next, more, rfl⟩ := List.exists_cons_of_ne_nil hNe
  have hLeaf : (group children).leafAt (front ++ [segment]) = some old :=
    (h.leaves _ old).mpr ⟨lead, hLead, hFront⟩
  have hPath : head :: rest = front ++ segment :: next :: more := by
    rw [← hSplit, hBehind, hFront, List.append_assoc]
    rfl
  rw [hInsert]
  exact insert_behind_leaf hLeaf hPath text

theorem Apart.append (h : Apart done) (hLater : ∀ entry ∈ done, entry.1 < key)
    (hFree : ∀ entry ∈ done, ¬ Key.Behind entry.1 key) (text : String) :
    Apart (done ++ [(key, text)]) := by
  intro a hA b hB hBehind
  rcases List.mem_append.mp hA with hA | hA <;> rcases List.mem_append.mp hB with hB | hB
  · exact h a hA b hB hBehind
  · cases List.mem_singleton.mp hB
    exact hFree a hA hBehind
  · cases List.mem_singleton.mp hA
    exact String.lt_asymm hBehind.lt (hLater b hB)
  · cases List.mem_singleton.mp hA
    cases List.mem_singleton.mp hB
    exact String.lt_irrefl key hBehind.lt

/-- What becomes of entries in the order of their keys: a tree of them, or the first key that is
behind one before it is a conflict. -/
inductive Forms (entries : List (String × String)) : Except Conflict PropertyTree → Prop
  | tree {children : List (String × PropertyTree)} (apart : Apart entries)
      (holds : Holds children entries) : Forms entries (.ok (group children))
  | conflict {before after : List (String × String)} {lead old key text segment : String}
      (split : entries = before ++ (key, text) :: after) (apart : Apart before)
      (value : (lead, old) ∈ before) (behind : Key.Behind lead key)
      (last : Key.LastSegment lead segment) : Forms entries (.error (.valueAndGroup segment))

theorem Holds.extend (h : Holds children done) (hApart : Apart done)
    (hOrdered : Keyed.Ordered (done ++ entries)) :
    Forms (done ++ entries) ((group children).extend entries) := by
  induction entries generalizing children done with
  | nil =>
    rw [List.append_nil]
    exact .tree hApart h
  | cons entry entries ih =>
    obtain ⟨key, text⟩ := entry
    have hLater : ∀ entry ∈ done, entry.1 < key := fun entry hEntry =>
      (List.pairwise_append.mp hOrdered).2.2 entry hEntry _ List.mem_cons_self
    rw [PropertyTree.extend]
    by_cases hLead : ∃ entry ∈ done, Key.Behind entry.1 key
    · obtain ⟨⟨lead, old⟩, hMem, hBehind⟩ := hLead
      obtain ⟨segment, hLast⟩ := Key.exists_lastSegment lead
      have hConflict := h.insertKey_behind hMem hBehind hLast text
      generalize (group children).insertKey key text = result at hConflict
      obtain ⟨after, conflict⟩ := result
      cases hConflict
      exact .conflict rfl hApart hMem hBehind hLast
    · have hFree : ∀ entry ∈ done, ¬ Key.Behind entry.1 key := fun entry hEntry hBehind =>
        hLead ⟨entry, hEntry, hBehind⟩
      obtain ⟨grown, hInsert, hGrown⟩ := h.insertKey hLater hFree text
      rw [hInsert, List.append_cons]
      rw [List.append_cons] at hOrdered
      exact ih hGrown (hApart.append hLater hFree text) hOrdered

theorem forms_ofEntries (hOrdered : Keyed.Ordered entries) :
    Forms entries (ofEntries entries) :=
  holds_nil.extend nofun hOrdered

end PropertyTree

namespace Properties

variable {properties : Properties} {group key text : String}

theorem mem_below_iff :
    (key, text) ∈ properties.below group ↔ (group ++ "." ++ key, text) ∈ properties.entries := by
  rw [below, List.mem_filterMap]
  constructor
  · rintro ⟨⟨full, found⟩, hEntry, hStrip⟩
    obtain ⟨rest, hRest, hPair⟩ := Option.map_eq_some_iff.mp hStrip
    cases hPair
    rw [Text.stripLead_eq_some_iff] at hRest
    exact hRest ▸ hEntry
  · intro hEntry
    exact ⟨_, hEntry, congrArg (Option.map _) (Text.stripLead_eq_some_iff.mpr rfl)⟩

theorem mem_below_iff_get? :
    (key, text) ∈ properties.below group ↔ properties.get? (group ++ "." ++ key) = some text := by
  rw [mem_below_iff, get?, properties.ordered.find?_eq_some_iff]

theorem lt_of_append_lt {lead a b : String} (h : lead ++ a < lead ++ b) : a < b := by
  by_cases hSame : a = b
  · exact absurd (hSame ▸ h) (String.lt_irrefl _)
  · refine Decidable.byContradiction fun hLess => ?_
    have hOther := String.lt_iff.mp (Keyed.lt_of_not_lt_of_ne hLess hSame)
    have hBack : lead ++ b < lead ++ a := by
      rw [String.lt_iff, String.toList_append, String.toList_append]
      exact List.append_left_lt hOther
    exact String.lt_asymm h hBack

theorem ordered_below (properties : Properties) (group : String) :
    Keyed.Ordered (properties.below group) := by
  refine properties.ordered.filterMap _ fun a b hLess x hX y hY => ?_
  obtain ⟨rest, hRest, rfl⟩ := Option.map_eq_some_iff.mp hX
  obtain ⟨other, hOther, rfl⟩ := Option.map_eq_some_iff.mp hY
  rw [Text.stripLead_eq_some_iff] at hRest hOther
  rw [hRest, hOther] at hLess
  exact lt_of_append_lt hLess

/-- A property below a group, and another one with a key behind the key of the first. -/
structure Clash (properties : Properties) (group lead key : String) : Prop where
  value : properties.contains (group ++ "." ++ lead) = true
  inner : properties.contains (group ++ "." ++ key) = true
  behind : Key.Behind lead key

theorem contains_below_iff : properties.contains (group ++ "." ++ key) = true ↔
    ∃ text, (key, text) ∈ properties.below group := by
  simp only [contains, Option.isSome_iff_exists, mem_below_iff_get?]

theorem apart_iff_not_clash : PropertyTree.Apart (properties.below group) ↔
    ∀ lead key, ¬ properties.Clash group lead key := by
  constructor
  · rintro hApart lead key ⟨hValue, hInner, hBehind⟩
    obtain ⟨old, hOld⟩ := contains_below_iff.mp hValue
    obtain ⟨text, hText⟩ := contains_below_iff.mp hInner
    exact hApart _ hOld _ hText hBehind
  · intro hFree a hA b hB hBehind
    exact hFree a.1 b.1
      ⟨contains_below_iff.mpr ⟨a.2, hA⟩, contains_below_iff.mpr ⟨b.2, hB⟩, hBehind⟩

/-- The clash whose inner key comes first. Of all keys that this one could be behind, there is but
one. -/
structure FirstClash (properties : Properties) (group lead key : String) : Prop where
  clash : properties.Clash group lead key
  first : ∀ other inner, properties.Clash group other inner → key ≤ inner
  only : ∀ other, properties.Clash group other key → other = lead

theorem firstClash_of_split {before after : List (String × String)} {lead old : String}
    (hSplit : properties.below group = before ++ (key, text) :: after)
    (hApart : PropertyTree.Apart before) (hLead : (lead, old) ∈ before)
    (hBehind : Key.Behind lead key) : properties.FirstClash group lead key := by
  have hOrdered := properties.ordered_below group
  have hBefore {other : String} (hOther : properties.contains (group ++ "." ++ other) = true)
      (hLess : other < key) : ∃ found, (other, found) ∈ before := by
    obtain ⟨found, hMem⟩ := contains_below_iff.mp hOther
    exact ⟨found, (hSplit ▸ hOrdered).mem_before_of_lt (hSplit ▸ hMem) hLess⟩
  refine ⟨⟨contains_below_iff.mpr ⟨old, ?_⟩, contains_below_iff.mpr ⟨text, ?_⟩, hBehind⟩, ?_, ?_⟩
  · rw [hSplit]
    exact List.mem_append_left _ hLead
  · rw [hSplit]
    exact List.mem_append_right _ List.mem_cons_self
  · intro other inner hClash
    refine Decidable.byContradiction fun hLess => ?_
    have hInner : inner < key := String.not_le.mp hLess
    obtain ⟨_, hOther⟩ := hBefore hClash.value (String.lt_trans hClash.behind.lt hInner)
    obtain ⟨_, hInner⟩ := hBefore hClash.inner hInner
    exact hApart _ hOther _ hInner hClash.behind
  · intro other hClash
    obtain ⟨_, hOther⟩ := hBefore hClash.value hClash.behind.lt
    rcases hClash.behind.connected hBehind with hSame | hBetween | hBetween
    · exact hSame
    · exact absurd hBetween (hApart _ hOther _ hLead)
    · exact absurd hBetween (hApart _ hLead _ hOther)

theorem forms_below (properties : Properties) (group : String) :
    PropertyTree.Forms (properties.below group)
      (PropertyTree.ofEntries (properties.below group)) :=
  PropertyTree.forms_ofEntries (properties.ordered_below group)

theorem holds_of_ofEntries {tree : PropertyTree}
    (h : PropertyTree.ofEntries (properties.below group) = .ok tree) :
    (∀ lead key, ¬ properties.Clash group lead key) ∧
      ∃ children, tree = .group children ∧
        PropertyTree.Holds children (properties.below group) := by
  have hForms := properties.forms_below group
  rw [h] at hForms
  cases hForms with
  | tree hApart hHolds => exact ⟨apart_iff_not_clash.mp hApart, _, rfl, hHolds⟩

theorem exists_holds (hFree : ∀ lead key, ¬ properties.Clash group lead key) :
    ∃ children, PropertyTree.ofEntries (properties.below group) = .ok (.group children) ∧
      PropertyTree.Holds children (properties.below group) := by
  have hForms := properties.forms_below group
  generalize PropertyTree.ofEntries (properties.below group) = result at hForms
  cases hForms with
  | tree hApart hHolds => exact ⟨_, rfl, hHolds⟩
  | conflict hSplit hApart hLead hBehind hLast =>
    exact absurd (firstClash_of_split hSplit hApart hLead hBehind).clash (hFree _ _)

theorem exists_conflict {lead : String} (hClash : properties.Clash group lead key) :
    ∃ first inner segment, properties.FirstClash group first inner ∧
      Key.LastSegment first segment ∧
      PropertyTree.ofEntries (properties.below group) = .error (.valueAndGroup segment) := by
  have hForms := properties.forms_below group
  generalize PropertyTree.ofEntries (properties.below group) = result at hForms
  cases hForms with
  | tree hApart hHolds => exact absurd hClash (apart_iff_not_clash.mp hApart lead key)
  | conflict hSplit hApart hLead hBehind hLast =>
    exact ⟨_, _, _, firstClash_of_split hSplit hApart hLead hBehind, hLast, rfl⟩

/-- The properties below a group form a tree just if there is no clash: each of their texts is a
leaf at the segments of its key, and there are no other leaves and no empty groups. Where there is
a clash nothing can be bound, and the conflict is the last segment of the key in front in the first
one. -/
theorem tree_below (properties : Properties) (group : String) :
    ((∃ tree, PropertyTree.ofEntries (properties.below group) = .ok tree) ↔
      ∀ lead key, ¬ properties.Clash group lead key) ∧
    (∀ tree, PropertyTree.ofEntries (properties.below group) = .ok tree →
      (∃ children, tree = .group children) ∧ tree.Sound ∧
        ∀ path text, tree.leafAt path = some text ↔ ∃ key,
          properties.get? (group ++ "." ++ key) = some text ∧ Text.splitOn '.' key = path) ∧
    ∀ lead key, properties.Clash group lead key →
      ∃ first inner segment, properties.FirstClash group first inner ∧
        Key.LastSegment first segment ∧ ∀ schema, properties.bind group schema =
          .error (.bindingFailed group ("'" ++ segment ++ "' is both a value and a group")) := by
  refine ⟨⟨?_, ?_⟩, ?_, ?_⟩
  · rintro ⟨tree, hTree⟩
    exact (holds_of_ofEntries hTree).1
  · intro hFree
    obtain ⟨children, hTree, -⟩ := exists_holds hFree
    exact ⟨_, hTree⟩
  · intro tree hTree
    obtain ⟨-, children, rfl, hHolds⟩ := holds_of_ofEntries hTree
    refine ⟨⟨children, rfl⟩, hHolds.sound, fun path text => ?_⟩
    simp only [hHolds.leaves, mem_below_iff_get?]
  · intro lead key hClash
    obtain ⟨first, inner, segment, hFirst, hLast, hConflict⟩ := exists_conflict hClash
    refine ⟨first, inner, segment, hFirst, hLast, fun schema => ?_⟩
    rw [bind, hConflict]
    rfl

/-- A value, a group under its name, and between the two in the order of keys a third name. -/
def doubled : Properties :=
  ofPairs [("p.a.b", "1"), ("p.a", "2"), ("p.a-b", "3")]

theorem tree_below_doubled : doubled.Clash "p" "a" "a.b" ∧ ∀ schema, doubled.bind "p" schema =
    .error (.bindingFailed "p" "'a' is both a value and a group") := by
  have hClash : doubled.Clash "p" "a" "a.b" := ⟨by decide +kernel, by decide +kernel, "b", rfl⟩
  obtain ⟨first, inner, segment, -, -, hBind⟩ := (tree_below doubled "p").2.2 "a" "a.b" hClash
  have hUntyped : doubled.bind "p" .untyped =
      .error (.bindingFailed "p" "'a' is both a value and a group") := rfl
  refine ⟨hClash, fun schema => ?_⟩
  rw [hBind schema, ← hBind .untyped, hUntyped]

end Properties

end Startup
