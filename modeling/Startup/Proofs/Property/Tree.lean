import Startup.Property.Tree

/-!
# Trees by their leaves

A tree without empty groups is known by the texts at its paths, and of two such paths none leads
through the other. A text is put into a tree just where that stays so; otherwise the tree is as it
was. Several texts are put in if none of them is in the way of another one, or a leaf in the way of
them. So the tree of some properties is any tree that has them as its leaves.
-/

namespace Startup.PropertyTree

/-- The text at a path. -/
def leafAt : PropertyTree → List String → Option String
  | leaf text, [] => some text
  | leaf _, _ :: _ => none
  | group _, [] => none
  | group children, segment :: path =>
    (Keyed.find? segment children).bind fun child => child.leafAt path

/-- Below every group there is a leaf, but the tree itself may be an empty group. -/
inductive Sound : PropertyTree → Prop where
  | leaf (text : String) : Sound (leaf text)
  | group {children : List (String × PropertyTree)} (ordered : Keyed.Ordered children)
      (each : ∀ child ∈ children, Sound child.2) (filled : ∀ child ∈ children, child.2 ≠ empty) :
      Sound (group children)

variable {tree : PropertyTree} {children : List (String × PropertyTree)}
  {head segment text : String} {path rest : List String}

@[simp] theorem leafAt_leaf_nil (text : String) : (leaf text).leafAt [] = some text := by
  rw [leafAt]

@[simp] theorem leafAt_leaf_cons (text segment : String) (path : List String) :
    (leaf text).leafAt (segment :: path) = none := by
  rw [leafAt]

@[simp] theorem leafAt_group_nil (children : List (String × PropertyTree)) :
    (group children).leafAt [] = none := by
  rw [leafAt]

theorem leafAt_group_cons (children : List (String × PropertyTree)) (segment : String)
    (path : List String) : (group children).leafAt (segment :: path) =
      (Keyed.find? segment children).bind fun child => child.leafAt path := by
  rw [leafAt]

theorem leafAt_group_cons_eq_some_iff :
    (group children).leafAt (segment :: path) = some text ↔
      ∃ child, Keyed.find? segment children = some child ∧ child.leafAt path = some text := by
  rw [leafAt_group_cons, Option.bind_eq_some_iff]

@[simp] theorem leafAt_empty (path : List String) : empty.leafAt path = none := by
  cases path with
  | nil => rfl
  | cons segment path => rw [empty, leafAt_group_cons, Keyed.find?_nil, Option.bind_none]

theorem sound_empty : Sound empty :=
  .group Keyed.ordered_nil nofun nofun

theorem sound_of_find? (h : Sound (group children)) {child : PropertyTree}
    (hFind : Keyed.find? segment children = some child) : Sound child ∧ child ≠ empty := by
  cases h with
  | group ordered each filled =>
    have hMem := Keyed.mem_of_find?_eq_some hFind
    exact ⟨each _ hMem, filled _ hMem⟩

theorem Sound.exists_leafAt (h : Sound tree) (hFilled : tree ≠ empty) :
    ∃ path text, tree.leafAt path = some text := by
  induction h with
  | leaf text => exact ⟨[], text, leafAt_leaf_nil text⟩
  | @group children ordered each filled ih =>
    cases children with
    | nil => exact absurd rfl hFilled
    | cons first children =>
      obtain ⟨path, text, hLeaf⟩ := ih first List.mem_cons_self (filled first List.mem_cons_self)
      refine ⟨first.1 :: path, text, ?_⟩
      rw [leafAt_group_cons, Keyed.find?_cons, if_pos rfl]
      exact hLeaf

/-- No leaf stands on the way to another one. -/
theorem eq_nil_of_leafAt_append {a b : String} (hShort : tree.leafAt path = some a)
    (hLong : tree.leafAt (path ++ rest) = some b) : rest = [] := by
  induction path generalizing tree with
  | nil =>
    cases tree with
    | leaf text =>
      cases rest with
      | nil => rfl
      | cons segment rest => simp at hLong
    | group children => simp at hShort
  | cons segment path ih =>
    cases tree with
    | leaf text => simp at hShort
    | group children =>
      obtain ⟨child, hFind, hChild⟩ := leafAt_group_cons_eq_some_iff.mp hShort
      obtain ⟨other, hOther, hBelow⟩ := leafAt_group_cons_eq_some_iff.mp hLong
      cases hFind.symm.trans hOther
      exact ih hChild hBelow

/-- Where the leaves are the same, there is a child wherever the other tree has one, since that one
has a leaf. -/
theorem exists_find?_of_leafAt_eq {as bs : List (String × PropertyTree)} {key : String}
    {child : PropertyTree} (h : Sound (group as))
    (hSame : ∀ path, (group as).leafAt path = (group bs).leafAt path)
    (hFind : Keyed.find? key as = some child) : ∃ other, Keyed.find? key bs = some other := by
  obtain ⟨hChild, hFilled⟩ := sound_of_find? h hFind
  obtain ⟨path, text, hLeaf⟩ := hChild.exists_leafAt hFilled
  have hPath := hSame (key :: path)
  rw [leafAt_group_cons, hFind, Option.bind_some, hLeaf] at hPath
  obtain ⟨other, hOther, -⟩ := leafAt_group_cons_eq_some_iff.mp hPath.symm
  exact ⟨other, hOther⟩

/-- Trees with the same leaves are the same. -/
theorem Sound.ext {a b : PropertyTree} (hA : Sound a) (hB : Sound b)
    (h : ∀ path, a.leafAt path = b.leafAt path) : a = b := by
  induction hA generalizing b with
  | leaf text =>
    have hRoot := h []
    cases hB with
    | leaf other =>
      rw [leafAt_leaf_nil, leafAt_leaf_nil] at hRoot
      rw [Option.some.inj hRoot]
    | group _ _ _ => simp at hRoot
  | @group as hOrdered hEach hFilled ih =>
    cases b with
    | leaf other =>
      have hRoot := h []
      simp at hRoot
    | group bs =>
      have hOrdered' : Keyed.Ordered bs := by cases hB; assumption
      congr 1
      apply hOrdered.ext hOrdered'
      intro key
      cases hFind : Keyed.find? key as with
      | none =>
        cases hOther : Keyed.find? key bs with
        | none => rfl
        | some other =>
          obtain ⟨child, hChild⟩ :=
            exists_find?_of_leafAt_eq hB (fun path => (h path).symm) hOther
          cases hFind.symm.trans hChild
      | some child =>
        obtain ⟨other, hOther⟩ :=
          exists_find?_of_leafAt_eq (.group hOrdered hEach hFilled) h hFind
        rw [hOther, Option.some.injEq]
        apply ih _ (Keyed.mem_of_find?_eq_some hFind) (sound_of_find? hB hOther).1
        intro path
        have hPath := h (key :: path)
        rwa [leafAt_group_cons, leafAt_group_cons, hFind, hOther] at hPath

theorem sound_insert (h : Sound (group children)) {child : PropertyTree} (hChild : Sound child)
    (hFilled : child ≠ empty) (head : String) :
    Sound (group (Keyed.insert head child children)) := by
  cases h with
  | group ordered each filled =>
    refine .group ordered.insert ?_ ?_
    · intro entry hEntry
      rcases Keyed.mem_of_mem_insert hEntry with rfl | hEntry
      · exact hChild
      · exact each entry hEntry
    · intro entry hEntry
      rcases Keyed.mem_of_mem_insert hEntry with rfl | hEntry
      · exact hFilled
      · exact filled entry hEntry

theorem leafAt_insert_cons (children : List (String × PropertyTree)) (head : String)
    (child : PropertyTree) (segment : String) (path : List String) :
    (group (Keyed.insert head child children)).leafAt (segment :: path) =
      if segment = head then child.leafAt path else (group children).leafAt (segment :: path) := by
  rw [leafAt_group_cons, Keyed.find?_insert]
  split
  · rw [Option.bind_some]
  · rw [leafAt_group_cons]

/-- A text has its place: it is the leaf at its path, and what else there was is as before. -/
structure Placed (path : List String) (text : String) (before after : PropertyTree) : Prop where
  sound : Sound after
  leaves : ∀ other, after.leafAt other = if other = path then some text else before.leafAt other

/-- One of two paths leads on behind the other. -/
def Crosses (a b : List String) : Prop :=
  a ≠ b ∧ (a <+: b ∨ b <+: a)

theorem Crosses.symm {a b : List String} (h : Crosses a b) : Crosses b a :=
  ⟨h.1.symm, h.2.symm⟩

theorem not_crosses_of_leafAt {a b : List String} {x y : String} (hA : tree.leafAt a = some x)
    (hB : tree.leafAt b = some y) : ¬ Crosses a b := by
  rintro ⟨hOther, ⟨rest, rfl⟩ | ⟨rest, rfl⟩⟩
  · rw [eq_nil_of_leafAt_append hA hB, List.append_nil] at hOther
    exact hOther rfl
  · rw [eq_nil_of_leafAt_append hB hA, List.append_nil] at hOther
    exact hOther rfl

/-- There is a leaf on the way to a path, or behind it. -/
def Blocked (path : List String) (tree : PropertyTree) : Prop :=
  ∃ other old, tree.leafAt other = some old ∧ other ≠ path ∧ (other <+: path ∨ path <+: other)

theorem Placed.ne_empty {after : PropertyTree} (h : Placed path text tree after) :
    after ≠ empty := by
  rintro rfl
  have hLeaf := h.leaves path
  rw [leafAt_empty, if_pos rfl] at hLeaf
  cases hLeaf

theorem Placed.not_blocked {after : PropertyTree} (h : Placed path text tree after) :
    ¬ Blocked path tree := by
  rintro ⟨other, old, hOld, hCrosses⟩
  have hPath : after.leafAt path = some text := by
    rw [h.leaves, if_pos rfl]
  have hOther : after.leafAt other = some old := by
    rw [h.leaves, if_neg hCrosses.1, hOld]
  exact not_crosses_of_leafAt hOther hPath hCrosses

theorem Placed.below {grown : PropertyTree} (hSound : Sound (.group children))
    (h : Placed rest text ((Keyed.find? head children).getD empty) grown) :
    Placed (head :: rest) text (.group children)
      (.group (Keyed.insert head grown children)) where
  sound := sound_insert hSound h.sound h.ne_empty head
  leaves other := by
    cases other with
    | nil => rw [if_neg nofun, leafAt_group_nil, leafAt_group_nil]
    | cons segment path =>
      rw [leafAt_insert_cons]
      by_cases hSegment : segment = head
      · subst hSegment
        simp only [if_true, h.leaves, List.cons.injEq, true_and, leafAt_group_cons]
        cases Keyed.find? segment children <;> simp
      · simp [hSegment]

theorem placed_leaf (hFree : ∀ segment path, tree.leafAt (segment :: path) = none)
    (text : String) : Placed [] text tree (leaf text) where
  sound := .leaf text
  leaves other := by
    cases other with
    | nil => simp
    | cons segment path => simp [hFree]

theorem Blocked.below {inner : PropertyTree} (hFind : Keyed.find? head children = some inner)
    (h : Blocked rest inner) : Blocked (head :: rest) (group children) := by
  obtain ⟨other, old, hOld, hOther, hPrefix⟩ := h
  refine ⟨head :: other, old, leafAt_group_cons_eq_some_iff.mpr ⟨inner, hFind, hOld⟩, ?_, ?_⟩
  · exact fun hSame => hOther (List.cons.inj hSame).2
  · simpa only [List.prefix_cons_inj] using hPrefix

/-- How a text is put into a tree: it gets its place, or one is in its way and nothing changes. -/
inductive Inserting (path : List String) (text : String) (before : PropertyTree) :
    PropertyTree × Option Conflict → Prop
  | placed {children : List (String × PropertyTree)}
      (h : Placed path text before (group children)) :
      Inserting path text before (group children, none)
  | blocked (segment : String) (h : Blocked path before) :
      Inserting path text before (before, some (.valueAndGroup segment))

theorem inserting_last (hSound : Sound (group children)) (head text : String) :
    Inserting [head] text (group children) (insert head [] text (group children)) := by
  rw [insert]
  split
  · rename_i inner hFind
    obtain ⟨hInner, hFilled⟩ := sound_of_find? hSound hFind
    obtain ⟨path, old, hOld⟩ := hInner.exists_leafAt hFilled
    refine .blocked head (.below hFind ⟨path, old, hOld, ?_, .inr List.nil_prefix⟩)
    rintro rfl
    simp at hOld
  · rename_i hOther
    refine .placed (.below hSound (placed_leaf ?_ text))
    intro segment path
    cases hFind : Keyed.find? head children with
    | none => simp
    | some found =>
      cases found with
      | leaf old => simp
      | group inner => exact absurd hFind (hOther inner)

theorem not_blocked_empty : ¬ Blocked path empty := by
  rintro ⟨other, old, hOld, -⟩
  rw [leafAt_empty] at hOld
  cases hOld

theorem Inserting.below (hSound : Sound (group children)) {inner : PropertyTree}
    (hInner : (Keyed.find? head children).getD empty = inner) {result : PropertyTree × Option Conflict}
    (h : Inserting rest text inner result) :
    Inserting (head :: rest) text (group children)
      (group (Keyed.insert head result.1 children), result.2) := by
  subst hInner
  cases h with
  | placed hPlaced => exact .placed (.below hSound hPlaced)
  | blocked segment hBlocked =>
    cases hFind : Keyed.find? head children with
    | none =>
      rw [hFind] at hBlocked
      exact absurd hBlocked not_blocked_empty
    | some inner =>
      rw [hFind] at hBlocked
      cases hSound with
      | group ordered _ _ =>
        -- the child that was found is put back where it was
        have hSame : Keyed.insert head inner children = children :=
          ordered.insert_eq_self hFind
        rw [Option.getD_some, hSame]
        exact .blocked segment (.below hFind hBlocked)

/-- A text is put at its path, or there is a leaf on its way or behind it. It is never put below a
value, for that is found one step before. -/
theorem inserting_group (hSound : Sound (group children)) (head : String) (rest : List String)
    (text : String) :
    Inserting (head :: rest) text (group children) (insert head rest text (group children)) := by
  induction rest generalizing head children with
  | nil => exact inserting_last hSound head text
  | cons next rest ih =>
    rw [insert]
    cases hFind : Keyed.find? head children with
    | none =>
      exact .below hSound (by rw [hFind]; rfl) (ih sound_empty next)
    | some found =>
      cases found with
      | leaf old =>
        exact .blocked head
          (.below hFind ⟨[], old, leafAt_leaf_nil old, nofun, .inl List.nil_prefix⟩)
      | group inner =>
        exact .below hSound (by rw [hFind]; rfl) (ih (sound_of_find? hSound hFind).1 next)

theorem insertKey_eq_insert (key text : String) (tree : PropertyTree) : ∃ head rest,
    Text.splitOn '.' key = head :: rest ∧ tree.insertKey key text = tree.insert head rest text := by
  unfold insertKey
  cases hSplit : Text.splitOn '.' key with
  | nil => exact absurd (List.map_eq_nil_iff.mp hSplit) (Text.splitChars_ne_nil _ _)
  | cons head rest => exact ⟨head, rest, rfl, rfl⟩

theorem inserting_key (hSound : Sound (group children)) (key text : String) :
    Inserting (Text.splitOn '.' key) text (group children) ((group children).insertKey key text) := by
  obtain ⟨head, rest, hSplit, hInsert⟩ := insertKey_eq_insert key text (group children)
  rw [hSplit, hInsert]
  exact inserting_group hSound head rest text

section Entries

variable {entries : List (String × String)} {key : String} {after : PropertyTree}

/-- What is in the way of a path after an insertion was so before, or it is what was put in. -/
theorem Placed.blocked_iff {other : List String} (h : Placed path text tree after) :
    Blocked other after ↔ Blocked other tree ∨ Crosses path other := by
  constructor
  · rintro ⟨leaf, old, hOld, hCrosses⟩
    rw [h.leaves] at hOld
    split at hOld
    · rename_i hLeaf
      exact .inr (hLeaf ▸ hCrosses)
    · exact .inl ⟨leaf, old, hOld, hCrosses⟩
  · rintro (⟨leaf, old, hOld, hCrosses⟩ | hCrosses)
    · -- a leaf may have another text now, but it stays
      obtain ⟨new, hNew⟩ : ∃ new, after.leafAt leaf = some new := by
        rw [h.leaves]
        split
        · exact ⟨text, rfl⟩
        · exact ⟨old, hOld⟩
      exact ⟨leaf, new, hNew, hCrosses⟩
    · exact ⟨path, text, by rw [h.leaves, if_pos rfl], hCrosses⟩

/-- No entry is in the way of another one, and no leaf of a tree is in the way of an entry. -/
structure Fits (entries : List (String × String)) (tree : PropertyTree) : Prop where
  free : ∀ entry ∈ entries, ¬ Blocked (Text.splitOn '.' entry.1) tree
  apart : entries.Pairwise fun a b =>
    ¬ Crosses (Text.splitOn '.' a.1) (Text.splitOn '.' b.1)

theorem Placed.fits_cons_iff (h : Placed (Text.splitOn '.' key) text tree after) :
    Fits ((key, text) :: entries) tree ↔ Fits entries after := by
  constructor
  · rintro ⟨hFree, hApart⟩
    obtain ⟨hFirst, hApart⟩ := List.pairwise_cons.mp hApart
    refine ⟨fun entry hEntry => ?_, hApart⟩
    rw [h.blocked_iff, not_or]
    exact ⟨hFree entry (List.mem_cons_of_mem _ hEntry), hFirst entry hEntry⟩
  · rintro ⟨hFree, hApart⟩
    have hBoth (entry : String × String) (hEntry : entry ∈ entries) :
        ¬ Blocked (Text.splitOn '.' entry.1) tree ∧
          ¬ Crosses (Text.splitOn '.' key) (Text.splitOn '.' entry.1) := by
      rw [← not_or, ← h.blocked_iff]
      exact hFree entry hEntry
    exact ⟨List.forall_mem_cons.mpr ⟨h.not_blocked, fun entry hEntry => (hBoth entry hEntry).1⟩,
      List.pairwise_cons.mpr ⟨fun entry hEntry => (hBoth entry hEntry).2, hApart⟩⟩

/-- No path has two texts. -/
def Definite (entries : List (String × String)) : Prop :=
  ∀ a ∈ entries, ∀ b ∈ entries, Text.splitOn '.' a.1 = Text.splitOn '.' b.1 → a.2 = b.2

/-- The leaves of a tree once some entries were put in: theirs, and of those that were there before
the ones at other paths. -/
def Overlaid (entries : List (String × String)) (tree : PropertyTree) (path : List String)
    (text : String) : Prop :=
  (∃ key, (key, text) ∈ entries ∧ Text.splitOn '.' key = path) ∨
    (∀ entry ∈ entries, Text.splitOn '.' entry.1 ≠ path) ∧ tree.leafAt path = some text

theorem Placed.overlaid_iff {found : String} (h : Placed (Text.splitOn '.' key) text tree after)
    (hDefinite : Definite ((key, text) :: entries)) :
    Overlaid entries after path found ↔ Overlaid ((key, text) :: entries) tree path found := by
  simp only [Overlaid, h.leaves, List.forall_mem_cons]
  by_cases hPath : path = Text.splitOn '.' key
  · subst hPath
    -- an entry that comes later at this path has the text that is put in now
    have hSame : ∀ entry ∈ entries, Text.splitOn '.' entry.1 = Text.splitOn '.' key →
        entry.2 = text := fun entry hEntry =>
      hDefinite entry (List.mem_cons_of_mem _ hEntry) _ List.mem_cons_self
    grind
  · grind

/-- Entries that are in nothing's way are put in, one behind the other. -/
theorem extend_of_fits (hSound : Sound (group children)) (hFits : Fits entries (group children)) :
    ∃ grown, (group children).extend entries = .ok (group grown) ∧ Sound (group grown) ∧
      (Definite entries → ∀ path text, (group grown).leafAt path = some text ↔
        Overlaid entries (group children) path text) := by
  induction entries generalizing children with
  | nil => exact ⟨children, rfl, hSound, fun _ path text => by simp [Overlaid]⟩
  | cons entry entries ih =>
    obtain ⟨key, text⟩ := entry
    have hInserting := inserting_key hSound key text
    rw [extend]
    generalize (group children).insertKey key text = result at hInserting
    cases hInserting with
    | blocked segment hBlocked => exact absurd hBlocked (hFits.free _ List.mem_cons_self)
    | placed hPlaced =>
      obtain ⟨grown, hExtend, hGrown, hLeaves⟩ := ih hPlaced.sound (hPlaced.fits_cons_iff.mp hFits)
      refine ⟨grown, hExtend, hGrown, fun hDefinite path found => ?_⟩
      have hRest : Definite entries := fun a hA b hB =>
        hDefinite a (List.mem_cons_of_mem _ hA) b (List.mem_cons_of_mem _ hB)
      rw [hLeaves hRest]
      exact hPlaced.overlaid_iff hDefinite

/-- A tree is that of any entries that are its leaves. -/
theorem ofEntries_eq (hSound : Sound (group children))
    (hEntries : ∀ path text, (group children).leafAt path = some text ↔
      ∃ key, (key, text) ∈ entries ∧ Text.splitOn '.' key = path) :
    ofEntries entries = .ok (group children) := by
  have hLeaf (entry : String × String) (hEntry : entry ∈ entries) :
      (group children).leafAt (Text.splitOn '.' entry.1) = some entry.2 :=
    (hEntries _ _).mpr ⟨entry.1, hEntry, rfl⟩
  have hFits : Fits entries empty := ⟨fun _ _ => not_blocked_empty,
    List.pairwise_of_forall_mem_list fun a hA b hB =>
      not_crosses_of_leafAt (hLeaf a hA) (hLeaf b hB)⟩
  have hDefinite : Definite entries := by
    intro a hA b hB hPath
    have hText := hLeaf a hA
    rw [hPath, hLeaf b hB] at hText
    exact (Option.some.inj hText).symm
  obtain ⟨grown, hExtend, hGrown, hLeaves⟩ := extend_of_fits sound_empty hFits
  have hSame : group grown = group children := by
    apply hGrown.ext hSound
    intro path
    apply Option.ext
    intro text
    have hEmpty : (group []).leafAt path = none := leafAt_empty path
    rw [hLeaves hDefinite, hEntries, Overlaid, hEmpty]
    simp
  rw [ofEntries, empty, hExtend, hSame]

end Entries

end Startup.PropertyTree
