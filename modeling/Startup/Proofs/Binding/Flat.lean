import Startup.Proofs.Binding.Locality

/-!
# Groups without groups

Where no key below a group has a point, the tree there has only leaves: one for each property, under
its name. Properties that are set below a group, in any order, are all that there is below it
afterwards.
-/

namespace Startup

namespace PropertyTree

variable {children : List (String × PropertyTree)} {entries : List (String × String)}

def leaves (entries : List (String × String)) : List (String × PropertyTree) :=
  entries.map fun entry => (entry.1, .leaf entry.2)

/-- No key leads to a place below another group. -/
def Flat (entries : List (String × String)) : Prop :=
  ∀ entry ∈ entries, '.' ∉ entry.1.toList

theorem sound_leaves (hOrdered : Keyed.Ordered entries) : Sound (group (leaves entries)) := by
  refine .group (hOrdered.map PropertyTree.leaf) ?_ ?_
  · intro child hChild
    obtain ⟨entry, -, rfl⟩ := List.mem_map.mp hChild
    exact .leaf entry.2
  · intro child hChild
    obtain ⟨entry, -, rfl⟩ := List.mem_map.mp hChild
    exact nofun

theorem leafAt_leaves_iff {path : List String} {text : String}
    (hOrdered : Keyed.Ordered entries) : (group (leaves entries)).leafAt path = some text ↔
      ∃ name, path = [name] ∧ (name, text) ∈ entries := by
  simp only [← hOrdered.find?_eq_some_iff]
  constructor
  · intro hLeaf
    cases path with
    | nil => simp at hLeaf
    | cons segment rest =>
      obtain ⟨child, hFind, hChild⟩ := leafAt_group_cons_eq_some_iff.mp hLeaf
      rw [leaves, Keyed.find?_map] at hFind
      obtain ⟨found, hFound, rfl⟩ := Option.map_eq_some_iff.mp hFind
      cases rest with
      | nil =>
        rw [leafAt_leaf_nil] at hChild
        exact ⟨segment, rfl, hFound.trans hChild⟩
      | cons next rest => simp at hChild
  · rintro ⟨name, rfl, hText⟩
    have hFind : Keyed.find? name (leaves entries) = some (.leaf text) := by
      rw [leaves, Keyed.find?_map, hText]
      rfl
    exact leafAt_group_cons_eq_some_iff.mpr ⟨_, hFind, leafAt_leaf_nil text⟩

theorem holds_leaves (hOrdered : Keyed.Ordered entries) (hFlat : Flat entries) :
    Holds (leaves entries) entries where
  sound := sound_leaves hOrdered
  leaves path text := by
    rw [leafAt_leaves_iff hOrdered]
    constructor
    · rintro ⟨name, rfl, hMem⟩
      exact ⟨name, hMem, Text.splitOn_of_not_mem (hFlat _ hMem)⟩
    · rintro ⟨key, hMem, rfl⟩
      exact ⟨key, Text.splitOn_of_not_mem (hFlat _ hMem), hMem⟩

/-- A group that has only leaves is that of keys without a point. -/
theorem Holds.flat (h : Holds children entries)
    (hLeaves : ∀ child ∈ children, ∃ text, child.2 = .leaf text) : Flat entries := by
  rintro ⟨key, text⟩ hMem
  have hLeaf := (h.leaves _ text).mpr ⟨key, hMem, rfl⟩
  cases hSplit : Text.splitOn '.' key with
  | nil => exact absurd hSplit (Text.splitOn_ne_nil '.' key)
  | cons segment rest =>
    rw [hSplit] at hLeaf
    obtain ⟨child, hFind, hChild⟩ := leafAt_group_cons_eq_some_iff.mp hLeaf
    obtain ⟨found, hFound⟩ := hLeaves _ (Keyed.mem_of_find?_eq_some hFind)
    obtain rfl : child = .leaf found := hFound
    cases rest with
    | cons next rest => simp at hChild
    | nil =>
      have hSegment : segment ∈ Text.splitOn '.' key := by
        rw [hSplit]
        exact List.mem_cons_self
      have hKey : key = segment := by
        rw [← Text.joined_splitOn key, hSplit]
        exact String.intercalate_singleton
      rw [hKey]
      exact Text.not_mem_of_mem_splitOn hSegment

end PropertyTree

namespace Properties

variable {properties : Properties} {group : String} {entries calls : List (String × String)}

/-- The assignments of some texts below a group. -/
def under (group : String) (entries : List (String × String)) : List (String × String) :=
  entries.map fun entry => (group ++ "." ++ entry.1, entry.2)

theorem mem_under_iff {name text : String} :
    (group ++ "." ++ name, text) ∈ under group entries ↔ (name, text) ∈ entries := by
  constructor
  · intro hMem
    obtain ⟨⟨other, found⟩, hEntry, hSame⟩ := List.mem_map.mp hMem
    obtain ⟨hKey, rfl⟩ := Prod.mk.inj hSame
    rwa [← (String.append_right_inj _).mp hKey]
  · exact fun hMem => List.mem_map.mpr ⟨(name, text), hMem, rfl⟩

theorem single_under (hOrdered : Keyed.Ordered entries) : Keyed.Single (under group entries) := by
  intro key a b hA hB
  obtain ⟨⟨name, text⟩, -, hEntry⟩ := List.mem_map.mp hA
  obtain ⟨rfl, -⟩ := Prod.mk.inj hEntry
  exact hOrdered.single name a b (mem_under_iff.mp hA) (mem_under_iff.mp hB)

/-- Whatever the order of the assignments, they are all that is below the group afterwards, unless
there was something under other names. -/
theorem below_setAll (hOrdered : Keyed.Ordered entries) (hCalls : calls.Perm (under group entries))
    (hOthers : ∀ name, name ∉ Keyed.keys entries → properties.get? (group ++ "." ++ name) = none) :
    (properties.setAll calls).below group = entries := by
  have hMem {pair : String × String} : pair ∈ calls.reverse ↔ pair ∈ under group entries := by
    rw [List.mem_reverse, hCalls.mem_iff]
  have hSingle : Keyed.Single calls.reverse := fun key a b hA hB =>
    single_under hOrdered key a b (hMem.mp hA) (hMem.mp hB)
  apply (ordered_below _ group).ext hOrdered
  intro name
  rw [find?_below, get?_setAll]
  cases hFind : Keyed.find? name entries with
  | some text =>
    have hCall := hMem.mpr (mem_under_iff.mpr (Keyed.mem_of_find?_eq_some hFind))
    rw [hSingle.find?_eq_some_iff.mpr hCall, Option.some_or]
  | none =>
    have hName := Keyed.find?_eq_none_iff.mp hFind
    have hUncalled : Keyed.find? (group ++ "." ++ name) calls.reverse = none := by
      refine Option.eq_none_iff_forall_ne_some.mpr fun text hText => hName ?_
      have hEntry := mem_under_iff.mp (hMem.mp (Keyed.mem_of_find?_eq_some hText))
      exact List.mem_map_of_mem hEntry
    rw [hUncalled, Option.none_or, hOthers name hName]

end Properties

end Startup
