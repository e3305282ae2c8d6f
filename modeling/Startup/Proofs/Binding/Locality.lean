import Startup.Proofs.Binding.Entries
import Startup.Proofs.Property.Clash

/-!
# What a binding depends on

A binding looks at the properties behind its group and a point, and at nothing else. What a map
has under a name is what is bound below the group and this name, for the tree there is the child
of that name.
-/

namespace Startup

namespace Key

/-- A key whose first segment is a name and that has more of them is behind the name. -/
theorem splitOn_eq_cons_iff {name key : String} {path : List String} (hName : '.' ∉ name.toList)
    (hPath : path ≠ []) : Text.splitOn '.' key = name :: path ↔
      ∃ rest, key = name ++ "." ++ rest ∧ Text.splitOn '.' rest = path := by
  have hSingle := Text.splitOn_of_not_mem hName
  constructor
  · intro hSplit
    obtain ⟨rest, rfl⟩ : Behind name key := behind_iff.mpr ⟨path, hPath, by simp [hSplit, hSingle]⟩
    rw [Text.splitOn_behind, hSingle] at hSplit
    exact ⟨rest, rfl, (List.cons.inj hSplit).2⟩
  · rintro ⟨rest, rfl, rfl⟩
    rw [Text.splitOn_behind, hSingle]
    rfl

end Key

namespace PropertyTree

variable {children inner : List (String × PropertyTree)} {entries : List (String × String)}
  {name : String}

theorem Holds.ofEntries_eq (h : Holds children entries) :
    ofEntries entries = .ok (group children) :=
  PropertyTree.ofEntries_eq h.sound h.leaves

theorem Holds.name_free (h : Holds children entries) {child : PropertyTree}
    (hFind : Keyed.find? name children = some child) : '.' ∉ name.toList := by
  obtain ⟨hSound, hFilled⟩ := sound_of_find? h.sound hFind
  obtain ⟨path, text, hLeaf⟩ := hSound.exists_leafAt hFilled
  obtain ⟨key, -, hSplit⟩ :=
    (h.leaves _ _).mp (leafAt_group_cons_eq_some_iff.mpr ⟨child, hFind, hLeaf⟩)
  have hMem : name ∈ Text.splitOn '.' key := by
    rw [hSplit]
    exact List.mem_cons_self
  exact Text.not_mem_of_mem_splitOn hMem

/-- The leaves of a child are the entries behind its name. -/
theorem Holds.leafAt_child_iff (h : Holds children entries)
    (hFind : Keyed.find? name children = some (.group inner)) {path : List String}
    {text : String} : (group inner).leafAt path = some text ↔
      ∃ rest, (name ++ "." ++ rest, text) ∈ entries ∧ Text.splitOn '.' rest = path := by
  cases path with
  | nil =>
    rw [leafAt_group_nil]
    constructor
    · exact nofun
    · rintro ⟨rest, -, hSplit⟩
      exact absurd hSplit (Text.splitOn_ne_nil '.' rest)
  | cons segment path =>
    have hLeaf : (group children).leafAt (name :: segment :: path) =
        (group inner).leafAt (segment :: path) := by
      rw [leafAt_group_cons, hFind, Option.bind_some]
    rw [← hLeaf, h.leaves]
    simp only [Key.splitOn_eq_cons_iff (h.name_free hFind) (List.cons_ne_nil segment path)]
    constructor
    · rintro ⟨_, hMem, rest, rfl, hSplit⟩
      exact ⟨rest, hMem, hSplit⟩
    · rintro ⟨rest, hMem, hSplit⟩
      exact ⟨_, hMem, rest, rfl, hSplit⟩

theorem ofEntries_single (hName : '.' ∉ name.toList) (text : String) :
    ofEntries [(name, text)] = .ok (group [(name, .leaf text)]) := by
  rw [ofEntries, PropertyTree.extend, insertKey, Text.splitOn_of_not_mem hName]
  rfl

end PropertyTree

namespace Properties

variable {properties other : Properties} {group name : String}

theorem find?_below (key : String) :
    Keyed.find? key (properties.below group) = properties.get? (group ++ "." ++ key) := by
  apply Option.ext
  intro text
  rw [(properties.ordered_below group).find?_eq_some_iff, mem_below_iff_get?]

theorem below_congr (h : ∀ key, properties.get? (group ++ "." ++ key) =
    other.get? (group ++ "." ++ key)) : properties.below group = other.below group := by
  apply (properties.ordered_below group).ext (other.ordered_below group)
  intro key
  rw [find?_below, find?_below, h]

theorem below_single (group name text : String) :
    (empty.set (group ++ "." ++ name) text).below group = [(name, text)] := by
  refine (ordered_below _ group).ext (List.pairwise_singleton _ _) fun key => ?_
  rw [find?_below, get?_set, get?_empty, Keyed.find?_cons, Keyed.find?_nil]
  simp only [String.append_right_inj, eq_comm]

theorem holds_child {children inner : List (String × PropertyTree)}
    (h : PropertyTree.Holds children (properties.below group))
    (hFind : Keyed.find? name children = some (.group inner)) :
    PropertyTree.Holds inner (properties.below (group ++ "." ++ name)) where
  sound := (PropertyTree.sound_of_find? h.sound hFind).1
  leaves path text := by
    rw [h.leafAt_child_iff hFind]
    simp only [mem_below_iff_get?, String.append_assoc]

theorem bind_of_holds {children : List (String × PropertyTree)}
    (h : PropertyTree.Holds children (properties.below group)) (schema : Schema) :
    properties.bind group schema = (schema.bind (.group children)).mapError fun problem =>
      .bindingFailed group problem.message := by
  rw [bind, h.ofEntries_eq]

theorem bind_ok_inv {schema : Schema} {value : Bound} (h : properties.bind group schema = .ok value) :
    ∃ children, PropertyTree.Holds children (properties.below group) ∧
      schema.bind (.group children) = .ok value := by
  cases hTree : PropertyTree.ofEntries (properties.below group) with
  | error conflict =>
    rw [bind, hTree] at h
    cases h
  | ok tree =>
    obtain ⟨-, children, rfl, hHolds⟩ := holds_of_ofEntries hTree
    rw [bind_of_holds hHolds] at h
    refine ⟨children, hHolds, ?_⟩
    cases hBound : schema.bind (.group children) with
    | error problem =>
      rw [hBound] at h
      cases h
    | ok bound =>
      rw [hBound] at h
      cases h
      rfl

theorem find?_eq_none_iff {children : List (String × PropertyTree)}
    (h : PropertyTree.Holds children (properties.below group))
    (hGroups : ∀ child, Keyed.find? name children = some child → ∃ inner, child = .group inner)
    (hName : '.' ∉ name.toList) : Keyed.find? name children = none ↔
      ∀ rest, properties.get? (group ++ "." ++ name ++ "." ++ rest) = none := by
  constructor
  · intro hNone rest
    refine Option.eq_none_iff_forall_ne_some.mpr fun text hText => ?_
    have hMem : (name ++ "." ++ rest, text) ∈ properties.below group := by
      rw [mem_below_iff_get?, ← hText]
      simp only [String.append_assoc]
    have hLeaf := (h.leaves (name :: Text.splitOn '.' rest) text).mpr
      ⟨_, hMem, (Key.splitOn_eq_cons_iff hName (Text.splitOn_ne_nil '.' rest)).mpr ⟨rest, rfl, rfl⟩⟩
    obtain ⟨child, hFind, -⟩ := PropertyTree.leafAt_group_cons_eq_some_iff.mp hLeaf
    rw [hNone] at hFind
    cases hFind
  · intro hNone
    refine Option.eq_none_iff_forall_ne_some.mpr fun child hFind => ?_
    obtain ⟨inner, rfl⟩ := hGroups child hFind
    obtain ⟨hSound, hFilled⟩ := PropertyTree.sound_of_find? h.sound hFind
    obtain ⟨path, text, hLeaf⟩ := hSound.exists_leafAt hFilled
    obtain ⟨rest, hMem, -⟩ := (h.leafAt_child_iff hFind).mp hLeaf
    have hText := mem_below_iff_get?.mp hMem
    rw [← String.append_assoc, ← String.append_assoc, hNone rest] at hText
    cases hText

/-- Properties that agree behind a group and a point are bound alike there. In a map of what is
made of parts, each name has what is bound below the group and the name, and of the names without
a point those are missing that have no property behind them. -/
theorem bind_compositional (properties : Properties) (group : String) :
    (∀ other : Properties, (∀ key, properties.get? (group ++ "." ++ key) =
        other.get? (group ++ "." ++ key)) →
      ∀ schema, properties.bind group schema = other.bind group schema) ∧
    ∀ inner : Schema, inner.isComposite = true → ∀ value,
      properties.bind group (.map inner) = .ok value →
        ∃ entries, value = .map entries ∧ Keyed.Ordered entries ∧
          (∀ name bound, Keyed.find? name entries = some bound →
            properties.bind (group ++ "." ++ name) inner = .ok bound) ∧
          ∀ name, '.' ∉ name.toList → (Keyed.find? name entries = none ↔
            ∀ rest, properties.get? (group ++ "." ++ name ++ "." ++ rest) = none) := by
  constructor
  · intro other hSame schema
    rw [bind, bind, below_congr hSame]
  · intro inner hComposite value hBind
    obtain ⟨children, hHolds, hValue⟩ := bind_ok_inv hBind
    obtain ⟨entries, rfl, hEntries⟩ := Schema.bind_map_inv hValue
    refine ⟨entries, rfl, Schema.ordered_of_binds hEntries hHolds.ordered, ?_, ?_⟩
    · intro name bound hFind
      obtain ⟨child, hChild, hBound⟩ := Schema.child_of_find? hEntries hFind
      obtain ⟨below, rfl⟩ := Schema.group_of_bind hComposite hBound
      rw [bind_of_holds (holds_child hHolds hChild), hBound]
      rfl
    · intro name hName
      have hGroups : ∀ child, Keyed.find? name children = some child →
          ∃ inner, child = .group inner := by
        intro child hChild
        obtain ⟨bound, -, hBound⟩ := Schema.find?_of_child hEntries hChild
        exact Schema.group_of_bind hComposite hBound
      rw [Schema.find?_eq_none_iff hEntries, find?_eq_none_iff hHolds hGroups hName]

def plugin : Schema :=
  .record "Plugin" true [.plain "port" (.integer ⟨false, 16, by decide⟩)]

/-- Two plugins below `p`, and a property at `p` itself. -/
def plugins : Properties :=
  ofPairs [("p", "x"), ("p.a.port", "1"), ("p.b.port", "2")]

theorem bind_compositional_plugins :
    plugin.isComposite = true ∧
    plugins.bind "p" (.map plugin) = .ok (.map
      [("a", .record [("port", .integer 1)]), ("b", .record [("port", .integer 2)])]) ∧
    plugins.bind "p.a" plugin = .ok (.record [("port", .integer 1)]) ∧
    (plugins.set "p" "y").bind "p" (.map plugin) = plugins.bind "p" (.map plugin) := by
  have hMap : plugins.bind "p" (.map plugin) = .ok (.map
      [("a", .record [("port", .integer 1)]), ("b", .record [("port", .integer 2)])]) := rfl
  obtain ⟨hLocal, hParts⟩ := bind_compositional plugins "p"
  obtain ⟨entries, hEntries, -, hNames, -⟩ := hParts plugin rfl _ hMap
  cases hEntries
  refine ⟨rfl, hMap, hNames "a" _ rfl, (hLocal _ (fun key => ?_) _).symm⟩
  have hKey : "p" ++ "." ++ key ≠ "p" := by
    intro hSame
    have hChars := congrArg String.toList hSame
    simp at hChars
  rw [get?_set, if_neg hKey]

end Properties

end Startup
