import Startup.Proofs.Json.Spelling
import Startup.Proofs.Property.Clash
import Startup.Proofs.Property.NormalForm

/-!
# Documents there and back

A document that is loaded below a group and bound there, untyped, comes back in its normal form. For
that, names must not be cut apart, and the text of every scalar must read as this scalar again.
-/

namespace Startup

namespace Json

def isTyped : Json → Bool
  | null => false
  | bool _ => true
  | integer _ => true
  | double _ => true
  | text _ => false
  | list _ => false
  | object _ => false

/-- At every level, numbers are integers of 64 bits and no text reads as a boolean or a number. -/
inductive Legible : Json → Prop where
  | null : Legible null
  | bool (value : Bool) : Legible (bool value)
  | integer {value : Int} (fits : Fits value) : Legible (integer value)
  | text {value : String} (plain : ∀ found, parse value = .ok found → found.isTyped = false) :
      Legible (text value)
  | list {items : List Json} (each : ∀ item ∈ items, Legible item) : Legible (list items)
  | object {members : List (String × Json)} (each : ∀ member ∈ members, Legible member.2) :
      Legible (object members)

theorem untyped_text {value : String}
    (hPlain : ∀ found, parse value = .ok found → found.isTyped = false) :
    untyped value = .text value := by
  unfold untyped
  split
  · rename_i hParse
    cases hPlain _ hParse
  · rename_i hParse
    cases hPlain _ hParse
  · rename_i hParse
    cases hPlain _ hParse
  · rfl

theorem Legible.untyped {value : Json} (h : Legible value) {shown : String}
    (hScalar : value.scalar? = some shown) : untyped shown = value := by
  cases h with
  | null => cases hScalar
  | bool b =>
    cases hScalar
    exact untyped_eq_bool_iff.mpr (shows_print (.bool b))
  | integer fits =>
    cases hScalar
    exact untyped_eq_integer_iff.mpr ⟨fits, shows_print (.integer _)⟩
  | text plain =>
    cases hScalar
    exact untyped_text plain
  | list each => cases hScalar
  | object each => cases hScalar

/-- A document of objects and scalars, with something in every object below the root. -/
inductive Tidy : Json → Prop where
  | scalar {value : Json} {shown : String} (hScalar : value.scalar? = some shown)
      (hRead : Json.untyped shown = value) : Tidy value
  | object {members : List (String × Json)} (names : Keyed.Ordered members)
      (each : ∀ member ∈ members, Tidy member.2)
      (filled : ∀ member ∈ members, member.2 ≠ object []) : Tidy (object members)

theorem documents_eq_map (children : List (String × PropertyTree)) :
    PropertyTree.documents children = children.map fun child => (child.1, child.2.document) := by
  induction children with
  | nil => rfl
  | cons child children ih => rw [PropertyTree.documents, ih, List.map_cons]

theorem Tidy.document_plant {value : Json} (h : Tidy value) : value.plant.document = value := by
  induction h with
  | scalar hScalar hRead => rw [plant_of_scalar hScalar, PropertyTree.document, hRead]
  | @object members names each filled ih =>
    rw [plant, PropertyTree.document, documents_eq_map, plantMembers_eq_map, List.map_map]
    have hSame : members.map (fun member => (member.1, member.2.plant.document)) =
        members.map id := by
      apply List.map_congr_left
      intro member hMember
      rw [ih member hMember, id]
    rw [List.map_id] at hSame
    exact congrArg Json.object hSame

theorem Tidy.sound_plant {value : Json} (h : Tidy value) : value.plant.Sound := by
  induction h with
  | @scalar value shown hScalar hRead =>
    rw [plant_of_scalar hScalar]
    exact .leaf shown
  | @object members names each filled ih =>
    rw [plant, plantMembers_eq_map]
    refine .group (names.map plant) ?_ ?_
    · rintro _ hChild
      obtain ⟨member, hMember, rfl⟩ := List.mem_map.mp hChild
      exact ih member hMember
    · rintro _ hChild hEmpty
      obtain ⟨member, hMember, rfl⟩ := List.mem_map.mp hChild
      have hDocument := (each member hMember).document_plant
      rw [show member.2.plant = .empty from hEmpty] at hDocument
      exact filled member hMember hDocument.symm

theorem tidy_ofPairs {pairs : List (String × Json)}
    (h : ∀ entry ∈ pairs, Tidy entry.2 ∧ entry.2 ≠ object []) :
    Tidy (object (Keyed.ofPairs pairs)) :=
  .object (Keyed.ordered_ofPairs pairs)
    (fun entry hEntry => (h entry (Keyed.mem_of_mem_ofPairs hEntry)).1)
    (fun entry hEntry => (h entry (Keyed.mem_of_mem_ofPairs hEntry)).2)

mutual

theorem tidy_spread : ∀ (value : Json), Legible value → ∀ {name : String},
    ∀ entry ∈ spread name value, Tidy entry.2 ∧ entry.2 ≠ object []
  | .null, _, _, _, hEntry => by cases hEntry
  | .bool _, h, _, _, hEntry => by
    cases List.mem_singleton.mp hEntry
    exact ⟨.scalar rfl (h.untyped rfl), nofun⟩
  | .integer _, h, _, _, hEntry => by
    cases List.mem_singleton.mp hEntry
    exact ⟨.scalar rfl (h.untyped rfl), nofun⟩
  | .double _, h, _, _, hEntry => by cases h
  | .text _, h, _, _, hEntry => by
    cases List.mem_singleton.mp hEntry
    exact ⟨.scalar rfl (h.untyped rfl), nofun⟩
  | .list items, .list hItems, _, entry, hEntry => tidy_spreadItems items hItems entry hEntry
  | .object members, .object hMembers, _, entry, hEntry => by
    rw [spread_object] at hEntry
    split at hEntry
    · cases hEntry
    · rename_i hFilled
      cases List.mem_singleton.mp hEntry
      exact ⟨tidy_ofPairs (tidy_spreadMembers members hMembers),
        fun hEmpty => Keyed.ofPairs_ne_nil hFilled (object.inj hEmpty)⟩

theorem tidy_spreadItems : ∀ (items : List Json), (∀ item ∈ items, Legible item) →
    ∀ {name : String} {first : Nat}, ∀ entry ∈ spreadItems name first items,
      Tidy entry.2 ∧ entry.2 ≠ object []
  | [], _, _, _, _, hEntry => by cases hEntry
  | item :: items, h, _, _, entry, hEntry => by
    obtain ⟨hItem, hRest⟩ := List.forall_mem_cons.mp h
    rcases List.mem_append.mp hEntry with hEntry | hEntry
    · exact tidy_spread item hItem entry hEntry
    · exact tidy_spreadItems items hRest entry hEntry

theorem tidy_spreadMembers : ∀ (members : List (String × Json)),
    (∀ member ∈ members, Legible member.2) →
      ∀ entry ∈ spreadMembers members, Tidy entry.2 ∧ entry.2 ≠ object []
  | [], _, _, hEntry => by cases hEntry
  | (name, value) :: members, h, entry, hEntry => by
    obtain ⟨hValue, hRest⟩ := List.forall_mem_cons.mp h
    rcases List.mem_append.mp hEntry with hEntry | hEntry
    · exact tidy_spread value hValue entry hEntry
    · exact tidy_spreadMembers members hRest entry hEntry

end

theorem tidy_normal {members : List (String × Json)} (h : Legible (.object members)) :
    Tidy (normal members) := by
  cases h with
  | object each => exact tidy_ofPairs (tidy_spreadMembers members each)

variable {members : List (String × Json)}

theorem key_member (group name : String) (path : List Step) :
    Step.key group (.member name :: path) = group ++ "." ++ Step.key name path := by
  have hStep : Step.key group (.member name :: path) = Step.key (group ++ "." ++ name) path := by
    rw [String.append_assoc]
    rfl
  rw [hStep, Step.key_append]

theorem leadsTo_of_mem_flatten_group {group key leaf : String}
    (h : (key, leaf) ∈ flatten [(group, .object members)]) :
    ∃ rest, key = group ++ "." ++ rest ∧ LeadsTo members rest leaf := by
  obtain ⟨name, value, path, hMember, hLeaf, rfl⟩ := mem_flatten_iff.mp h
  cases List.mem_singleton.mp hMember
  obtain ⟨next, inner, rest, hInner, rfl, hBelow⟩ := hasLeaf_object_iff.mp hLeaf
  exact ⟨Step.key next rest, key_member group next rest, next, inner, rest, hInner, hBelow, rfl⟩

/-- The keys of an object below a group are those of its leaves, behind the group and a point. -/
theorem mem_flatten_group_iff {group key leaf : String} :
    (group ++ "." ++ key, leaf) ∈ flatten [(group, .object members)] ↔
      LeadsTo members key leaf := by
  constructor
  · intro h
    obtain ⟨rest, hKey, hLeads⟩ := leadsTo_of_mem_flatten_group h
    rwa [String.append_right_inj _ |>.mp hKey]
  · rintro ⟨next, inner, rest, hInner, hBelow, rfl⟩
    exact mem_flatten_iff.mpr ⟨group, .object members, .member next :: rest,
      List.mem_singleton_self _, .member hInner hBelow, key_member group next rest⟩

theorem leafAt_normal_iff_leadsTo (hOrdered : Ordered (.object members))
    (hAddressable : Addressable (.object members)) {segments : List String} {leaf : String} :
    (normal members).plant.leafAt segments = some leaf ↔
      ∃ key, LeadsTo members key leaf ∧ Text.splitOn '.' key = segments := by
  rw [leafAt_normal_iff hOrdered hAddressable]
  constructor
  · rintro ⟨name, value, path, hMember, hLeaf, rfl⟩
    refine ⟨Step.key name path, ⟨name, value, path, hMember, hLeaf, rfl⟩, ?_⟩
    cases hAddressable with
    | object names each => exact hLeaf.splitOn_key (each _ hMember) (names _ hMember).1
  · rintro ⟨_, ⟨name, value, path, hMember, hLeaf, rfl⟩, rfl⟩
    refine ⟨name, value, path, hMember, hLeaf, ?_⟩
    cases hAddressable with
    | object names each => exact (hLeaf.splitOn_key (each _ hMember) (names _ hMember).1).symm

/-- No key leads to two leaves. -/
theorem single_flatten_group (hOrdered : Ordered (.object members))
    (hAddressable : Addressable (.object members)) (group : String) :
    Keyed.Single (flatten [(group, .object members)]) := by
  intro key a b hA hB
  obtain ⟨rest, rfl, hLeadsA⟩ := leadsTo_of_mem_flatten_group hA
  obtain ⟨other, hOther, hLeadsB⟩ := leadsTo_of_mem_flatten_group hB
  cases String.append_right_inj _ |>.mp hOther
  have hLeafA := (leafAt_normal_iff_leadsTo hOrdered hAddressable).mpr ⟨rest, hLeadsA, rfl⟩
  have hLeafB := (leafAt_normal_iff_leadsTo hOrdered hAddressable).mpr ⟨rest, hLeadsB, rfl⟩
  exact Option.some.inj (hLeafA.symm.trans hLeafB)

end Json

namespace Properties

open Json

variable {members : List (String × Json)} {group : String}

theorem below_loaded_iff (hOrdered : Json.Ordered (.object members))
    (hAddressable : Json.Addressable (.object members)) {key text : String} :
    (key, text) ∈ (empty.setAll (flatten [(group, .object members)])).below group ↔
      LeadsTo members key text := by
  have hSingle := single_flatten_group hOrdered hAddressable group
  rw [mem_below_iff, ← mem_flatten_group_iff, ← hSingle.find?_ofPairs_eq_some_iff,
    (Keyed.ordered_ofPairs _).find?_eq_some_iff]
  rfl

/-- An object that is loaded below a group comes back from there in its normal form, if no name has
a point or an opening bracket, all numbers are integers of 64 bits, and no text reads as a boolean
or a number. -/
theorem bind_loaded {source text : String}
    (hParse : Json.parse text = .ok (.object [(group, .object members)]))
    (hAddressable : Json.Addressable (.object members))
    (hLegible : Json.Legible (.object members)) :
    ∃ properties, empty.load source text = .ok properties ∧
      properties.bind group .untyped = .ok (.document (Json.normal members)) := by
  have hOrdered : Json.Ordered (.object members) := by
    cases Json.ordered_of_parse hParse with
    | object names each => exact each _ (List.mem_singleton_self _)
  have hTidy := Json.tidy_normal hLegible
  have hTree : PropertyTree.ofEntries
      ((empty.setAll (flatten [(group, .object members)])).below group) =
        .ok (Json.normal members).plant := by
    apply PropertyTree.ofEntries_eq hTidy.sound_plant
    intro path leaf
    simp only [below_loaded_iff hOrdered hAddressable]
    exact leafAt_normal_iff_leadsTo hOrdered hAddressable
  refine ⟨empty.setAll (flatten [(group, .object members)]), ?_, ?_⟩
  · rw [load, assignments, hParse]
    rfl
  · rw [bind, hTree]
    change Except.ok (Bound.document (Json.normal members).plant.document) = _
    rw [hTidy.document_plant]

/-- A list with a null in it, an object without members and an empty name. -/
def nested : List (String × Json) :=
  [("", .bool true), ("a", .list [.text "x", .null, .object [("b", .bool false)]]),
    ("c", .object [])]

def nestedText : String :=
  "\x7b\"p\":\x7b\"a\":[\"x\",null,\x7b\"b\":false\x7d],\"\":true,\"c\":\x7b\x7d\x7d\x7d"

theorem bind_loaded_nested :
    ∃ properties, empty.load "nested" nestedText = .ok properties ∧
      properties.bind "p" .untyped = .ok (.document (.object
        [("", .bool true), ("a[0]", .text "x"), ("a[2]", .object [("b", .bool false)])])) := by
  have hChars : Json.parseChars nestedText.toList = .ok (.object [("p", .object nested)]) := by
    cbv
  have hAddressable : Json.Addressable (.object nested) := by
    refine .object (by decide) ?_
    simp only [nested, List.forall_mem_cons]
    refine ⟨.bool true, .list ?_, .object (by decide) (by simp), by simp⟩
    simp only [List.forall_mem_cons]
    exact ⟨.text "x", .null, .object (by decide) (by simp [Json.Addressable.bool]), by simp⟩
  have hPlain : Json.parseChars "x".toList = .error (.next .valueExpected ['x']) := by
    cbv
  have hLegible : Json.Legible (.object nested) := by
    refine .object ?_
    simp only [nested, List.forall_mem_cons]
    refine ⟨.bool true, .list ?_, .object (by simp), by simp⟩
    simp only [List.forall_mem_cons]
    refine ⟨.text ?_, .null, .object (by simp [Json.Legible.bool]), by simp⟩
    intro found hFound
    rw [Json.parse, hPlain] at hFound
    cases hFound
  have hNormal : Json.normal nested = .object
      [("", .bool true), ("a[0]", .text "x"), ("a[2]", .object [("b", .bool false)])] := rfl
  rw [← hNormal]
  exact bind_loaded (congrArg (Except.mapError _) hChars) hAddressable hLegible

end Properties

end Startup
