import Startup.Property.Document

/-!
# Leaves of a document

A leaf is a scalar that is not null, and a path of member names and item indexes leads to it. The
leaves that are flattened to properties are exactly these: nulls and empty containers leave none.
-/

namespace Startup.Json

/-- The text of a scalar that is not null. -/
def scalar? : Json → Option String
  | null => none
  | bool value => some (Json.bool value).print
  | integer value => some (Json.integer value).print
  | double value => some (Json.double value).print
  | text value => some value
  | list _ => none
  | object _ => none

inductive HasLeaf : Json → List Step → String → Prop
  | scalar {value : Json} {leaf : String} (hScalar : value.scalar? = some leaf) :
      HasLeaf value [] leaf
  | item {items : List Json} {index : Nat} {value : Json} {path : List Step} {leaf : String}
      (hItem : items[index]? = some value) (hLeaf : HasLeaf value path leaf) :
      HasLeaf (.list items) (.item index :: path) leaf
  | member {members : List (String × Json)} {name : String} {value : Json} {path : List Step}
      {leaf : String} (hMember : (name, value) ∈ members) (hLeaf : HasLeaf value path leaf) :
      HasLeaf (.object members) (.member name :: path) leaf

theorem hasLeaf_list_iff {items : List Json} {path : List Step} {leaf : String} :
    HasLeaf (.list items) path leaf ↔ ∃ index value rest, items[index]? = some value ∧
      path = .item index :: rest ∧ HasLeaf value rest leaf := by
  constructor
  · rintro (⟨⟨⟩⟩ | ⟨hItem, hLeaf⟩)
    exact ⟨_, _, _, hItem, rfl, hLeaf⟩
  · rintro ⟨index, value, rest, hItem, rfl, hLeaf⟩
    exact .item hItem hLeaf

theorem hasLeaf_object_iff {members : List (String × Json)} {path : List Step} {leaf : String} :
    HasLeaf (.object members) path leaf ↔ ∃ name value rest, (name, value) ∈ members ∧
      path = .member name :: rest ∧ HasLeaf value rest leaf := by
  constructor
  · rintro (⟨⟨⟩⟩ | _ | ⟨hMember, hLeaf⟩)
    exact ⟨_, _, _, hMember, rfl, hLeaf⟩
  · rintro ⟨name, value, rest, hMember, rfl, hLeaf⟩
    exact .member hMember hLeaf

theorem mem_leaves_of_scalar {value : Json} {shown : String} (hScalar : value.scalar? = some shown)
    {path : List Step} {leaf : String} :
    (path, leaf) ∈ value.leaves ↔ HasLeaf value path leaf := by
  have hLeaves : value.leaves = [([], shown)] := by
    cases value <;> cases hScalar <;> rfl
  rw [hLeaves, List.mem_singleton, Prod.mk.injEq]
  constructor
  · rintro ⟨rfl, rfl⟩
    exact .scalar hScalar
  · intro hLeaf
    cases hLeaf with
    | scalar h => exact ⟨rfl, Option.some.inj (h.symm.trans hScalar)⟩
    | item => cases hScalar
    | member => cases hScalar

mutual

theorem mem_leaves_iff : ∀ (value : Json) {path : List Step} {leaf : String},
    (path, leaf) ∈ value.leaves ↔ HasLeaf value path leaf
  | .null, path, leaf => by
    constructor
    · exact nofun
    · rintro (⟨⟨⟩⟩ | _ | _)
  | .text _, _, _ => mem_leaves_of_scalar rfl
  | .bool _, _, _ => mem_leaves_of_scalar rfl
  | .integer _, _, _ => mem_leaves_of_scalar rfl
  | .double _, _, _ => mem_leaves_of_scalar rfl
  | .list items, path, leaf => by
    rw [leaves, mem_itemLeaves_iff items, hasLeaf_list_iff]
    simp only [Nat.zero_add]
  | .object members, path, leaf => by
    rw [leaves, mem_memberLeaves_iff members, hasLeaf_object_iff]

theorem mem_itemLeaves_iff : ∀ (items : List Json) {first : Nat} {path : List Step}
    {leaf : String}, (path, leaf) ∈ itemLeaves first items ↔
      ∃ index value rest, items[index]? = some value ∧ path = .item (first + index) :: rest ∧
        HasLeaf value rest leaf
  | [], first, path, leaf => by simp [itemLeaves]
  | item :: items, first, path, leaf => by
    rw [itemLeaves, List.mem_append, List.mem_map, mem_itemLeaves_iff items]
    constructor
    · rintro (⟨⟨rest, found⟩, hLeaf, ⟨⟩⟩ | ⟨index, value, rest, hItem, rfl, hLeaf⟩)
      · exact ⟨0, item, rest, rfl, rfl, (mem_leaves_iff item).mp hLeaf⟩
      · refine ⟨index + 1, value, rest, hItem, ?_, hLeaf⟩
        rw [Nat.add_assoc, Nat.add_comm 1]
    · rintro ⟨index, value, rest, hItem, rfl, hLeaf⟩
      cases index with
      | zero =>
        cases hItem
        exact .inl ⟨(rest, leaf), (mem_leaves_iff item).mpr hLeaf, rfl⟩
      | succ index =>
        refine .inr ⟨index, value, rest, hItem, ?_, hLeaf⟩
        rw [Nat.add_assoc, Nat.add_comm 1]

theorem mem_memberLeaves_iff : ∀ (members : List (String × Json)) {path : List Step}
    {leaf : String}, (path, leaf) ∈ memberLeaves members ↔
      ∃ name value rest, (name, value) ∈ members ∧ path = .member name :: rest ∧
        HasLeaf value rest leaf
  | [], path, leaf => by simp [memberLeaves]
  | (name, value) :: members, path, leaf => by
    rw [memberLeaves, List.mem_append, List.mem_map, mem_memberLeaves_iff members]
    constructor
    · rintro (⟨⟨rest, found⟩, hLeaf, ⟨⟩⟩ | ⟨other, inner, rest, hMember, rfl, hLeaf⟩)
      · exact ⟨name, value, rest, List.mem_cons_self, rfl, (mem_leaves_iff value).mp hLeaf⟩
      · exact ⟨other, inner, rest, List.mem_cons_of_mem _ hMember, rfl, hLeaf⟩
    · rintro ⟨other, inner, rest, hMember, rfl, hLeaf⟩
      rcases List.mem_cons.mp hMember with ⟨⟨⟩⟩ | hMember
      · exact .inl ⟨(rest, leaf), (mem_leaves_iff value).mpr hLeaf, rfl⟩
      · exact .inr ⟨other, inner, rest, hMember, rfl, hLeaf⟩

end

/-- A leaf below a member becomes a property: its key is the member's name and then the path. -/
def LeadsTo (members : List (String × Json)) (key leaf : String) : Prop :=
  ∃ name value path, (name, value) ∈ members ∧ HasLeaf value path leaf ∧ Step.key name path = key

theorem mem_flatten_iff {members : List (String × Json)} {key leaf : String} :
    (key, leaf) ∈ flatten members ↔ LeadsTo members key leaf := by
  induction members with
  | nil => simp [flatten, LeadsTo]
  | cons first members ih =>
    obtain ⟨name, value⟩ := first
    rw [flatten, List.mem_append, List.mem_map, ih]
    constructor
    · rintro (⟨⟨path, found⟩, hLeaf, ⟨⟩⟩ | ⟨other, inner, path, hMember, hLeaf, hKey⟩)
      · exact ⟨name, value, path, List.mem_cons_self, (mem_leaves_iff value).mp hLeaf, rfl⟩
      · exact ⟨other, inner, path, List.mem_cons_of_mem _ hMember, hLeaf, hKey⟩
    · rintro ⟨other, inner, path, hMember, hLeaf, rfl⟩
      rcases List.mem_cons.mp hMember with ⟨⟨⟩⟩ | hMember
      · exact .inl ⟨(path, leaf), (mem_leaves_iff value).mpr hLeaf, rfl⟩
      · exact .inr ⟨other, inner, path, hMember, hLeaf, rfl⟩

end Startup.Json
