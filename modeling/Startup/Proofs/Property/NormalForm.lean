import Startup.Binding.Decode
import Startup.Proofs.Property.Keys
import Startup.Proofs.Property.Tree

/-!
# Normal forms of documents

In a normal form there are no lists: every item is a member of its own beside the others, under the
name of its list and its index. Nulls, and lists and objects that nothing is left of, are gone. The
normal form of a document is a tree of texts, and has the leaves that the document has.
-/

namespace Startup.Json

mutual

/-- The members that stand for a value under a name. -/
def spread (name : String) : Json → List (String × Json)
  | null => []
  | bool value => [(name, .bool value)]
  | integer value => [(name, .integer value)]
  | double value => [(name, .double value)]
  | text value => [(name, .text value)]
  | list items => spreadItems name 0 items
  | object members =>
    match spreadMembers members with
    | [] => []
    | pairs => [(name, .object (Keyed.ofPairs pairs))]

def spreadItems (name : String) (index : Nat) : List Json → List (String × Json)
  | [] => []
  | item :: items =>
    spread (name ++ (Step.item index).text) item ++ spreadItems name (index + 1) items

def spreadMembers : List (String × Json) → List (String × Json)
  | [] => []
  | (name, value) :: members => spread name value ++ spreadMembers members

end

def normal (members : List (String × Json)) : Json :=
  .object (Keyed.ofPairs (spreadMembers members))

mutual

/-- The tree of the texts of a document without lists. -/
def plant : Json → PropertyTree
  | null => .leaf ""
  | bool value => .leaf (Json.bool value).print
  | integer value => .leaf (Json.integer value).print
  | double value => .leaf (Json.double value).print
  | text value => .leaf value
  | list _ => .leaf ""
  | object members => .group (plantMembers members)

def plantMembers : List (String × Json) → List (String × PropertyTree)
  | [] => []
  | (name, value) :: members => (name, value.plant) :: plantMembers members

end

theorem plantMembers_eq_map (members : List (String × Json)) :
    plantMembers members = members.map fun member => (member.1, member.2.plant) := by
  induction members with
  | nil => rfl
  | cons member members ih => rw [plantMembers, ih, List.map_cons]

theorem plant_of_scalar {value : Json} {shown : String} (h : value.scalar? = some shown) :
    value.plant = .leaf shown := by
  cases value <;> cases h <;> rfl

theorem spread_of_scalar {value : Json} {shown : String} (h : value.scalar? = some shown)
    (name : String) : spread name value = [(name, value)] := by
  cases value <;> cases h <;> rfl

theorem spread_object (name : String) (members : List (String × Json)) :
    spread name (.object members) =
      if spreadMembers members = [] then [] else [(name, normal members)] := by
  rw [spread, normal]
  cases spreadMembers members <;> simp

theorem leafAt_plant_object_cons_eq_some_iff {members : List (String × Json)} {segment leaf : String}
    {path : List String} :
    (Json.object members).plant.leafAt (segment :: path) = some leaf ↔
      ∃ value, Keyed.find? segment members = some value ∧
        value.plant.leafAt path = some leaf := by
  rw [plant, plantMembers_eq_map, PropertyTree.leafAt_group_cons, Keyed.find?_map,
    Option.bind_eq_some_iff]
  simp only [Option.map_eq_some_iff]
  constructor
  · rintro ⟨_, ⟨value, hFind, rfl⟩, hLeaf⟩
    exact ⟨value, hFind, hLeaf⟩
  · rintro ⟨value, hFind, hLeaf⟩
    exact ⟨_, ⟨value, hFind, rfl⟩, hLeaf⟩

/-! ## Names -/

/-- A name is behind another one, with nothing or an index in between. -/
def Extends (name key : String) : Prop :=
  ∃ tail, key.toList = name.toList ++ tail ∧ (tail = [] ∨ tail.head? = some '[')

theorem Extends.refl (name : String) : Extends name name :=
  ⟨[], (List.append_nil _).symm, .inl rfl⟩

theorem Extends.of_item {name key : String} {index : Nat}
    (h : Extends (name ++ (Step.item index).text) key) : Extends name key := by
  obtain ⟨tail, hKey, -⟩ := h
  refine ⟨(Step.item index).text.toList ++ tail, ?_, .inr ?_⟩
  · rw [hKey, String.toList_append, List.append_assoc]
  · rw [Step.toList_text_item]
    rfl

/-- The name that a key extends, if it has no opening bracket. -/
theorem Extends.name_eq {a b key : String} (hA : Extends a key) (hB : Extends b key)
    (hFreeA : '[' ∉ a.toList) (hFreeB : '[' ∉ b.toList) : a = b := by
  have hTake {name : String} (h : Extends name key) (hFree : '[' ∉ name.toList) :
      key.toList.takeWhile (· != '[') = name.toList := by
    obtain ⟨tail, hKey, hTail⟩ := h
    have hAll : ∀ c ∈ name.toList, (c != '[') = true := by
      intro c hc
      rw [bne_iff_ne]
      rintro rfl
      exact hFree hc
    rw [hKey, List.takeWhile_append_of_pos hAll]
    cases tail with
    | nil => simp
    | cons c tail =>
      rcases hTail with hTail | hTail
      · cases hTail
      · cases hTail
        simp
  rw [← String.toList_inj, ← hTake hA hFreeA, hTake hB hFreeB]

theorem Extends.index_eq {name key : String} {i j : Nat}
    (hI : Extends (name ++ (Step.item i).text) key)
    (hJ : Extends (name ++ (Step.item j).text) key) : i = j := by
  have hSpan {index : Nat} (h : Extends (name ++ (Step.item index).text) key) :
      (Text.spanDigits (key.toList.drop (name.toList.length + 1))).1 =
        Text.decimalDigits index := by
    obtain ⟨tail, hKey, -⟩ := h
    have hDrop : key.toList.drop (name.toList.length + 1) =
        Text.decimalDigits index ++ ']' :: tail := by
      rw [hKey, String.toList_append, Step.toList_text_item, List.append_assoc,
        List.drop_append]
      simp
    rw [hDrop, Text.spanDigits_append_cons (fun _ => Text.isDigit_of_mem_decimalDigits) rfl]
  exact Text.decimalDigits_injective ((hSpan hI).symm.trans (hSpan hJ))

mutual

theorem extends_of_mem_spread : ∀ (value : Json) {name key : String} {inner : Json},
    (key, inner) ∈ spread name value → Extends name key
  | .null, _, _, _, h => by cases h
  | .bool _, _, _, _, h => by cases List.mem_singleton.mp h; exact .refl _
  | .integer _, _, _, _, h => by cases List.mem_singleton.mp h; exact .refl _
  | .double _, _, _, _, h => by cases List.mem_singleton.mp h; exact .refl _
  | .text _, _, _, _, h => by cases List.mem_singleton.mp h; exact .refl _
  | .list items, _, _, _, h => by
    obtain ⟨index, -, hExtends⟩ := extends_of_mem_spreadItems items h
    exact hExtends.of_item
  | .object members, _, _, _, h => by
    rw [spread_object] at h
    split at h
    · cases h
    · cases List.mem_singleton.mp h
      exact .refl _

theorem extends_of_mem_spreadItems : ∀ (items : List Json) {name key : String} {first : Nat}
    {inner : Json}, (key, inner) ∈ spreadItems name first items →
      ∃ index, first ≤ index ∧ Extends (name ++ (Step.item index).text) key
  | [], _, _, _, _, h => by cases h
  | item :: items, name, _, first, _, h => by
    rw [spreadItems] at h
    rcases List.mem_append.mp h with h | h
    · exact ⟨first, Nat.le_refl first, extends_of_mem_spread item h⟩
    · obtain ⟨index, hIndex, hExtends⟩ := extends_of_mem_spreadItems items h
      exact ⟨index, Nat.le_of_succ_le hIndex, hExtends⟩

end

theorem extends_of_mem_spreadMembers {members : List (String × Json)} {key : String} {inner : Json}
    (h : (key, inner) ∈ spreadMembers members) : ∃ member ∈ members, Extends member.1 key := by
  induction members with
  | nil => cases h
  | cons member members ih =>
    rw [spreadMembers] at h
    rcases List.mem_append.mp h with h | h
    · exact ⟨member, List.mem_cons_self, extends_of_mem_spread member.2 h⟩
    · obtain ⟨other, hOther, hExtends⟩ := ih h
      exact ⟨other, List.mem_cons_of_mem _ hOther, hExtends⟩

theorem single_append {α : Type} {a b : List (String × α)} (hA : Keyed.Single a)
    (hB : Keyed.Single b) (hApart : ∀ key x y, (key, x) ∈ a → (key, y) ∉ b) :
    Keyed.Single (a ++ b) := by
  intro key x y hX hY
  rcases List.mem_append.mp hX with hX | hX
  · rcases List.mem_append.mp hY with hY | hY
    · exact hA key x y hX hY
    · exact absurd hY (hApart key x y hX)
  · rcases List.mem_append.mp hY with hY | hY
    · exact absurd hX (hApart key y x hY)
    · exact hB key x y hX hY

theorem single_singleton {α : Type} (entry : String × α) : Keyed.Single [entry] := by
  intro key x y hX hY
  cases List.mem_singleton.mp hX
  cases List.mem_singleton.mp hY
  rfl

mutual

theorem single_spread : ∀ (value : Json) (name : String), Keyed.Single (spread name value)
  | .null, _ => nofun
  | .bool _, _ => single_singleton _
  | .integer _, _ => single_singleton _
  | .double _, _ => single_singleton _
  | .text _, _ => single_singleton _
  | .list items, name => single_spreadItems items name 0
  | .object members, name => by
    rw [spread_object]
    split
    · exact nofun
    · exact single_singleton _

theorem single_spreadItems : ∀ (items : List Json) (name : String) (first : Nat),
    Keyed.Single (spreadItems name first items)
  | [], _, _ => nofun
  | item :: items, name, first => by
    rw [spreadItems]
    apply single_append (single_spread item _) (single_spreadItems items name (first + 1))
    intro key x y hX hY
    obtain ⟨index, hIndex, hExtends⟩ := extends_of_mem_spreadItems items hY
    have hSame := (extends_of_mem_spread item hX).index_eq hExtends
    omega

end

theorem single_spreadMembers {members : List (String × Json)} (hNames : Keyed.Ordered members)
    (hFree : ∀ member ∈ members, '[' ∉ member.1.toList) :
    Keyed.Single (spreadMembers members) := by
  induction members with
  | nil => exact nofun
  | cons member members ih =>
    obtain ⟨name, value⟩ := member
    obtain ⟨hHead, hTail⟩ := List.pairwise_cons.mp hNames
    obtain ⟨hName, hRest⟩ := List.forall_mem_cons.mp hFree
    rw [spreadMembers]
    apply single_append (single_spread value name) (ih hTail hRest)
    intro key x y hX hY
    obtain ⟨other, hOther, hExtends⟩ := extends_of_mem_spreadMembers hY
    have hSame := (extends_of_mem_spread value hX).name_eq hExtends hName (hRest other hOther)
    exact String.lt_irrefl name (hSame ▸ hHead other hOther)

/-! ## Leaves -/

/-- Where members are found by their names, they may be counted in any order. -/
theorem leafAt_plant_ofPairs_cons_eq_some_iff {pairs : List (String × Json)}
    (hSingle : Keyed.Single pairs) {segment leaf : String} {path : List String} :
    (Json.object (Keyed.ofPairs pairs)).plant.leafAt (segment :: path) = some leaf ↔
      ∃ value, (segment, value) ∈ pairs ∧ value.plant.leafAt path = some leaf := by
  rw [leafAt_plant_object_cons_eq_some_iff]
  simp only [hSingle.find?_ofPairs_eq_some_iff]

/-- One of the members that stand for a value has a leaf. -/
def Spreads (pairs : List (String × Json)) (segments : List String) (leaf : String) : Prop :=
  ∃ name value path, (name, value) ∈ pairs ∧ segments = name :: path ∧
    value.plant.leafAt path = some leaf

theorem spreads_append {a b : List (String × Json)} {segments : List String} {leaf : String} :
    Spreads (a ++ b) segments leaf ↔ Spreads a segments leaf ∨ Spreads b segments leaf := by
  constructor
  · rintro ⟨name, value, path, hMem, hSegments, hLeaf⟩
    rcases List.mem_append.mp hMem with hMem | hMem
    · exact .inl ⟨name, value, path, hMem, hSegments, hLeaf⟩
    · exact .inr ⟨name, value, path, hMem, hSegments, hLeaf⟩
  · rintro (⟨name, value, path, hMem, hSegments, hLeaf⟩ | ⟨name, value, path, hMem, hSegments, hLeaf⟩)
    · exact ⟨name, value, path, List.mem_append_left _ hMem, hSegments, hLeaf⟩
    · exact ⟨name, value, path, List.mem_append_right _ hMem, hSegments, hLeaf⟩

theorem leafAt_normal_iff_spreads {members : List (String × Json)}
    (hNames : Keyed.Ordered members) (hFree : ∀ member ∈ members, '[' ∉ member.1.toList)
    {segments : List String} {leaf : String} :
    (normal members).plant.leafAt segments = some leaf ↔
      Spreads (spreadMembers members) segments leaf := by
  cases segments with
  | nil =>
    constructor
    · intro h
      rw [normal, plant, PropertyTree.leafAt_group_nil] at h
      cases h
    · rintro ⟨name, value, path, -, hSegments, -⟩
      cases hSegments
  | cons segment path =>
    rw [normal, leafAt_plant_ofPairs_cons_eq_some_iff (single_spreadMembers hNames hFree)]
    constructor
    · rintro ⟨value, hMem, hLeaf⟩
      exact ⟨segment, value, path, hMem, rfl, hLeaf⟩
    · rintro ⟨name, value, rest, hMem, hSegments, hLeaf⟩
      cases hSegments
      exact ⟨value, hMem, hLeaf⟩

theorem spreads_of_scalar {value : Json} {shown : String} (hScalar : value.scalar? = some shown)
    {name : String} {segments : List String} {leaf : String} :
    Spreads (spread name value) segments leaf ↔
      ∃ path, HasLeaf value path leaf ∧ Step.segments name path = segments := by
  rw [spread_of_scalar hScalar]
  constructor
  · rintro ⟨key, inner, path, hMem, rfl, hLeaf⟩
    cases List.mem_singleton.mp hMem
    rw [plant_of_scalar hScalar] at hLeaf
    cases path with
    | nil =>
      cases hLeaf
      exact ⟨[], .scalar hScalar, rfl⟩
    | cons segment path => simp at hLeaf
  · rintro ⟨path, hLeaf, rfl⟩
    cases hLeaf with
    | scalar h =>
      refine ⟨name, value, [], List.mem_singleton_self _, rfl, ?_⟩
      rw [plant_of_scalar h, PropertyTree.leafAt_leaf_nil]
    | item => cases hScalar
    | member => cases hScalar

theorem spreads_object {name : String} {members : List (String × Json)} {segments : List String}
    {leaf : String} : Spreads (spread name (.object members)) segments leaf ↔
      ∃ path, segments = name :: path ∧ (normal members).plant.leafAt path = some leaf := by
  rw [spread_object]
  constructor
  · rintro ⟨key, value, path, hMem, hSegments, hLeaf⟩
    split at hMem
    · cases hMem
    · cases List.mem_singleton.mp hMem
      exact ⟨path, hSegments, hLeaf⟩
  · rintro ⟨path, hSegments, hLeaf⟩
    have hFilled : spreadMembers members ≠ [] := by
      intro hNone
      have hEmpty : (normal members).plant = .empty := by
        rw [normal, hNone]
        rfl
      rw [hEmpty, PropertyTree.leafAt_empty] at hLeaf
      cases hLeaf
    rw [if_neg hFilled]
    exact ⟨name, normal members, path, List.mem_singleton_self _, hSegments, hLeaf⟩

mutual

theorem spreads_iff : ∀ (value : Json), Ordered value → Addressable value →
    ∀ {name : String} {segments : List String} {leaf : String},
      Spreads (spread name value) segments leaf ↔
        ∃ path, HasLeaf value path leaf ∧ Step.segments name path = segments
  | .null, _, _, _, _, _ => by
    constructor
    · rintro ⟨_, _, _, ⟨⟩, -⟩
    · rintro ⟨_, ⟨⟨⟩⟩ | _ | _, -⟩
  | .bool _, _, _, _, _, _ => spreads_of_scalar rfl
  | .integer _, _, _, _, _, _ => spreads_of_scalar rfl
  | .double _, _, _, _, _, _ => spreads_of_scalar rfl
  | .text _, _, _, _, _, _ => spreads_of_scalar rfl
  | .list items, .list hOrdered, .list hAddressable, name, segments, leaf => by
    rw [spread, spreadsItems_iff items hOrdered hAddressable]
    simp only [Nat.zero_add]
    constructor
    · rintro ⟨index, value, path, hItem, hLeaf, hSegments⟩
      exact ⟨.item index :: path, .item hItem hLeaf, hSegments⟩
    · rintro ⟨path, hLeaf, hSegments⟩
      obtain ⟨index, value, rest, hItem, rfl, hBelow⟩ := hasLeaf_list_iff.mp hLeaf
      exact ⟨index, value, rest, hItem, hBelow, hSegments⟩
  | .object members, .object hNames hOrdered, .object hFree hAddressable, name, segments, leaf => by
    have hMembers (path : List String) : (normal members).plant.leafAt path = some leaf ↔
        ∃ next value rest, (next, value) ∈ members ∧ HasLeaf value rest leaf ∧
          Step.segments next rest = path := by
      rw [leafAt_normal_iff_spreads hNames fun member hMember => (hFree member hMember).2,
        spreadsMembers_iff members hOrdered hAddressable]
    simp only [spreads_object, hMembers]
    constructor
    · rintro ⟨_, rfl, next, value, path, hMember, hLeaf, rfl⟩
      exact ⟨.member next :: path, .member hMember hLeaf, rfl⟩
    · rintro ⟨path, hLeaf, rfl⟩
      obtain ⟨next, value, rest, hMember, rfl, hBelow⟩ := hasLeaf_object_iff.mp hLeaf
      exact ⟨_, rfl, next, value, rest, hMember, hBelow, rfl⟩

theorem spreadsItems_iff : ∀ (items : List Json), (∀ item ∈ items, Ordered item) →
    (∀ item ∈ items, Addressable item) →
      ∀ {name : String} {first : Nat} {segments : List String} {leaf : String},
        Spreads (spreadItems name first items) segments leaf ↔
          ∃ index value path, items[index]? = some value ∧ HasLeaf value path leaf ∧
            Step.segments (name ++ (Step.item (first + index)).text) path = segments
  | [], _, _, _, _, _, _ => by simp [spreadItems, Spreads]
  | item :: items, hOrdered, hAddressable, name, first, segments, leaf => by
    obtain ⟨hOrderedItem, hOrderedRest⟩ := List.forall_mem_cons.mp hOrdered
    obtain ⟨hItem, hRest⟩ := List.forall_mem_cons.mp hAddressable
    rw [spreadItems, spreads_append, spreads_iff item hOrderedItem hItem,
      spreadsItems_iff items hOrderedRest hRest]
    constructor
    · rintro (⟨path, hLeaf, hSegments⟩ | ⟨index, value, path, hItem, hLeaf, hSegments⟩)
      · exact ⟨0, item, path, rfl, hLeaf, hSegments⟩
      · refine ⟨index + 1, value, path, hItem, hLeaf, ?_⟩
        rwa [Nat.add_comm index, ← Nat.add_assoc]
    · rintro ⟨index, value, path, hItem, hLeaf, hSegments⟩
      cases index with
      | zero =>
        cases hItem
        exact .inl ⟨path, hLeaf, hSegments⟩
      | succ index =>
        rw [Nat.add_comm index, ← Nat.add_assoc] at hSegments
        exact .inr ⟨index, value, path, hItem, hLeaf, hSegments⟩

theorem spreadsMembers_iff : ∀ (members : List (String × Json)),
    (∀ member ∈ members, Ordered member.2) → (∀ member ∈ members, Addressable member.2) →
      ∀ {segments : List String} {leaf : String},
        Spreads (spreadMembers members) segments leaf ↔
          ∃ name value path, (name, value) ∈ members ∧ HasLeaf value path leaf ∧
            Step.segments name path = segments
  | [], _, _, _, _ => by simp [spreadMembers, Spreads]
  | (name, value) :: members, hOrdered, hAddressable, segments, leaf => by
    obtain ⟨hOrderedValue, hOrderedRest⟩ := List.forall_mem_cons.mp hOrdered
    obtain ⟨hValue, hRest⟩ := List.forall_mem_cons.mp hAddressable
    rw [spreadMembers, spreads_append, spreads_iff value hOrderedValue hValue,
      spreadsMembers_iff members hOrderedRest hRest]
    constructor
    · rintro (⟨path, hLeaf, hSegments⟩ | ⟨other, inner, path, hMember, hLeaf, hSegments⟩)
      · exact ⟨name, value, path, List.mem_cons_self, hLeaf, hSegments⟩
      · exact ⟨other, inner, path, List.mem_cons_of_mem _ hMember, hLeaf, hSegments⟩
    · rintro ⟨other, inner, path, hMember, hLeaf, hSegments⟩
      rcases List.mem_cons.mp hMember with ⟨⟨⟩⟩ | hMember
      · exact .inl ⟨path, hLeaf, hSegments⟩
      · exact .inr ⟨other, inner, path, hMember, hLeaf, hSegments⟩

end

/-- The leaves of a normal form are those of its document, at the segments of their paths. -/
theorem leafAt_normal_iff {members : List (String × Json)} (hOrdered : Ordered (.object members))
    (hAddressable : Addressable (.object members)) {segments : List String} {leaf : String} :
    (normal members).plant.leafAt segments = some leaf ↔
      ∃ name value path, (name, value) ∈ members ∧ HasLeaf value path leaf ∧
        Step.segments name path = segments := by
  cases hOrdered with
  | object hNames hEach =>
    cases hAddressable with
    | object hFree hMembers =>
      rw [leafAt_normal_iff_spreads hNames fun member hMember => (hFree member hMember).2,
        spreadsMembers_iff members hEach hMembers]

end Startup.Json
