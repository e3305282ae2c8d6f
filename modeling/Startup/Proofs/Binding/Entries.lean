import Mathlib.Data.List.Forall2
import Startup.Binding.Decode

/-!
# Entries bound one by one

The entries of a group are visited in their order. If none has a problem, each has its value, and a
map has them under the same names; otherwise the problem is that of the first entry with one.
-/

namespace Startup

section Visits

variable {α β ε : Type} {f : α → Except ε β} {items : List α}

theorem exists_of_forall₂ {R : α → β → Prop} {values : List β} (h : List.Forall₂ R items values)
    {item : α} (hItem : item ∈ items) : ∃ value, R item value := by
  induction h with
  | nil => cases hItem
  | cons hFirst _ ih =>
    rcases List.mem_cons.mp hItem with rfl | hItem
    · exact ⟨_, hFirst⟩
    · exact ih hItem

theorem mapM_eq_ok_iff {values : List β} : items.mapM f = .ok values ↔
    List.Forall₂ (fun item value => f item = .ok value) items values := by
  induction items generalizing values with
  | nil =>
    rw [List.mapM_nil, List.forall₂_nil_left_iff]
    exact ⟨fun h => (Except.ok.inj h).symm, fun h => congrArg Except.ok h.symm⟩
  | cons item items ih =>
    rw [List.mapM_cons, List.forall₂_cons_left_iff]
    simp only [← ih]
    cases f item with
    | error problem => simp [bind, Except.bind]
    | ok value =>
      cases items.mapM f <;> simp [bind, Except.bind, pure, Except.pure, eq_comm]

theorem mem_of_mapM_eq_ok {values : List β} (h : items.mapM f = .ok values) {value : β} :
    value ∈ values ↔ ∃ item ∈ items, f item = .ok value := by
  rw [mapM_eq_ok_iff] at h
  induction h with
  | nil => simp
  | @cons item found items values hFound _ ih => simp [ih, hFound, eq_comm]

theorem exists_of_mapM_eq_ok {values : List β} (h : items.mapM f = .ok values) {item : α}
    (hItem : item ∈ items) : ∃ value, f item = .ok value :=
  exists_of_forall₂ (mapM_eq_ok_iff.mp h) hItem

theorem mapM_error_inv {problem : ε} (h : items.mapM f = .error problem) :
    ∃ before item after, items = before ++ item :: after ∧
      (∀ other ∈ before, ∃ value, f other = .ok value) ∧ f item = .error problem := by
  induction items with
  | nil => cases h
  | cons first items ih =>
    rw [List.mapM_cons] at h
    cases hFirst : f first with
    | error found =>
      rw [hFirst] at h
      cases h
      exact ⟨[], first, items, rfl, nofun, hFirst⟩
    | ok value =>
      have hRest : items.mapM f = .error problem := by
        cases hItems : items.mapM f with
        | error found =>
          rw [hFirst, hItems] at h
          cases h
          rfl
        | ok values =>
          rw [hFirst, hItems] at h
          cases h
      obtain ⟨before, item, after, rfl, hBefore, hItem⟩ := ih hRest
      exact ⟨first :: before, item, after, rfl,
        List.forall_mem_cons.mpr ⟨⟨value, hFirst⟩, hBefore⟩, hItem⟩

theorem mapM_eq_error {before after : List α} {item : α} {problem : ε}
    (hBefore : ∀ other ∈ before, ∃ value, f other = .ok value) (hItem : f item = .error problem) :
    (before ++ item :: after).mapM f = .error problem := by
  induction before with
  | nil =>
    rw [List.nil_append, List.mapM_cons, hItem]
    rfl
  | cons first before ih =>
    obtain ⟨⟨value, hFirst⟩, hBefore⟩ := List.forall_mem_cons.mp hBefore
    rw [List.cons_append, List.mapM_cons, hFirst, ih hBefore]
    rfl

theorem mapM_filterMap_cons (g : α → Except ε (Option β)) (item : α) (items : List α) :
    ((item :: items).mapM g).map (List.filterMap id) = (g item).bind fun slot =>
      ((items.mapM g).map (List.filterMap id)).map (slot.toList ++ ·) := by
  rw [List.mapM_cons]
  cases g item with
  | error problem => rfl
  | ok slot =>
    cases items.mapM g with
    | error problem => rfl
    | ok slots => cases slot <;> rfl

/-- What gives nothing may be left out. -/
theorem mapM_filter {g : α → Except ε (Option β)} {p : α → Bool}
    (h : ∀ item, p item = false → g item = .ok none) (items : List α) :
    (items.mapM g).map (List.filterMap id) = ((items.filter p).mapM g).map (List.filterMap id) := by
  induction items with
  | nil => rfl
  | cons item items ih =>
    rw [mapM_filterMap_cons, ih, List.filter_cons]
    cases hItem : p item with
    | false =>
      rw [h item hItem, if_neg Bool.false_ne_true]
      cases (items.filter p).mapM g <;> rfl
    | true => rw [if_pos rfl, mapM_filterMap_cons]

end Visits

namespace Schema

variable {inner : Schema} {children : List (String × PropertyTree)} {name : String}

/-- Each entry has the name of its child and the value that the child is bound to. -/
abbrev Binds (inner : Schema) (child : String × PropertyTree) (entry : String × Bound) : Prop :=
  child.1 = entry.1 ∧ inner.bind child.2 = .ok entry.2

theorem mapM_bind_eq_ok_iff {entries : List (String × Bound)} :
    (children.mapM fun child => (inner.bind child.2).map fun value => (child.1, value)) =
      .ok entries ↔ List.Forall₂ inner.Binds children entries := by
  have hChild (child : String × PropertyTree) (entry : String × Bound) :
      ((inner.bind child.2).map fun value => (child.1, value)) = .ok entry ↔
        inner.Binds child entry := by
    obtain ⟨name, bound⟩ := entry
    cases hBound : inner.bind child.2 <;> simp [Except.map, Binds, hBound]
  rw [mapM_eq_ok_iff]
  exact ⟨fun h => h.imp fun _ _ => (hChild _ _).mp, fun h => h.imp fun _ _ => (hChild _ _).mpr⟩

theorem bind_map_inv {value : Bound} (h : (Schema.map inner).bind (.group children) = .ok value) :
    ∃ entries, value = .map entries ∧ List.Forall₂ inner.Binds children entries := by
  rw [Schema.bind] at h
  cases hEntries : children.mapM fun child =>
      (inner.bind child.2).map fun value => (child.1, value) with
  | error problem =>
    rw [hEntries] at h
    cases h
  | ok entries =>
    rw [hEntries] at h
    cases h
    exact ⟨entries, rfl, mapM_bind_eq_ok_iff.mp hEntries⟩

theorem bind_map_of_binds {entries : List (String × Bound)}
    (h : List.Forall₂ inner.Binds children entries) :
    (Schema.map inner).bind (.group children) = .ok (.map entries) := by
  rw [Schema.bind, mapM_bind_eq_ok_iff.mpr h]
  rfl

/-- The first child with a problem decides. -/
theorem bind_map_error {before after : List (String × PropertyTree)}
    {child : String × PropertyTree} {problem : BindingProblem}
    (hBefore : ∀ other ∈ before, ∃ value, inner.bind other.2 = .ok value)
    (hChild : inner.bind child.2 = .error problem) :
    (Schema.map inner).bind (.group (before ++ child :: after)) = .error problem := by
  have hOthers : ∀ other ∈ before,
      ∃ entry, ((inner.bind other.2).map fun value => (other.1, value)) = .ok entry := by
    intro other hOther
    obtain ⟨value, hValue⟩ := hBefore other hOther
    exact ⟨_, congrArg (Except.map _) hValue⟩
  have hFails : ((inner.bind child.2).map fun value => (child.1, value)) = .error problem :=
    congrArg (Except.map _) hChild
  rw [Schema.bind, mapM_eq_error hOthers hFails]
  rfl

theorem rel_find? {entries : List (String × Bound)}
    (h : List.Forall₂ inner.Binds children entries) (name : String) :
    Option.Rel (fun child value => inner.bind child = .ok value) (Keyed.find? name children)
      (Keyed.find? name entries) := by
  induction h with
  | nil => exact .none
  | @cons child entry children entries hBinds _ ih =>
    obtain ⟨key, tree⟩ := child
    obtain ⟨_, value⟩ := entry
    obtain ⟨rfl, hValue⟩ := hBinds
    rw [Keyed.find?_cons, Keyed.find?_cons]
    split
    · exact .some hValue
    · exact ih

theorem find?_of_child {entries : List (String × Bound)}
    (h : List.Forall₂ inner.Binds children entries) {child : PropertyTree}
    (hFind : Keyed.find? name children = some child) :
    ∃ bound, Keyed.find? name entries = some bound ∧ inner.bind child = .ok bound := by
  have hRel := rel_find? h name
  rw [hFind] at hRel
  cases hEntry : Keyed.find? name entries with
  | none =>
    rw [hEntry] at hRel
    cases hRel
  | some bound =>
    rw [hEntry, Option.rel_some_some] at hRel
    exact ⟨bound, rfl, hRel⟩

theorem child_of_find? {entries : List (String × Bound)}
    (h : List.Forall₂ inner.Binds children entries) {bound : Bound}
    (hFind : Keyed.find? name entries = some bound) :
    ∃ child, Keyed.find? name children = some child ∧ inner.bind child = .ok bound := by
  have hRel := rel_find? h name
  rw [hFind] at hRel
  cases hChild : Keyed.find? name children with
  | none =>
    rw [hChild] at hRel
    cases hRel
  | some child =>
    rw [hChild, Option.rel_some_some] at hRel
    exact ⟨child, rfl, hRel⟩

theorem find?_eq_none_iff {entries : List (String × Bound)}
    (h : List.Forall₂ inner.Binds children entries) :
    Keyed.find? name entries = none ↔ Keyed.find? name children = none := by
  have hRel := rel_find? h name
  generalize Keyed.find? name children = child at hRel
  generalize Keyed.find? name entries = bound at hRel
  cases hRel <;> simp

theorem ordered_of_binds {entries : List (String × Bound)}
    (h : List.Forall₂ inner.Binds children entries) (hOrdered : Keyed.Ordered children) :
    Keyed.Ordered entries := by
  have hNames : entries.map Prod.fst = children.map Prod.fst := by
    induction h with
    | nil => rfl
    | cons hBinds _ ih =>
      rw [List.map_cons, List.map_cons, hBinds.1, ih (List.pairwise_cons.mp hOrdered).2]
  have hSorted : (children.map Prod.fst).Pairwise (· < ·) := List.pairwise_map.mpr hOrdered
  rw [← hNames] at hSorted
  exact List.pairwise_map.mp hSorted

/-- What is made of parts is never bound to a single text. -/
def isComposite : Schema → Bool
  | map _ => true
  | record _ _ _ => true
  | wrapper inner => inner.isComposite
  | optional inner => inner.isComposite
  | _ => false

theorem bind_leaf_ne_ok : ∀ (schema : Schema), schema.isComposite = true →
    ∀ (text : String) (value : Bound), schema.bind (.leaf text) ≠ .ok value
  | .map _, _, _, _ => nofun
  | .record _ _ _, _, _, _ => nofun
  | .wrapper inner, h, shown, value => by
    rw [Schema.bind]
    exact bind_leaf_ne_ok inner h shown value
  | .optional inner, h, shown, value => by
    rw [Schema.bind]
    cases hInner : inner.bind (.leaf shown) with
    | error problem => exact nofun
    | ok bound => exact absurd hInner (bind_leaf_ne_ok inner h shown bound)

theorem group_of_bind (hInner : inner.isComposite = true) {tree : PropertyTree} {value : Bound}
    (h : inner.bind tree = .ok value) : ∃ children, tree = .group children := by
  cases tree with
  | leaf shown => exact absurd h (bind_leaf_ne_ok inner hInner shown value)
  | group children => exact ⟨children, rfl⟩

end Schema

end Startup
