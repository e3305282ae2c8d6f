import Mathlib.Data.List.Induction
import Mathlib.Data.List.Lex
import Startup.Effect.Environment
import Startup.Effect.Execution
import Startup.Proofs.Json.Reading
import Startup.Proofs.Property.Layers

/-!
# What a document leaves in a store

The leaves of a document are visited in the order of their paths: where two of them part, the
member with the smaller name or the item with the smaller index comes first. Several leaves may
have one key, for names may have points and brackets in them, and then the last visit counts.
-/

namespace Startup

namespace Step

/-- Members come in the order of their names and items in the order of their indexes. -/
inductive Before : Step → Step → Prop
  | member {a b : String} (h : a < b) : Before (member a) (member b)
  | item {i j : Nat} (h : i < j) : Before (item i) (item j)

instance : Std.Asymm Before where
  asymm a b hBefore hAfter := by
    cases hBefore with
    | member h =>
      cases hAfter with
      | member h' => exact String.lt_asymm h h'
    | item h =>
      cases hAfter with
      | item h' => exact Nat.lt_asymm h h'

/-- The key of a path from the top, where no point is in front of the name of a member. -/
def topKey : List Step → String
  | member name :: path => key name path
  | path => key "" path

end Step

namespace Json

variable {members : List (String × Json)} {key leaf : String}

/-- Of the leaves with a key, the one that is visited last. -/
def LastLeaf (hasLeaf : List Step → String → Prop) (key leaf : String) : Prop :=
  ∃ path, hasLeaf path leaf ∧ Step.topKey path = key ∧
    ∀ other found, hasLeaf other found → Step.topKey other = key →
      other = path ∨ List.Lex Step.Before other path

def Leafless (members : List (String × Json)) (key : String) : Prop :=
  ∀ path leaf, HasLeaf (.object members) path leaf → Step.topKey path ≠ key

def InOrder (leaves : List (List Step × String)) : Prop :=
  leaves.Pairwise fun a b => List.Lex Step.Before a.1 b.1

theorem InOrder.behind {step : Step} {inner rest : List (List Step × String)}
    (hInner : InOrder inner) (hRest : InOrder rest)
    (hLater : ∀ leaf ∈ rest, ∃ next path, leaf.1 = next :: path ∧ step.Before next) :
    InOrder ((inner.map fun (path, value) => (step :: path, value)) ++ rest) := by
  refine List.pairwise_append.mpr ⟨List.pairwise_map.mpr (hInner.imp List.Lex.cons), hRest, ?_⟩
  intro a hA b hB
  obtain ⟨leaf, -, rfl⟩ := List.mem_map.mp hA
  obtain ⟨next, path, hPath, hStep⟩ := hLater b hB
  rw [hPath]
  exact .rel hStep

mutual

theorem inOrder_leaves : ∀ (value : Json), Ordered value → InOrder value.leaves
  | .null, _ => .nil
  | .text _, _ => List.pairwise_singleton _ _
  | .bool _, _ => List.pairwise_singleton _ _
  | .integer _, _ => List.pairwise_singleton _ _
  | .double _, _ => List.pairwise_singleton _ _
  | .list items, .list each => inOrder_itemLeaves items each 0
  | .object members, .object names each => inOrder_memberLeaves members names each

theorem inOrder_itemLeaves : ∀ (items : List Json), (∀ item ∈ items, Ordered item) →
    ∀ first, InOrder (itemLeaves first items)
  | [], _, _ => .nil
  | item :: items, hEach, first => by
    obtain ⟨hItem, hItems⟩ := List.forall_mem_cons.mp hEach
    apply (inOrder_leaves item hItem).behind (inOrder_itemLeaves items hItems (first + 1))
    rintro ⟨path, leaf⟩ hLeaf
    obtain ⟨index, value, rest, -, rfl, -⟩ := (mem_itemLeaves_iff items).mp hLeaf
    exact ⟨_, rest, rfl, .item (by omega)⟩

theorem inOrder_memberLeaves : ∀ (members : List (String × Json)), Keyed.Ordered members →
    (∀ member ∈ members, Ordered member.2) → InOrder (memberLeaves members)
  | [], _, _ => .nil
  | (name, value) :: members, hNames, hEach => by
    obtain ⟨hName, hNames⟩ := List.pairwise_cons.mp hNames
    obtain ⟨hValue, hEach⟩ := List.forall_mem_cons.mp hEach
    apply (inOrder_leaves value hValue).behind (inOrder_memberLeaves members hNames hEach)
    rintro ⟨path, leaf⟩ hLeaf
    obtain ⟨other, inner, rest, hMember, rfl, -⟩ := (mem_memberLeaves_iff members).mp hLeaf
    exact ⟨_, rest, rfl, .member (hName _ hMember)⟩

end

/-- The assignment of a leaf. -/
def assignment (leaf : List Step × String) : String × String :=
  (Step.topKey leaf.1, leaf.2)

theorem flatten_eq_map (members : List (String × Json)) :
    flatten members = (memberLeaves members).map assignment := by
  induction members with
  | nil => rfl
  | cons member members ih =>
    rw [flatten, memberLeaves, List.map_append, List.map_map, ih]
    rfl

abbrev VisitedLast (leaves : List (List Step × String)) : String → String → Prop :=
  LastLeaf fun path leaf => (path, leaf) ∈ leaves

section Append

variable {leaves : List (List Step × String)} {path : List Step} {text : String}

theorem InOrder.lex_of_mem (h : InOrder (leaves ++ [(path, text)])) {other : List Step}
    {found : String} (hMem : (other, found) ∈ leaves) : List.Lex Step.Before other path :=
  (List.pairwise_append.mp h).2.2 _ hMem _ List.mem_cons_self

theorem mem_append_leaf_iff {other : List Step} {found : String} :
    (other, found) ∈ leaves ++ [(path, text)] ↔
      (other, found) ∈ leaves ∨ other = path ∧ found = text := by
  rw [List.mem_append, List.mem_singleton, Prod.mk.injEq]

theorem visitedLast_append_of_eq (h : InOrder (leaves ++ [(path, text)]))
    (hKey : Step.topKey path = key) :
    VisitedLast (leaves ++ [(path, text)]) key leaf ↔ leaf = text := by
  simp only [LastLeaf, mem_append_leaf_iff]
  constructor
  · rintro ⟨other, hOther | ⟨-, rfl⟩, -, hLast⟩
    · have hBefore := h.lex_of_mem hOther
      rcases hLast path text (.inr ⟨rfl, rfl⟩) hKey with rfl | hAfter
      · exact absurd hBefore (irrefl_of (List.Lex Step.Before) _)
      · exact absurd hBefore (asymm_of (List.Lex Step.Before) hAfter)
    · rfl
  · rintro rfl
    refine ⟨path, .inr ⟨rfl, rfl⟩, hKey, ?_⟩
    rintro other found (hOther | ⟨rfl, -⟩) -
    · exact .inr (h.lex_of_mem hOther)
    · exact .inl rfl

theorem visitedLast_append_of_ne (hKey : Step.topKey path ≠ key) :
    VisitedLast (leaves ++ [(path, text)]) key leaf ↔ VisitedLast leaves key leaf := by
  simp only [LastLeaf, mem_append_leaf_iff]
  constructor
  · rintro ⟨other, hOther | ⟨rfl, -⟩, hSame, hLast⟩
    · exact ⟨other, hOther, hSame, fun next found hNext => hLast next found (.inl hNext)⟩
    · exact absurd hSame hKey
  · rintro ⟨other, hOther, hSame, hLast⟩
    refine ⟨other, .inl hOther, hSame, ?_⟩
    rintro next found (hNext | ⟨rfl, -⟩) hNextKey
    · exact hLast next found hNext hNextKey
    · exact absurd hNextKey hKey

end Append

/-- Seen from the end, the first assignment of a key is that of the last leaf. -/
theorem lookup_reverse_iff {leaves : List (List Step × String)} (h : InOrder leaves) :
    (leaves.map assignment).reverse.lookup key = some leaf ↔ VisitedLast leaves key leaf := by
  -- from the end of the visits, where the look-up begins
  induction leaves using List.reverseRecOn with
  | nil => simp [LastLeaf]
  | append_singleton leaves last ih =>
    obtain ⟨path, text⟩ := last
    have hEnd : ((leaves ++ [(path, text)]).map assignment).reverse =
        (Step.topKey path, text) :: (leaves.map assignment).reverse := by
      rw [List.map_append, List.reverse_append]
      rfl
    rw [hEnd]
    by_cases hKey : Step.topKey path = key
    · rw [hKey, List.lookup_cons_self, visitedLast_append_of_eq h hKey, Option.some.injEq, eq_comm]
    · rw [List.lookup_cons, beq_eq_false_iff_ne.mpr (Ne.symm hKey), visitedLast_append_of_ne hKey]
      exact ih (List.pairwise_append.mp h).1

theorem mem_memberLeaves {path : List Step} :
    (path, leaf) ∈ memberLeaves members ↔ HasLeaf (.object members) path leaf :=
  mem_leaves_iff (.object members)

theorem lookup_flatten_iff (hOrdered : Ordered (.object members)) :
    (flatten members).reverse.lookup key = some leaf ↔
      LastLeaf (HasLeaf (.object members)) key leaf := by
  have hInOrder : InOrder (memberLeaves members) := inOrder_leaves _ hOrdered
  rw [flatten_eq_map, lookup_reverse_iff hInOrder]
  simp only [VisitedLast, mem_memberLeaves]

theorem lookup_flatten_eq_none_iff :
    (flatten members).reverse.lookup key = none ↔ Leafless members key := by
  rw [flatten_eq_map, List.lookup_eq_none_iff]
  simp only [List.mem_reverse, List.forall_mem_map, Prod.forall, mem_memberLeaves, assignment,
    bne_iff_ne, ne_comm, Leafless]

end Json

namespace Properties

variable {members : List (String × Json)} {key shown : String}

/-- A key of a document has the text of its last leaf, and every other one what it had. -/
theorem get?_setAll_flatten_iff (properties : Properties)
    (hOrdered : Json.Ordered (.object members)) :
    (properties.setAll (Json.flatten members)).get? key = some shown ↔
      Json.LastLeaf (Json.HasLeaf (.object members)) key shown ∨
        Json.Leafless members key ∧ properties.get? key = some shown := by
  rw [get?_setAll_lookup, Option.or_eq_some_iff, Json.lookup_flatten_iff hOrdered,
    Json.lookup_flatten_eq_none_iff]

theorem setAll_setAll (properties : Properties) (pairs : List (String × String)) :
    (properties.setAll pairs).setAll pairs = properties.setAll pairs := by
  ext1 key
  rw [get?_setAll_lookup, get?_setAll_lookup, ← Option.or_assoc, Option.or_self]

end Properties

namespace Environment

variable {σ : Type} {host : Host σ} {environment : Environment} {source text : String}
  {w : World σ} {properties : Properties}

/-- The world with other properties behind an environment. -/
def showing (environment : Environment) (properties : Properties) (w : World σ) : World σ :=
  { w with stores := w.stores.set environment.store.index properties }

theorem stores_showing (hStore : w.stores[environment.store.index]? = some properties)
    (other : Properties) :
    (environment.showing other w).stores[environment.store.index]? = some other := by
  obtain ⟨hIndex, -⟩ := List.getElem?_eq_some_iff.mp hStore
  exact List.getElem?_set_self hIndex

theorem showing_showing (environment : Environment) (a b : Properties) (w : World σ) :
    environment.showing b (environment.showing a w) = environment.showing b w := by
  simp only [showing, List.set_set]

theorem load_error {error : SetupError} (h : Properties.assignments source text = .error error)
    (w : World σ) :
    (environment.load source text).interpret host.answer w = some (.error error, w) := by
  rw [load, h]
  rfl

theorem load_ok {pairs : List (String × String)}
    (h : Properties.assignments source text = .ok pairs)
    (hStore : w.stores[environment.store.index]? = some properties) :
    (environment.load source text).interpret host.answer w =
      some (.ok (), environment.showing (properties.setAll pairs) w) := by
  have hStores : w.stores.modify environment.store.index (fun p => p.setAll pairs) =
      w.stores.set environment.store.index (properties.setAll pairs) := by
    rw [List.modify_eq_set_getElem?, hStore]
    rfl
  rw [load, h, showing, ← hStores]
  rfl

/-- A text that is no document, or none with members, is refused and changes nothing. Otherwise
each key has the text of the last leaf with it, and every other key what it had; to load the text
again makes no difference. -/
theorem load_document (host : Host σ) (environment : Environment) (source text : String)
    {w : World σ} {properties : Properties}
    (hStore : w.stores[environment.store.index]? = some properties) :
    (∀ problem, Json.parse text = .error problem →
      (environment.load source text).interpret host.answer w =
        some (.error (.invalidPropertySource source problem), w)) ∧
    (∀ value, Json.parse text = .ok value → (∀ members, value ≠ .object members) →
      (environment.load source text).interpret host.answer w =
        some (.error (.invalidPropertySource source
          ("expected an object, found " ++ value.print)), w)) ∧
    ∀ members, Json.parse text = .ok (.object members) → ∃ loaded,
      (environment.load source text).interpret host.answer w =
        some (.ok (), environment.showing loaded w) ∧
      (∀ key shown, loaded.get? key = some shown ↔
        Json.LastLeaf (Json.HasLeaf (.object members)) key shown ∨
          Json.Leafless members key ∧ properties.get? key = some shown) ∧
      ∀ again, (environment.load again text).interpret host.answer (environment.showing loaded w) =
        some (.ok (), environment.showing loaded w) := by
  refine ⟨fun problem hParse => ?_, fun value hParse hOther => ?_, fun members hParse => ?_⟩
  · apply load_error
    rw [Properties.assignments, hParse]
  · apply load_error
    rw [Properties.assignments, hParse]
    cases value with
    | object members => exact absurd rfl (hOther members)
    | _ => rfl
  · have hAssigned (source : String) :
        Properties.assignments source text = .ok (Json.flatten members) := by
      rw [Properties.assignments, hParse]
    refine ⟨properties.setAll (Json.flatten members), load_ok (hAssigned source) hStore,
      fun key shown => properties.get?_setAll_flatten_iff (Json.ordered_of_parse hParse), ?_⟩
    intro again
    rw [load_ok (hAssigned again) (stores_showing hStore _), Properties.setAll_setAll,
      showing_showing]

/-- Two leaves have the key `a.b`, the one below `a` being visited first, and a null has none. -/
def clashing : List (String × Json) :=
  [("a", .object [("b", .bool true)]), ("a.b", .text "1"), ("c", .null)]

def clashingText : String :=
  "\x7b\"a.b\":\"1\",\"c\":null,\"a\":\x7b\"b\":true\x7d\x7d"

/-- The world has one store, and an old text under the key of the null. -/
def stocked : World Unit :=
  { (default : World Unit) with stores := [Properties.empty.set "c" "old"] }

theorem load_document_clashing :
    ∃ loaded, ((⟨⟨0⟩, []⟩ : Environment).load "inline" clashingText).interpret
        (Host.ofDepth default 0).answer stocked =
          some (.ok (), (⟨⟨0⟩, []⟩ : Environment).showing loaded stocked) ∧
      loaded.get? "a.b" = some "1" ∧ loaded.get? "c" = some "old" := by
  have hParse : Json.parse clashingText = .ok (.object clashing) := by
    have hChars : Json.parseChars clashingText.toList = .ok (.object clashing) := by
      cbv
    exact congrArg (Except.mapError _) hChars
  have hOrdered := Json.ordered_of_parse hParse
  have hStore : stocked.stores[0]? = some (Properties.empty.set "c" "old") := rfl
  obtain ⟨-, -, hLoads⟩ :=
    load_document (Host.ofDepth default 0) ⟨⟨0⟩, []⟩ "inline" clashingText hStore
  obtain ⟨loaded, hLoad, hKeys, -⟩ := hLoads clashing hParse
  refine ⟨loaded, hLoad, (hKeys "a.b" "1").mpr (.inl ?_), (hKeys "c" "old").mpr (.inr ⟨?_, rfl⟩)⟩
  · exact (Json.lookup_flatten_iff hOrdered).mp (by decide)
  · exact Json.lookup_flatten_eq_none_iff.mp (by decide)

end Environment

end Startup
