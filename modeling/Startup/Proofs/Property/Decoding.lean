import Mathlib.Data.Set.Card
import Startup.Proofs.Property.Document
import Startup.Proofs.Property.Segments

/-!
# Paths read back from keys

Where no name has a point or an opening bracket, a key tells the path that it was made of: it is
cut at its points, and each piece at its opening brackets into a name and the indexes behind it. So
no two leaves of such a document have one key, and each of them becomes a property of its own.
-/

namespace Startup

namespace Step

variable {name : String} {path : List Step}

/-- The item whose index is in front of a closing bracket. -/
def ofIndex (text : String) : Step :=
  item (Text.digitsValue (Text.spanDigits text.toList).1)

/-- The steps of a name and the indexes behind it. -/
def ofSegment (segment : String) : List Step :=
  match Text.splitOn '[' segment with
  | [] => []
  | name :: indexes => member name :: indexes.map ofIndex

def ofKey (key : String) : List Step :=
  (Text.splitOn '.' key).flatMap ofSegment

theorem ofIndex_decimal (index : Nat) : ofIndex (Text.decimal index ++ "]") = item index := by
  have hChars : (Text.decimal index ++ "]").toList = Text.decimalDigits index ++ ']' :: [] := by
    simp [Text.decimal]
  rw [ofIndex, hChars, Text.spanDigits_append_cons (fun _ => Text.isDigit_of_mem_decimalDigits) rfl,
    Text.digitsValue_decimalDigits]

theorem bracket_not_mem_decimal (index : Nat) : '[' ∉ (Text.decimal index ++ "]").toList := by
  intro hMem
  rw [String.toList_append, List.mem_append] at hMem
  rcases hMem with hMem | hMem
  · cases Text.isDigit_of_mem_decimalDigits (n := index) (by simpa [Text.decimal] using hMem)
  · cases List.mem_singleton.mp hMem

theorem ofSegment_of_not_mem (h : '[' ∉ name.toList) : ofSegment name = [member name] := by
  rw [ofSegment, Text.splitOn_of_not_mem h]
  rfl

/-- An index is read behind whatever is in front of it. -/
theorem ofSegment_append_item (segment : String) (index : Nat) :
    ofSegment (segment ++ (item index).text) = ofSegment segment ++ [item index] := by
  have hText : segment ++ (item index).text =
      segment ++ String.singleton '[' ++ (Text.decimal index ++ "]") := by
    rw [text, String.append_assoc, String.append_assoc]
    rfl
  rw [ofSegment, hText, Text.splitOn_append_separator,
    Text.splitOn_of_not_mem (bracket_not_mem_decimal index), ofSegment]
  cases hSplit : Text.splitOn '[' segment with
  | nil => exact absurd hSplit (Text.splitOn_ne_nil '[' segment)
  | cons name indexes => simp [ofIndex_decimal]

theorem flatMap_segments (name : String) (hPath : ∀ step ∈ path, step.Free) :
    (segments name path).flatMap ofSegment = ofSegment name ++ path := by
  -- the name takes up the indexes behind it, so it is not free itself on the way
  induction path generalizing name with
  | nil => simp [segments]
  | cons step path ih =>
    obtain ⟨hStep, hRest⟩ := List.forall_mem_cons.mp hPath
    cases step with
    | item index =>
      rw [segments, ih _ hRest, ofSegment_append_item, List.append_assoc, List.singleton_append]
    | member next =>
      rw [segments, List.flatMap_cons, ih next hRest, ofSegment_of_not_mem hStep.2,
        List.singleton_append]

theorem ofKey_key (hName : (member name).Free) (hPath : ∀ step ∈ path, step.Free) :
    ofKey (key name path) = member name :: path := by
  rw [ofKey, splitOn_key hName.1 hPath, flatMap_segments name hPath, ofSegment_of_not_mem hName.2,
    List.singleton_append]

end Step

namespace Json

variable {value : Json} {members : List (String × Json)} {path other : List Step}
  {leaf found key : String}

theorem HasLeaf.text_eq (h : HasLeaf value path leaf) (hOther : HasLeaf value path found)
    (hOrdered : Ordered value) : leaf = found := by
  induction h with
  | scalar hScalar =>
    cases hOther with
    | scalar hFound => exact Option.some.inj (hScalar.symm.trans hFound)
  | item hItem hLeaf ih =>
    cases hOrdered with
    | list each =>
      cases hOther with
      | item hFound hBelow =>
        cases hItem.symm.trans hFound
        exact ih hBelow (each _ (List.mem_of_getElem? hItem))
  | member hMember hLeaf ih =>
    cases hOrdered with
    | object names each =>
      cases hOther with
      | member hFound hBelow =>
        cases names.single _ _ _ hMember hFound
        exact ih hBelow (each _ hMember)

theorem HasLeaf.ofKey_topKey (h : HasLeaf (.object members) path leaf)
    (hAddressable : Addressable (.object members)) : Step.ofKey (Step.topKey path) = path := by
  have hFree := h.free hAddressable
  cases h with
  | scalar hScalar => cases hScalar
  | member hMember hLeaf =>
    obtain ⟨hName, hPath⟩ := List.forall_mem_cons.mp hFree
    exact Step.ofKey_key hName hPath

theorem HasLeaf.eq_of_topKey_eq (h : HasLeaf (.object members) path leaf)
    (hOther : HasLeaf (.object members) other found) (hAddressable : Addressable (.object members))
    (hOrdered : Ordered (.object members)) (hKey : Step.topKey path = Step.topKey other) :
    path = other ∧ leaf = found := by
  have hPath : path = other := by
    rw [← h.ofKey_topKey hAddressable, hKey, hOther.ofKey_topKey hAddressable]
  subst hPath
  exact ⟨rfl, h.text_eq hOther hOrdered⟩

theorem mem_flatten_iff_topKey : (key, leaf) ∈ flatten members ↔
    ∃ path, HasLeaf (.object members) path leaf ∧ Step.topKey path = key := by
  rw [flatten_eq_map, List.mem_map]
  constructor
  · rintro ⟨⟨path, leaf⟩, hLeaf, ⟨⟩⟩
    exact ⟨path, mem_memberLeaves.mp hLeaf, rfl⟩
  · rintro ⟨path, hLeaf, rfl⟩
    exact ⟨(path, leaf), mem_memberLeaves.mpr hLeaf, rfl⟩

theorem single_flatten (hAddressable : Addressable (.object members))
    (hOrdered : Ordered (.object members)) : Keyed.Single (flatten members) := by
  intro key a b hA hB
  obtain ⟨path, hPath, rfl⟩ := mem_flatten_iff_topKey.mp hA
  obtain ⟨other, hOther, hKey⟩ := mem_flatten_iff_topKey.mp hB
  exact (hPath.eq_of_topKey_eq hOther hAddressable hOrdered hKey.symm).2

end Json

namespace Properties

variable {members : List (String × Json)} {key shown : String}

theorem mem_entries_iff {properties : Properties} :
    (key, shown) ∈ properties.entries ↔ properties.get? key = some shown :=
  properties.ordered.find?_eq_some_iff.symm

theorem get?_ofPairs_flatten_iff (hAddressable : Json.Addressable (.object members))
    (hOrdered : Json.Ordered (.object members)) :
    (ofPairs (Json.flatten members)).get? key = some shown ↔
      ∃ path, Json.HasLeaf (.object members) path shown ∧ Step.topKey path = key := by
  have hSingle := Json.single_flatten hAddressable hOrdered
  exact hSingle.find?_ofPairs_eq_some_iff.trans Json.mem_flatten_iff_topKey

theorem encard_entries (properties : Properties) :
    {entry | entry ∈ properties.entries}.encard = properties.size := by
  have hNodup : properties.entries.Nodup := by
    refine properties.ordered.imp fun {a b} hLess hSame => ?_
    exact String.lt_irrefl a.1 (hSame ▸ hLess)
  rw [← List.coe_toFinset, Set.encard_coe_eq_coe_finsetCard, List.toFinset_card_of_nodup hNodup]
  rfl

/-- One property for each leaf: the keys of different leaves are different. -/
theorem encard_leaves (hAddressable : Json.Addressable (.object members))
    (hOrdered : Json.Ordered (.object members)) :
    {leaf : List Step × String | Json.HasLeaf (.object members) leaf.1 leaf.2}.encard =
      (ofPairs (Json.flatten members)).size := by
  have hInjective : Set.InjOn Json.assignment
      {leaf | Json.HasLeaf (.object members) leaf.1 leaf.2} := by
    rintro ⟨path, leaf⟩ hLeaf ⟨other, found⟩ hFound hSame
    obtain ⟨rfl, rfl⟩ :=
      hLeaf.eq_of_topKey_eq hFound hAddressable hOrdered (congrArg Prod.fst hSame)
    rfl
  have hImage : Json.assignment '' {leaf | Json.HasLeaf (.object members) leaf.1 leaf.2} =
      {entry | entry ∈ (ofPairs (Json.flatten members)).entries} := by
    ext ⟨key, shown⟩
    refine Iff.trans ?_
      (mem_entries_iff.trans (get?_ofPairs_flatten_iff hAddressable hOrdered)).symm
    constructor
    · rintro ⟨⟨path, leaf⟩, hLeaf, ⟨⟩⟩
      exact ⟨path, hLeaf, rfl⟩
    · rintro ⟨path, hLeaf, rfl⟩
      exact ⟨(path, shown), hLeaf, rfl⟩
  rw [← hInjective.encard_image, hImage, encard_entries]

end Properties

namespace Environment

variable {members : List (String × Json)}

/-- No name of a document has a point or an opening bracket: then the key of a leaf tells its path,
different leaves have different keys, and an empty store has as many properties after the document
was loaded as there are leaves in it. -/
theorem load_unambiguous (hAddressable : Json.Addressable (.object members))
    (hOrdered : Json.Ordered (.object members)) :
    (∀ path leaf, Json.HasLeaf (.object members) path leaf →
      Step.ofKey (Step.topKey path) = path) ∧
    (∀ path leaf other found, Json.HasLeaf (.object members) path leaf →
      Json.HasLeaf (.object members) other found → (path, leaf) ≠ (other, found) →
        Step.topKey path ≠ Step.topKey other) ∧
    ∀ {σ : Type} (host : Host σ) (environment : Environment) (source text : String) (w : World σ),
      w.stores[environment.store.index]? = some Properties.empty →
      Json.parse text = .ok (.object members) → ∃ loaded,
        (environment.load source text).interpret host.answer w =
          some (.ok (), environment.showing loaded w) ∧
        (∀ key shown, loaded.get? key = some shown ↔
          ∃ path, Json.HasLeaf (.object members) path shown ∧ Step.topKey path = key) ∧
        {leaf : List Step × String | Json.HasLeaf (.object members) leaf.1 leaf.2}.encard =
          loaded.size := by
  refine ⟨fun path leaf hLeaf => hLeaf.ofKey_topKey hAddressable, ?_, ?_⟩
  · intro path leaf other found hLeaf hFound hOther hKey
    obtain ⟨rfl, rfl⟩ := hLeaf.eq_of_topKey_eq hFound hAddressable hOrdered hKey
    exact hOther rfl
  · intro σ host environment source text w hStore hParse
    have hAssigned : Properties.assignments source text = .ok (Json.flatten members) := by
      rw [Properties.assignments, hParse]
    exact ⟨.ofPairs (Json.flatten members), load_ok hAssigned hStore,
      fun key shown => Properties.get?_ofPairs_flatten_iff hAddressable hOrdered,
      Properties.encard_leaves hAddressable hOrdered⟩

/-- Names that are empty, a number or end like an index, and a null. -/
def oddlyNamed : List (String × Json) :=
  [("", .object [("", .text "x")]), ("0", .list [.null, .list [.text "y", .bool true]]),
    ("0]", .text "y")]

def oddlyNamedText : String :=
  "\x7b\"0]\":\"y\",\"0\":[null,[\"y\",true]],\"\":\x7b\"\":\"x\"\x7d\x7d"

/-- The world has one store, and nothing in it. -/
def vacant : World Unit :=
  { (default : World Unit) with stores := [Properties.empty] }

theorem load_unambiguous_oddlyNamed :
    Step.ofKey "0[1][0]" = [.member "0", .item 1, .item 0] ∧
      Step.topKey [.member "0", .item 1, .item 0] ≠ Step.topKey [.member "0]"] ∧
      ∃ loaded, ((⟨⟨0⟩, []⟩ : Environment).load "inline" oddlyNamedText).interpret
          (Host.ofDepth default 0).answer vacant =
            some (.ok (), (⟨⟨0⟩, []⟩ : Environment).showing loaded vacant) ∧
        loaded.get? "." = some "x" ∧
        {leaf : List Step × String | Json.HasLeaf (.object oddlyNamed) leaf.1 leaf.2}.encard =
          loaded.size := by
  have hParse : Json.parse oddlyNamedText = .ok (.object oddlyNamed) := by
    have hChars : Json.parseChars oddlyNamedText.toList = .ok (.object oddlyNamed) := by
      cbv
    exact congrArg (Except.mapError _) hChars
  have hAddressable : Json.Addressable (.object oddlyNamed) := by
    refine .object (by decide) ?_
    simp only [oddlyNamed, List.forall_mem_cons]
    refine ⟨.object (by decide) (by simp [Json.Addressable.text]), .list ?_, .text "y", by simp⟩
    simp only [List.forall_mem_cons]
    exact ⟨.null, .list (by simp [Json.Addressable.text, Json.Addressable.bool]), by simp⟩
  obtain ⟨hPaths, hKeys, hLoads⟩ := load_unambiguous hAddressable (Json.ordered_of_parse hParse)
  obtain ⟨loaded, hLoad, hShown, hSize⟩ :=
    hLoads (Host.ofDepth default 0) ⟨⟨0⟩, []⟩ "inline" oddlyNamedText vacant rfl hParse
  have hFirst : Json.HasLeaf (.object oddlyNamed) [.member "0", .item 1, .item 0] "y" :=
    Json.mem_memberLeaves.mp (by decide)
  have hSecond : Json.HasLeaf (.object oddlyNamed) [.member "0]"] "y" :=
    Json.mem_memberLeaves.mp (by decide)
  have hThird : Json.HasLeaf (.object oddlyNamed) [.member "", .member ""] "x" :=
    Json.mem_memberLeaves.mp (by decide)
  have hKey : Step.topKey [.member "0", .item 1, .item 0] = "0[1][0]" := by decide
  refine ⟨hKey ▸ hPaths _ _ hFirst, hKeys _ _ _ _ hFirst hSecond (by decide), loaded, hLoad, ?_,
    hSize⟩
  exact (hShown "." "x").mpr ⟨_, hThird, by decide⟩

end Environment

end Startup
