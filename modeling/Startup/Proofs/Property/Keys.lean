import Startup.Proofs.Property.Leaves

/-!
# The segments of a key

The key of a leaf is cut at its points into segments: a member's name and, behind it, the indexes
of the items that lead on from there. Where no name has a point or an opening bracket, the segments
come back from the key, and a segment tells its name and its first index.
-/

namespace Startup

namespace Text

theorem splitOn_joined_singleton {separator : Char} {pieces : List String} (hNe : pieces ≠ [])
    (hFree : ∀ piece ∈ pieces, separator ∉ piece.toList) :
    splitOn separator (joined (String.singleton separator) pieces) = pieces := by
  induction pieces with
  | nil => exact absurd rfl hNe
  | cons first rest ih =>
    obtain ⟨hFirst, hRest⟩ := List.forall_mem_cons.mp hFree
    cases rest with
    | nil => rw [joined, String.intercalate_singleton, splitOn_of_not_mem hFirst]
    | cons second rest =>
      rw [joined, String.intercalate_cons_cons, splitOn_append hFirst, ← joined,
        ih (List.cons_ne_nil _ _) hRest]

theorem splitOn_joined {segments : List String} (hNe : segments ≠ [])
    (hFree : ∀ segment ∈ segments, '.' ∉ segment.toList) :
    splitOn '.' (joined "." segments) = segments :=
  splitOn_joined_singleton hNe hFree

end Text

namespace Step

def segments (name : String) : List Step → List String
  | [] => [name]
  | item index :: path => segments (name ++ (item index).text) path
  | member next :: path => name :: segments next path

theorem segments_ne_nil (name : String) (path : List Step) : segments name path ≠ [] := by
  induction path generalizing name with
  | nil => exact List.cons_ne_nil _ _
  | cons step path ih =>
    cases step with
    | member next => exact List.cons_ne_nil _ _
    | item index => exact ih _

theorem key_append (lead name : String) (path : List Step) :
    key (lead ++ name) path = lead ++ key name path := by
  induction path generalizing name with
  | nil => rfl
  | cons step path ih =>
    have hStep : key (lead ++ name) (step :: path) = key (lead ++ name ++ step.text) path := rfl
    rw [hStep, String.append_assoc, ih]
    rfl

theorem key_eq_joined (name : String) (path : List Step) :
    key name path = Text.joined "." (segments name path) := by
  induction path generalizing name with
  | nil => exact (String.intercalate_singleton).symm
  | cons step path ih =>
    cases step with
    | item index => exact ih _
    | member next =>
      have hStep : key name (member next :: path) = key (name ++ "." ++ next) path := by
        rw [String.append_assoc]
        rfl
      rw [hStep, key_append, ih, segments, Text.joined, Text.joined,
        String.intercalate_cons_of_ne_nil (segments_ne_nil next path)]

theorem toList_text_item (index : Nat) :
    (item index).text.toList = '[' :: (Text.decimalDigits index ++ [']']) := by
  simp [text, Text.decimal]

theorem point_not_mem_text_item (index : Nat) : '.' ∉ (item index).text.toList := by
  rw [toList_text_item]
  intro hMem
  rcases List.mem_cons.mp hMem with hMem | hMem
  · cases hMem
  · rcases List.mem_append.mp hMem with hMem | hMem
    · cases Text.isDigit_of_mem_decimalDigits hMem
    · cases List.mem_singleton.mp hMem

/-- A step to a name without points and opening brackets, or to an item. -/
def Free : Step → Prop
  | member name => '.' ∉ name.toList ∧ '[' ∉ name.toList
  | item _ => True

theorem segments_free {name : String} {path : List Step} (hName : '.' ∉ name.toList)
    (hPath : ∀ step ∈ path, step.Free) : ∀ segment ∈ segments name path, '.' ∉ segment.toList := by
  induction path generalizing name with
  | nil => exact List.forall_mem_singleton.mpr hName
  | cons step path ih =>
    obtain ⟨hStep, hRest⟩ := List.forall_mem_cons.mp hPath
    cases step with
    | member next => exact List.forall_mem_cons.mpr ⟨hName, ih hStep.1 hRest⟩
    | item index =>
      refine ih ?_ hRest
      rw [String.toList_append, List.mem_append, not_or]
      exact ⟨hName, point_not_mem_text_item index⟩

theorem splitOn_key {name : String} {path : List Step} (hName : '.' ∉ name.toList)
    (hPath : ∀ step ∈ path, step.Free) : Text.splitOn '.' (key name path) = segments name path := by
  rw [key_eq_joined, Text.splitOn_joined (segments_ne_nil name path) (segments_free hName hPath)]

end Step

namespace Json

/-- No name has a point or an opening bracket, at any level. -/
inductive Addressable : Json → Prop where
  | null : Addressable null
  | bool (value : Bool) : Addressable (bool value)
  | integer (value : Int) : Addressable (integer value)
  | double (value : Float) : Addressable (double value)
  | text (value : String) : Addressable (text value)
  | list {items : List Json} (each : ∀ item ∈ items, Addressable item) : Addressable (list items)
  | object {members : List (String × Json)}
      (names : ∀ member ∈ members, '.' ∉ member.1.toList ∧ '[' ∉ member.1.toList)
      (each : ∀ member ∈ members, Addressable member.2) : Addressable (object members)

theorem HasLeaf.free {value : Json} {path : List Step} {leaf : String}
    (h : HasLeaf value path leaf) (hValue : Addressable value) : ∀ step ∈ path, step.Free := by
  induction h with
  | scalar hScalar => exact nofun
  | @item items index value path leaf hItem hLeaf ih =>
    cases hValue with
    | list each =>
      exact List.forall_mem_cons.mpr ⟨trivial, ih (each value (List.mem_of_getElem? hItem))⟩
  | @member members next value path leaf hMember hLeaf ih =>
    cases hValue with
    | object names each =>
      exact List.forall_mem_cons.mpr
        ⟨names (next, value) hMember, ih (each (next, value) hMember)⟩

theorem HasLeaf.splitOn_key {value : Json} {path : List Step} {leaf : String}
    (h : HasLeaf value path leaf) (hValue : Addressable value) {name : String}
    (hName : '.' ∉ name.toList) :
    Text.splitOn '.' (Step.key name path) = Step.segments name path :=
  Step.splitOn_key hName (h.free hValue)

end Json

end Startup
