import Startup.Proofs.Property.Keys

/-!
# Keys behind keys

A key is behind another one if it begins with that one and a point. Cut at its points it then has
the segments of the other key and some more, and it comes later in the order of keys. Of two keys
in front of the same key, one is in front of the other.
-/

namespace Startup

namespace Text

theorem splitChars_eq_splitOn (separator : Char) (text : List Char) :
    splitChars separator text = text.splitOn separator := by
  induction text with
  | nil => rfl
  | cons c rest ih =>
    rw [splitChars, ih, List.splitOn_eq_splitOnP, List.splitOn_eq_splitOnP,
      List.splitOnP_cons_eq_if_modifyHead]
    cases hRest : rest.splitOnP (· == separator) with
    | nil => exact absurd hRest (List.splitOnP_ne_nil _ _)
    | cons piece pieces => by_cases hc : c = separator <;> simp [hc]

theorem splitChars_append_separator (separator : Char) (a b : List Char) :
    splitChars separator (a ++ separator :: b) =
      splitChars separator a ++ splitChars separator b := by
  simp only [splitChars_eq_splitOn, List.splitOn_eq_splitOnP]
  exact List.splitOnP_append_cons a b (beq_self_eq_true separator)

theorem splitOn_ne_nil (separator : Char) (text : String) : splitOn separator text ≠ [] :=
  fun hNil => splitChars_ne_nil separator text.toList (List.map_eq_nil_iff.mp hNil)

theorem splitOn_append_separator (separator : Char) (lead rest : String) :
    splitOn separator (lead ++ String.singleton separator ++ rest) =
      splitOn separator lead ++ splitOn separator rest := by
  have hChars : (lead ++ String.singleton separator ++ rest).toList =
      lead.toList ++ separator :: rest.toList := by
    simp
  rw [splitOn, hChars, splitChars_append_separator, List.map_append]
  rfl

theorem splitOn_behind (lead rest : String) :
    splitOn '.' (lead ++ "." ++ rest) = splitOn '.' lead ++ splitOn '.' rest :=
  splitOn_append_separator '.' lead rest

theorem joined_singleton_splitOn (separator : Char) (text : String) :
    joined (String.singleton separator) (splitOn separator text) = text := by
  have hPieces : (splitOn separator text).map String.toList = text.toList.splitOn separator := by
    rw [splitOn, splitChars_eq_splitOn, List.map_map]
    simp [Function.comp_def]
  rw [← String.toList_inj, joined, String.toList_intercalate, hPieces, String.toList_singleton]
  exact List.intercalate_splitOn separator

theorem joined_splitOn (text : String) : joined "." (splitOn '.' text) = text :=
  joined_singleton_splitOn '.' text

theorem splitOn_injective {a b : String} (h : splitOn '.' a = splitOn '.' b) : a = b := by
  rw [← joined_splitOn a, h, joined_splitOn]

theorem not_mem_of_mem_splitChars {separator : Char} {text piece : List Char}
    (h : piece ∈ splitChars separator text) : separator ∉ piece := by
  induction text generalizing piece with
  | nil =>
    cases List.mem_singleton.mp h
    exact List.not_mem_nil
  | cons c rest ih =>
    rw [splitChars] at h
    cases hRest : splitChars separator rest with
    | nil => exact absurd hRest (splitChars_ne_nil separator rest)
    | cons first pieces =>
      simp only [hRest] at h ih
      split at h
      · rcases List.mem_cons.mp h with rfl | h
        · exact List.not_mem_nil
        · exact ih h
      · rename_i hc
        rcases List.mem_cons.mp h with rfl | h
        · simp [Ne.symm hc, ih List.mem_cons_self]
        · exact ih (List.mem_cons_of_mem _ h)

theorem not_mem_of_mem_splitOn {separator : Char} {text piece : String}
    (h : piece ∈ splitOn separator text) : separator ∉ piece.toList := by
  obtain ⟨chars, hChars, rfl⟩ := List.mem_map.mp h
  rw [String.toList_ofList]
  exact not_mem_of_mem_splitChars hChars

end Text

namespace Key

variable {a b lead key : String}

/-- A key begins with another one and a point. -/
def Behind (lead key : String) : Prop :=
  ∃ rest, key = lead ++ "." ++ rest

theorem behind_iff : Behind lead key ↔
    ∃ segments, segments ≠ [] ∧ Text.splitOn '.' key = Text.splitOn '.' lead ++ segments := by
  constructor
  · rintro ⟨rest, rfl⟩
    exact ⟨_, Text.splitOn_ne_nil '.' rest, Text.splitOn_behind lead rest⟩
  · rintro ⟨segments, hNe, hSplit⟩
    have hFree : ∀ segment ∈ segments, '.' ∉ segment.toList := by
      intro segment hSegment
      have hMem : segment ∈ Text.splitOn '.' key := by
        rw [hSplit]
        exact List.mem_append_right _ hSegment
      exact Text.not_mem_of_mem_splitOn hMem
    refine ⟨Text.joined "." segments, Text.splitOn_injective ?_⟩
    rw [Text.splitOn_behind, Text.splitOn_joined hNe hFree, hSplit]

theorem Behind.lt (h : Behind lead key) : lead < key := by
  obtain ⟨rest, rfl⟩ := h
  rw [String.lt_iff]
  have hLonger : lead.toList ++ [] < lead.toList ++ ('.' :: rest.toList) :=
    List.append_left_lt (List.nil_lt_cons _ _)
  simpa using hLonger

theorem Behind.connected (hA : Behind a key) (hB : Behind b key) :
    a = b ∨ Behind a b ∨ Behind b a := by
  obtain ⟨xs, -, hXs⟩ := behind_iff.mp hA
  obtain ⟨ys, -, hYs⟩ := behind_iff.mp hB
  -- both cut the same segments into two parts
  rcases List.append_eq_append_iff.mp (hXs.symm.trans hYs) with ⟨more, hMore, -⟩ | ⟨more, hMore, -⟩
  · cases more with
    | nil => exact .inl (Text.splitOn_injective (by simpa using hMore.symm))
    | cons segment more => exact .inr (.inl (behind_iff.mpr ⟨_, List.cons_ne_nil _ _, hMore⟩))
  · cases more with
    | nil => exact .inl (Text.splitOn_injective (by simpa using hMore))
    | cons segment more => exact .inr (.inr (behind_iff.mpr ⟨_, List.cons_ne_nil _ _, hMore⟩))

/-- What is left of a key after its last point. -/
inductive LastSegment : String → String → Prop
  | whole {segment : String} (hFree : '.' ∉ segment.toList) : LastSegment segment segment
  | behind (lead : String) {segment : String} (hFree : '.' ∉ segment.toList) :
      LastSegment (lead ++ "." ++ segment) segment

theorem LastSegment.splitOn_eq {segment : String} (h : LastSegment key segment) :
    ∃ front, Text.splitOn '.' key = front ++ [segment] := by
  cases h with
  | whole hFree => exact ⟨[], Text.splitOn_of_not_mem hFree⟩
  | behind lead hFree =>
    refine ⟨Text.splitOn '.' lead, ?_⟩
    rw [Text.splitOn_behind, Text.splitOn_of_not_mem hFree]

theorem exists_lastSegment (key : String) : ∃ segment, LastSegment key segment := by
  have hNe := Text.splitOn_ne_nil '.' key
  have hFree : ∀ segment ∈ Text.splitOn '.' key, '.' ∉ segment.toList :=
    fun _ => Text.not_mem_of_mem_splitOn
  generalize hSplit : Text.splitOn '.' key = segments at hNe hFree
  obtain ⟨front, segment, rfl⟩ : ∃ front segment, segments = front ++ [segment] :=
    ⟨_, _, (List.dropLast_concat_getLast hNe).symm⟩
  have hSegment := hFree segment (by simp)
  have hLast := Text.splitOn_of_not_mem hSegment
  refine ⟨segment, ?_⟩
  by_cases hFront : front = []
  · have hKey : key = segment := Text.splitOn_injective (by simp [hSplit, hFront, hLast])
    rw [hKey]
    exact .whole hSegment
  · have hKey : key = Text.joined "." front ++ "." ++ segment := by
      apply Text.splitOn_injective
      rw [hSplit, Text.splitOn_behind, hLast, Text.splitOn_joined hFront]
      exact fun other hOther => hFree other (List.mem_append_left _ hOther)
    rw [hKey]
    exact .behind _ hSegment

end Key

end Startup
