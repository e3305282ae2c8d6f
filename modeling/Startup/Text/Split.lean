/-!
# Cutting a text at a character

`splitOn` cuts at every occurrence of a separator and `splitFirst` at the first one only; a text
without the separator is one piece.
-/

namespace Startup.Text

/-- The pieces between the occurrences of `separator`: always at least one, and none contains it. -/
def splitChars (separator : Char) : List Char → List (List Char)
  | [] => [[]]
  | c :: rest =>
    match splitChars separator rest with
    | [] => [[c]]
    | piece :: pieces => if c = separator then [] :: piece :: pieces else (c :: piece) :: pieces

theorem splitChars_ne_nil (separator : Char) (text : List Char) :
    splitChars separator text ≠ [] := by
  cases text with
  | nil => simp [splitChars]
  | cons c rest =>
    simp only [splitChars]
    split
    · simp
    · split <;> simp

theorem splitChars_of_not_mem {separator : Char} {text : List Char} (h : separator ∉ text) :
    splitChars separator text = [text] := by
  induction text with
  | nil => rfl
  | cons c rest ih =>
    obtain ⟨hHead, hTail⟩ := not_or.mp (mt List.mem_cons.mpr h)
    rw [splitChars, ih hTail]
    exact if_neg (Ne.symm hHead)

theorem splitChars_append {separator : Char} {piece : List Char} (h : separator ∉ piece)
    (rest : List Char) :
    splitChars separator (piece ++ separator :: rest) = piece :: splitChars separator rest := by
  induction piece with
  | nil =>
    rw [List.nil_append, splitChars]
    split
    · rename_i hNil
      exact absurd hNil (splitChars_ne_nil separator rest)
    · rename_i hCons
      rw [if_pos rfl, hCons]
  | cons c piece ih =>
    obtain ⟨hHead, hTail⟩ := not_or.mp (mt List.mem_cons.mpr h)
    rw [List.cons_append, splitChars, ih hTail]
    exact if_neg (Ne.symm hHead)

def splitOn (separator : Char) (text : String) : List String :=
  (splitChars separator text.toList).map String.ofList

theorem splitOn_of_not_mem {separator : Char} {text : String} (h : separator ∉ text.toList) :
    splitOn separator text = [text] := by
  rw [splitOn, splitChars_of_not_mem h, List.map_singleton, String.ofList_toList]

theorem splitOn_append {separator : Char} {piece : String} (h : separator ∉ piece.toList)
    (rest : String) :
    splitOn separator (piece ++ String.singleton separator ++ rest) =
      piece :: splitOn separator rest := by
  have hChars : (piece ++ String.singleton separator ++ rest).toList =
      piece.toList ++ separator :: rest.toList := by
    simp
  rw [splitOn, hChars, splitChars_append h, List.map_cons, String.ofList_toList]
  rfl

def splitFirstChars (separator : Char) : List Char → Option (List Char × List Char)
  | [] => none
  | c :: rest =>
    if c = separator then some ([], rest)
    else (splitFirstChars separator rest).map fun (before, after) => (c :: before, after)

theorem splitFirstChars_eq_some {separator : Char} {text before after : List Char}
    (h : splitFirstChars separator text = some (before, after)) :
    text = before ++ separator :: after ∧ separator ∉ before := by
  induction text generalizing before with
  | nil => simp [splitFirstChars] at h
  | cons c rest ih =>
    simp only [splitFirstChars] at h
    split at h
    · rename_i hc
      simp_all
    · rename_i hc
      obtain ⟨⟨b, a⟩, hba, heq⟩ := Option.map_eq_some_iff.mp h
      simp only [Prod.mk.injEq] at heq
      obtain ⟨rfl, rfl⟩ := heq
      obtain ⟨rfl, hb⟩ := ih hba
      exact ⟨rfl, by simp [hb, Ne.symm hc]⟩

theorem splitFirstChars_append {separator : Char} {before : List Char} (h : separator ∉ before)
    (after : List Char) :
    splitFirstChars separator (before ++ separator :: after) = some (before, after) := by
  induction before with
  | nil => simp [splitFirstChars]
  | cons c before ih =>
    obtain ⟨hHead, hTail⟩ := not_or.mp (mt List.mem_cons.mpr h)
    simp [splitFirstChars, Ne.symm hHead, ih hTail]

theorem splitFirstChars_eq_none_iff {separator : Char} {text : List Char} :
    splitFirstChars separator text = none ↔ separator ∉ text := by
  induction text with
  | nil => simp [splitFirstChars]
  | cons c rest ih =>
    simp only [splitFirstChars]
    split
    · rename_i hc
      simp [hc]
    · rename_i hc
      simp [ih, Ne.symm hc]

def splitFirst (separator : Char) (text : String) : Option (String × String) :=
  (splitFirstChars separator text.toList).map fun (before, after) =>
    (String.ofList before, String.ofList after)

theorem splitFirst_eq_some_iff {separator : Char} {text before after : String} :
    splitFirst separator text = some (before, after) ↔
      text = before ++ String.singleton separator ++ after ∧ separator ∉ before.toList := by
  rw [splitFirst, Option.map_eq_some_iff, ← String.toList_inj]
  constructor
  · rintro ⟨⟨left, right⟩, hChars, ⟨⟩⟩
    obtain ⟨hText, hFree⟩ := splitFirstChars_eq_some hChars
    rw [hText]
    simpa using hFree
  · rintro ⟨hText, hFree⟩
    have hPieces : text.toList = before.toList ++ separator :: after.toList := by
      rw [hText]
      simp
    exact ⟨_, hPieces ▸ splitFirstChars_append hFree _, by simp⟩

theorem splitFirst_eq_none_iff {separator : Char} {text : String} :
    splitFirst separator text = none ↔ separator ∉ text.toList := by
  rw [splitFirst, Option.map_eq_none_iff, splitFirstChars_eq_none_iff]

def stripLeadChars : List Char → List Char → Option (List Char)
  | [], text => some text
  | _ :: _, [] => none
  | c :: lead, d :: text => if c = d then stripLeadChars lead text else none

theorem stripLeadChars_eq_some_iff {lead text rest : List Char} :
    stripLeadChars lead text = some rest ↔ text = lead ++ rest := by
  induction lead generalizing text with
  | nil => simp [stripLeadChars]
  | cons c lead ih =>
    cases text with
    | nil => simp [stripLeadChars]
    | cons d text =>
      by_cases h : c = d
      · simp [stripLeadChars, h, ih]
      · simp [stripLeadChars, h, Ne.symm h]

def stripLead (lead text : String) : Option String :=
  (stripLeadChars lead.toList text.toList).map String.ofList

theorem stripLead_eq_some_iff {lead text rest : String} :
    stripLead lead text = some rest ↔ text = lead ++ rest := by
  rw [stripLead, Option.map_eq_some_iff, ← String.toList_inj, String.toList_append]
  constructor
  · rintro ⟨chars, hChars, rfl⟩
    rw [stripLeadChars_eq_some_iff.mp hChars, String.toList_ofList]
  · intro h
    exact ⟨rest.toList, stripLeadChars_eq_some_iff.mpr h, String.ofList_toList⟩

end Startup.Text
