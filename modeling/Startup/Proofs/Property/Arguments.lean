import Startup.Property.Arguments

/-!
# What arguments assign

An option is written with two hyphens, its key, and then an equals sign and a text; without an
equals sign its text is empty. Two hyphens alone are no option. Of several options with one key the
last one counts.
-/

namespace Startup.Argument

/-- How an option is written. The key ends at the first equals sign. -/
inductive Assigns : String → String → String → Prop
  | valued (key text : String) (hKey : '=' ∉ key.toList) :
      Assigns ("--" ++ (key ++ "=" ++ text)) key text
  | bare (key : String) (hKey : '=' ∉ key.toList) (hNonempty : key ≠ "") :
      Assigns ("--" ++ key) key ""

theorem splitFirst_equals_iff {body key text : String} :
    Text.splitFirst '=' body = some (key, text) ↔
      body = key ++ "=" ++ text ∧ '=' ∉ key.toList := by
  have hEquals : String.singleton '=' = "=" := by decide
  rw [Text.splitFirst_eq_some_iff, hEquals]

theorem assignment?_ofText {argument key text : String} :
    (ofText argument).assignment? = some (key, text) ↔ Assigns argument key text := by
  constructor
  · intro h
    unfold ofText at h
    split at h
    · cases h
    · rename_i body hBody
      obtain rfl := Text.stripLead_eq_some_iff.mp hBody
      split at h
      · cases h
      · rename_i hNonempty
        split at h
        · rename_i before after hSplit
          cases h
          obtain ⟨rfl, hKey⟩ := splitFirst_equals_iff.mp hSplit
          exact .valued key text hKey
        · rename_i hSplit
          cases h
          exact .bare _ (Text.splitFirst_eq_none_iff.mp hSplit) hNonempty
  · rintro (⟨_, _, hKey⟩ | ⟨_, hKey, hNonempty⟩)
    · have hLead := Text.stripLead_eq_some_iff.mpr (rfl : "--" ++ (key ++ "=" ++ text) = _)
      have hSplit := splitFirst_equals_iff.mpr ⟨(rfl : key ++ "=" ++ text = _), hKey⟩
      have hNonempty : key ++ "=" ++ text ≠ "" := by
        intro hEmpty
        simpa using congrArg String.toList hEmpty
      simp only [ofText, hLead, if_neg hNonempty, hSplit, assignment?]
    · have hLead := Text.stripLead_eq_some_iff.mpr (rfl : "--" ++ key = _)
      have hSplit := Text.splitFirst_eq_none_iff.mpr hKey
      simp only [ofText, hLead, if_neg hNonempty, hSplit, assignment?]

/-- No option has the key. -/
def Spare (arguments : List String) (key : String) : Prop :=
  ∀ argument ∈ arguments, ∀ text, ¬ Assigns argument key text

/-- The last option with the key has the text. -/
def LastAssigns (arguments : List String) (key text : String) : Prop :=
  ∃ before argument after, arguments = before ++ argument :: after ∧ Assigns argument key text ∧
    Spare after key

theorem assignments_append (a b : List String) :
    assignments (a ++ b) = assignments a ++ assignments b :=
  List.filterMap_append

theorem assignments_option (key text : String) (h : '=' ∉ key.toList) :
    assignments ["--" ++ (key ++ "=" ++ text)] = [(key, text)] := by
  have hAssigns := assignment?_ofText.mpr (.valued key text h)
  rw [assignments, List.filterMap_cons, hAssigns]
  rfl

theorem spare_iff {arguments : List String} {key : String} :
    Spare arguments key ↔ ∀ assignment ∈ assignments arguments, assignment.1 ≠ key := by
  constructor
  · rintro hSpare ⟨other, text⟩ hMem rfl
    obtain ⟨argument, hArgument, hText⟩ := List.mem_filterMap.mp hMem
    exact hSpare argument hArgument text (assignment?_ofText.mp hText)
  · intro hOther argument hArgument text hAssigns
    have hText := assignment?_ofText.mpr hAssigns
    exact hOther (key, text) (List.mem_filterMap.mpr ⟨argument, hArgument, hText⟩) rfl

theorem spare_of_lookup {arguments : List String} {key : String}
    (h : (assignments arguments).reverse.lookup key = none) : Spare arguments key := by
  apply spare_iff.mpr
  intro assignment hMem hKey
  have hOther := List.lookup_eq_none_iff.mp h assignment (List.mem_reverse.mpr hMem)
  simp [hKey] at hOther

theorem lastAssigns_of_lookup {arguments : List String} {key text : String}
    (h : (assignments arguments).reverse.lookup key = some text) :
    LastAssigns arguments key text := by
  obtain ⟨later, earlier, hSplit, hLater⟩ := List.lookup_eq_some_iff.mp h
  have hPieces : assignments arguments = earlier.reverse ++ (key, text) :: later.reverse := by
    rw [← List.reverse_reverse (assignments arguments), hSplit]
    simp
  obtain ⟨before, rest, rfl, -, hRest⟩ := List.filterMap_eq_append_iff.mp hPieces
  obtain ⟨plains, argument, after, rfl, -, hArgument, hAfter⟩ := List.filterMap_eq_cons_iff.mp hRest
  refine ⟨before ++ plains, argument, after, (List.append_assoc ..).symm,
    assignment?_ofText.mp hArgument, ?_⟩
  apply spare_iff.mpr
  intro assignment hMem hKey
  rw [assignments, hAfter, List.mem_reverse] at hMem
  have hOther := hLater assignment hMem
  simp [hKey] at hOther

end Startup.Argument
