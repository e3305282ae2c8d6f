import Startup.Proofs.Binding.Flat

/-!
# Texts and characters of a group

A map of texts has every property of its group as it stands, provided that no key has a point
behind the group's. A map of characters has those that are not blank: a text is trimmed before its
character is looked for, and of a blank one nothing remains.
-/

namespace Startup

namespace Text

theorem trimChars_singleton (c : Char) : trimChars [c] = if isBlank c then [] else [c] := by
  cases hBlank : isBlank c <;> simp [trimChars, trimStart, trimEnd, hBlank]

end Text

theorem BindingProblem.message_invalidValue (text expected : String) :
    (invalidValue text expected).message =
      "invalid value: string " ++ Text.quoted text ++ ", expected " ++ expected := rfl

namespace Schema

open PropertyTree (leaves)

theorem text_leaf_of_bind {tree : PropertyTree} {value : Bound}
    (h : Schema.text.bind tree = .ok value) : ∃ text, tree = .leaf text := by
  cases tree with
  | leaf text => exact ⟨text, rfl⟩
  | group children => cases h

theorem bind_texts_leaves (entries : List (String × String)) :
    (Schema.map .text).bind (.group (leaves entries)) =
      .ok (.map (entries.map fun entry => (entry.1, .text entry.2))) := by
  apply bind_map_of_binds
  rw [leaves, List.forall₂_map_left_iff, List.forall₂_map_right_iff]
  exact List.forall₂_same.mpr fun entry _ => ⟨rfl, rfl⟩

theorem bind_char_leaf {c : Char} (h : Text.isBlank c = false) :
    Schema.char.bind (.leaf (String.singleton c)) = .ok (.char c) := by
  rw [Schema.bind, PropertyTree.scalar, String.toList_singleton, Text.trimChars_singleton, h]
  rfl

theorem bind_char_leaf_blank {c : Char} (h : Text.isBlank c = true) :
    Schema.char.bind (.leaf (String.singleton c)) =
      .error (.invalidValue (String.singleton c) "a character") := by
  rw [Schema.bind, PropertyTree.scalar, String.toList_singleton, Text.trimChars_singleton, h]
  rfl

/-- The text of each character. -/
def letters (characters : List (String × Char)) : List (String × String) :=
  characters.map fun entry => (entry.1, String.singleton entry.2)

theorem bind_letters_leaves {characters : List (String × Char)}
    (hFree : ∀ entry ∈ characters, Text.isBlank entry.2 = false) :
    (Schema.map .char).bind (.group (leaves (letters characters))) =
      .ok (.map (characters.map fun entry => (entry.1, .char entry.2))) := by
  apply bind_map_of_binds
  rw [leaves, letters, List.map_map, List.forall₂_map_left_iff, List.forall₂_map_right_iff]
  exact List.forall₂_same.mpr fun entry hEntry => ⟨rfl, bind_char_leaf (hFree entry hEntry)⟩

/-- The first blank character is refused. -/
theorem bind_letters_blank {characters : List (String × Char)} {entry : String × Char}
    (hFirst : characters.find? (fun entry => Text.isBlank entry.2) = some entry) :
    (Schema.map .char).bind (.group (leaves (letters characters))) =
      .error (.invalidValue (String.singleton entry.2) "a character") := by
  obtain ⟨hBlank, before, after, rfl, hBefore⟩ := List.find?_eq_some_iff_append.mp hFirst
  rw [leaves, letters, List.map_map, List.map_append, List.map_cons]
  apply bind_map_error
  · intro child hChild
    obtain ⟨other, hOther, rfl⟩ := List.mem_map.mp hChild
    have hFree : Text.isBlank other.2 = false := by simpa using hBefore other hOther
    exact ⟨.char other.2, bind_char_leaf hFree⟩
  · exact bind_char_leaf_blank hBlank

end Schema

namespace Properties

variable {properties : Properties} {group : String}

theorem flat_below_iff : PropertyTree.Flat (properties.below group) ↔
    ∀ rest, properties.contains (group ++ "." ++ rest) = true → '.' ∉ rest.toList := by
  constructor
  · intro hFlat rest hRest
    obtain ⟨text, hMem⟩ := contains_below_iff.mp hRest
    exact hFlat _ hMem
  · rintro hFree ⟨rest, text⟩ hMem
    exact hFree rest (contains_below_iff.mpr ⟨text, hMem⟩)

theorem bind_flat (hFlat : PropertyTree.Flat (properties.below group)) (schema : Schema) :
    properties.bind group schema =
      (schema.bind (.group (PropertyTree.leaves (properties.below group)))).mapError fun problem =>
        .bindingFailed group problem.message :=
  bind_of_holds (PropertyTree.holds_leaves (ordered_below properties group) hFlat) schema

theorem bind_texts_flat (hFlat : PropertyTree.Flat (properties.below group)) :
    properties.bind group (.map .text) =
      .ok (.map ((properties.below group).map fun entry => (entry.1, .text entry.2))) := by
  rw [bind_flat hFlat, Schema.bind_texts_leaves]
  rfl

theorem flat_of_bind_texts {value : Bound} (h : properties.bind group (.map .text) = .ok value) :
    PropertyTree.Flat (properties.below group) := by
  obtain ⟨children, hHolds, hValue⟩ := bind_ok_inv h
  obtain ⟨entries, rfl, hEntries⟩ := Schema.bind_map_inv hValue
  apply hHolds.flat
  intro child hChild
  obtain ⟨entry, hBinds⟩ := exists_of_forall₂ hEntries hChild
  exact Schema.text_leaf_of_bind hBinds.2

/-- Texts are bound just if no key of the group has a further point, and then the map has each
property of the group once, with its text as it stands. Texts that are set below a group without
other properties are therefore given back, whatever the order of the assignments. -/
theorem bind_texts (properties : Properties) (group : String) :
    ((∃ value, properties.bind group (.map .text) = .ok value) ↔
      ∀ rest, properties.contains (group ++ "." ++ rest) = true → '.' ∉ rest.toList) ∧
    (∀ value, properties.bind group (.map .text) = .ok value →
      ∃ entries, value = .map (entries.map fun entry => (entry.1, .text entry.2)) ∧
        Keyed.Ordered entries ∧ ∀ name text, (name, text) ∈ entries ↔
          properties.get? (group ++ "." ++ name) = some text) ∧
    ∀ entries calls, Keyed.Ordered entries → (∀ name ∈ Keyed.keys entries, '.' ∉ name.toList) →
      (∀ name, name ∉ Keyed.keys entries → properties.get? (group ++ "." ++ name) = none) →
      calls.Perm (entries.map fun entry => (group ++ "." ++ entry.1, entry.2)) →
      (properties.setAll calls).bind group (.map .text) =
        .ok (.map (entries.map fun entry => (entry.1, .text entry.2))) := by
  refine ⟨?_, ?_, ?_⟩
  · rw [← flat_below_iff]
    constructor
    · rintro ⟨value, hValue⟩
      exact flat_of_bind_texts hValue
    · exact fun hFlat => ⟨_, bind_texts_flat hFlat⟩
  · intro value hValue
    cases (bind_texts_flat (flat_of_bind_texts hValue)).symm.trans hValue
    exact ⟨_, rfl, ordered_below properties group, fun _ _ => mem_below_iff_get?⟩
  · intro entries calls hOrdered hNames hOthers hCalls
    have hBelow := below_setAll hOrdered hCalls hOthers
    have hFlat : PropertyTree.Flat ((properties.setAll calls).below group) := by
      rw [hBelow]
      exact fun entry hEntry => hNames _ (List.mem_map_of_mem hEntry)
    rw [bind_texts_flat hFlat, hBelow]

/-- A number and a boolean stay texts, and the earlier text of a key is gone. The empty segment
behind a point is one more. -/
theorem bind_texts_replaced :
    ((empty.set "p.b" "old").setAll [("p.b", "true"), ("p.a", " 1 ")]).bind "p" (.map .text) =
      .ok (.map [("a", .text " 1 "), ("b", .text "true")]) ∧
    ¬ ∃ value, (empty.set "p.a." "1").bind "p" (.map .text) = .ok value := by
  constructor
  · refine (bind_texts (empty.set "p.b" "old") "p").2.2 [("a", " 1 "), ("b", "true")] _
      ?_ ?_ ?_ (List.Perm.swap _ _ _)
    · exact List.pairwise_pair.mpr (by decide)
    · decide
    · intro name hName
      have hKey : "p" ++ "." ++ name ≠ "p.b" := by
        intro hSame
        obtain rfl : name = "b" := (String.append_right_inj ("p" ++ ".")).mp hSame
        exact hName (by decide)
      rw [get?_set, if_neg hKey, get?_empty]
  · intro hBound
    exact (bind_texts (empty.set "p.a." "1") "p").1.mp hBound "a." rfl (by decide)

/-- Characters that are set below a group are given back just if none of them is blank. Otherwise
the first blank one is refused, although its text is that of one character. -/
theorem bind_characters {characters : List (String × Char)} (hOrdered : Keyed.Ordered characters)
    (hNames : ∀ name ∈ Keyed.keys characters, '.' ∉ name.toList) (group : String)
    {calls : List (String × String)} (hCalls : calls.Perm
      (characters.map fun entry => (group ++ "." ++ entry.1, String.singleton entry.2))) :
    let bound := (empty.setAll calls).bind group (.map .char)
    (bound = .ok (.map (characters.map fun entry => (entry.1, .char entry.2))) ↔
      ∀ entry ∈ characters, Text.isBlank entry.2 = false) ∧
    ∀ entry, characters.find? (fun entry => Text.isBlank entry.2) = some entry →
      bound = .error (.bindingFailed group ("invalid value: string " ++
        Text.quoted (String.singleton entry.2) ++ ", expected a character")) := by
  intro bound
  have hBelow : (empty.setAll calls).below group = Schema.letters characters := by
    refine below_setAll (hOrdered.map String.singleton) ?_ fun name _ => get?_empty _
    rwa [under, Schema.letters, List.map_map]
  have hFlat : PropertyTree.Flat ((empty.setAll calls).below group) := by
    rw [hBelow]
    intro entry hEntry
    obtain ⟨letter, hLetter, rfl⟩ := List.mem_map.mp hEntry
    exact hNames _ (List.mem_map_of_mem hLetter)
  have hBound : bound = ((Schema.map .char).bind (.group
      (PropertyTree.leaves (Schema.letters characters)))).mapError fun problem =>
        .bindingFailed group problem.message := by
    rw [← hBelow]
    exact bind_flat hFlat _
  clear_value bound
  have hFirst (entry : String × Char)
      (hEntry : characters.find? (fun entry => Text.isBlank entry.2) = some entry) :
      bound = .error (.bindingFailed group ("invalid value: string " ++
        Text.quoted (String.singleton entry.2) ++ ", expected a character")) := by
    rw [hBound, Schema.bind_letters_blank hEntry, Except.mapError,
      BindingProblem.message_invalidValue, String.append_assoc]
    rfl
  refine ⟨⟨fun hKept => ?_, fun hFree => ?_⟩, hFirst⟩
  · cases hFind : characters.find? fun entry => Text.isBlank entry.2 with
    | none => simpa using hFind
    | some entry =>
      rw [hFirst entry hFind] at hKept
      cases hKept
  · rw [hBound, Schema.bind_letters_leaves hFree]
    rfl

theorem bind_characters_separators :
    (empty.setAll [("p.psv", "|"), ("p.csv", ",")]).bind "p" (.map .char) =
      .ok (.map [("csv", .char ','), ("psv", .char '|')]) := by
  have hOrdered : Keyed.Ordered [("csv", ','), ("psv", '|')] := List.pairwise_pair.mpr (by decide)
  exact (bind_characters hOrdered (by decide) "p" (List.Perm.swap _ _ _)).1.mpr (by decide)

/-- The text of a space is that of one character, and is refused. -/
theorem space_refused : "p.a" = "p" ++ "." ++ "a" ∧ " " = String.singleton ' ' ∧
    (empty.setAll [("p.a", " ")]).bind "p" (.map .char) =
      .error (.bindingFailed "p" "invalid value: string \" \", expected a character") ∧
    (empty.setAll [("p.a", " ")]).bind "p" (.map .char) ≠ .ok (.map [("a", .char ' ')]) := by
  have hRefused : (empty.setAll [("p.a", " ")]).bind "p" (.map .char) =
      .error (.bindingFailed "p" "invalid value: string \" \", expected a character") := rfl
  refine ⟨rfl, rfl, hRefused, ?_⟩
  rw [hRefused]
  exact nofun

end Properties

end Startup
