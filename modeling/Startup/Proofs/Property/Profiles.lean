import Startup.Proofs.Property.Segments

/-!
# Active profiles

A list of profiles is a text of pieces with commas between them, each of which is a name between
blanks or blank altogether. Which names those are does not depend on how they are spaced out, so
names that were read are read again from any text that lists them.
-/

namespace Startup.Properties

/-- A name is not empty, has no comma and no blank at either end. Blanks inside of it are kept. -/
structure IsProfile (name : String) : Prop where
  filled : name ≠ ""
  free : ',' ∉ name.toList
  trimmed : Text.Trimmed name.toList

/-- Pieces that are blank stand between those with names. -/
inductive Spaced : List String → List String → Prop
  | nil : Spaced [] []
  | blank {piece : String} {pieces names : List String} (hBlank : Text.Blank piece)
      (h : Spaced pieces names) : Spaced (piece :: pieces) names
  | name {before name after : String} {pieces names : List String} (hBefore : Text.Blank before)
      (hName : IsProfile name) (hAfter : Text.Blank after) (h : Spaced pieces names) :
      Spaced ((before ++ name ++ after) :: pieces) (name :: names)

/-- A text with some names between commas and blanks. -/
def Lists (text : String) (names : List String) : Prop :=
  ∃ pieces, text = Text.joined "," pieces ∧ Spaced pieces names

variable {piece text : String} {pieces names : List String}

theorem comma_not_mem_of_blank (h : Text.Blank piece) : ',' ∉ piece.toList := by
  intro hComma
  have hBlank := h ',' hComma
  exact absurd hBlank (by decide)

theorem trim_eq_empty_of_blank (h : Text.Blank piece) : Text.trim piece = "" := by
  have hNone : Text.Trimmed [] := ⟨nofun, nofun⟩
  have hTrim : Text.trimChars (piece.toList ++ [] ++ []) = [] := hNone.trimChars_append h nofun
  rw [List.append_nil, List.append_nil] at hTrim
  rw [Text.trim, hTrim]

theorem IsProfile.trim_append {before name after : String} (hName : IsProfile name)
    (hBefore : Text.Blank before) (hAfter : Text.Blank after) :
    Text.trim (before ++ name ++ after) = name := by
  rw [Text.trim, String.toList_append, String.toList_append,
    hName.trimmed.trimChars_append hBefore hAfter, String.ofList_toList]

/-- A piece is blank, or a name between blanks. -/
theorem blank_or_name (hFree : ',' ∉ piece.toList) :
    Text.Blank piece ∧ Text.trim piece = "" ∨ ∃ before after,
      piece = before ++ Text.trim piece ++ after ∧ Text.Blank before ∧ Text.Blank after ∧
        IsProfile (Text.trim piece) := by
  obtain ⟨before, after, hPiece, hBefore, hAfter⟩ := Text.exists_trimmed piece.toList
  by_cases hTrim : Text.trim piece = ""
  · refine .inl ⟨fun c hc => ?_, hTrim⟩
    have hNone : Text.trimChars piece.toList = [] := by
      rw [← Text.toList_trim, hTrim]
      rfl
    rw [hPiece, hNone, List.append_nil] at hc
    exact (List.mem_append.mp hc).elim (hBefore c) (hAfter c)
  · refine .inr ⟨String.ofList before, String.ofList after, ?_, ?_, ?_, hTrim, ?_, ?_⟩
    · rw [← String.toList_inj]
      simpa using hPiece
    · simpa [Text.Blank] using hBefore
    · simpa [Text.Blank] using hAfter
    · rw [Text.toList_trim]
      intro hComma
      apply hFree
      rw [hPiece]
      simp [hComma]
    · rw [Text.toList_trim]
      exact Text.trimmed_trimChars _

theorem Spaced.comma_not_mem (h : Spaced pieces names) :
    ∀ piece ∈ pieces, ',' ∉ piece.toList := by
  induction h with
  | nil => exact nofun
  | blank hBlank _ ih => exact List.forall_mem_cons.mpr ⟨comma_not_mem_of_blank hBlank, ih⟩
  | name hBefore hName hAfter _ ih =>
    refine List.forall_mem_cons.mpr ⟨?_, ih⟩
    simp [comma_not_mem_of_blank hBefore, hName.free, comma_not_mem_of_blank hAfter]

theorem Spaced.filter_trim (h : Spaced pieces names) :
    (pieces.map Text.trim).filter (fun name => name ≠ "") = names := by
  induction h with
  | nil => rfl
  | blank hBlank _ ih => simpa [trim_eq_empty_of_blank hBlank] using ih
  | name hBefore hName hAfter _ ih =>
    simpa [hName.trim_append hBefore hAfter, hName.filled] using ih

theorem spaced_filter_trim (hFree : ∀ piece ∈ pieces, ',' ∉ piece.toList) :
    Spaced pieces ((pieces.map Text.trim).filter fun name => name ≠ "") := by
  induction pieces with
  | nil => exact .nil
  | cons piece pieces ih =>
    obtain ⟨hPiece, hPieces⟩ := List.forall_mem_cons.mp hFree
    rcases blank_or_name hPiece with ⟨hBlank, hTrim⟩ | ⟨before, after, hSplit, hBefore, hAfter, hName⟩
    · simpa [hTrim] using Spaced.blank hBlank (ih hPieces)
    · have hNext := Spaced.name hBefore hName hAfter (ih hPieces)
      rw [← hSplit] at hNext
      simpa [hName.filled] using hNext

theorem Spaced.isProfile (h : Spaced pieces names) : ∀ name ∈ names, IsProfile name := by
  induction h with
  | nil => exact nofun
  | blank _ _ ih => exact ih
  | name _ hName _ _ ih => exact List.forall_mem_cons.mpr ⟨hName, ih⟩

theorem spaced_self (h : ∀ name ∈ names, IsProfile name) : Spaced names names := by
  induction names with
  | nil => exact .nil
  | cons name names ih =>
    obtain ⟨hName, hNames⟩ := List.forall_mem_cons.mp h
    have hNext : Spaced (("" ++ name ++ "") :: names) (name :: names) :=
      .name nofun hName nofun (ih hNames)
    simpa using hNext

/-- The names in a text are those that it lists, and no others are listed by it. -/
theorem profileNames_eq_iff : profileNames text = names ↔ Lists text names := by
  constructor
  · rintro rfl
    refine ⟨Text.splitOn ',' text, (Text.joined_singleton_splitOn ',' text).symm, ?_⟩
    exact spaced_filter_trim fun piece hPiece => Text.not_mem_of_mem_splitOn hPiece
  · rintro ⟨pieces, rfl, hSpaced⟩
    cases pieces with
    | nil =>
      cases hSpaced
      rfl
    | cons piece pieces =>
      have hSplit : Text.splitOn ',' (Text.joined "," (piece :: pieces)) = piece :: pieces :=
        Text.splitOn_joined_singleton (List.cons_ne_nil _ _) hSpaced.comma_not_mem
      rw [profileNames, hSplit]
      exact hSpaced.filter_trim

theorem profiles_eq_of_get? {properties : Properties} (h : properties.get? profilesKey = some text) :
    properties.profiles = profileNames text := by
  rw [profiles, h]
  rfl

/-- The active profiles are the names that the property lists, each as often as it stands there and
in this order. They are read again from any text that lists them, so from these names with commas
between them. -/
theorem profiles_listed {properties : Properties} (hText : properties.get? profilesKey = some text) :
    (∀ names, properties.profiles = names ↔ Lists text names) ∧
      (∀ name ∈ properties.profiles, IsProfile name) ∧
      (properties.set profilesKey (Text.joined "," properties.profiles)).profiles =
        properties.profiles := by
  have hProfiles := profiles_eq_of_get? hText
  have hNames : ∀ name ∈ properties.profiles, IsProfile name := by
    obtain ⟨pieces, -, hSpaced⟩ := profileNames_eq_iff.mp hProfiles.symm
    exact hSpaced.isProfile
  refine ⟨fun names => ?_, hNames, ?_⟩
  · rw [hProfiles]
    exact profileNames_eq_iff
  · have hSet : (properties.set profilesKey (Text.joined "," properties.profiles)).get? profilesKey =
        some (Text.joined "," properties.profiles) := by
      rw [get?_set, if_pos rfl]
    rw [profiles_eq_of_get? hSet]
    exact profileNames_eq_iff.mpr ⟨properties.profiles, rfl, spaced_self hNames⟩

/-- A name twice, one with a blank inside, and two pieces that are blank or empty. -/
def paddedText : String :=
  " dev ,,local profile\t,\u3000\n,dev"

theorem profiles_listed_padded : ∃ properties : Properties,
    properties.get? profilesKey = some paddedText ∧
      Lists paddedText ["dev", "local profile", "dev"] ∧
      properties.profiles = ["dev", "local profile", "dev"] ∧
      (properties.set profilesKey "dev,local profile,dev").profiles =
        ["dev", "local profile", "dev"] := by
  have hText : (empty.set profilesKey paddedText).get? profilesKey = some paddedText := rfl
  obtain ⟨hLists, -, hAgain⟩ := profiles_listed hText
  have hProfiles : (empty.set profilesKey paddedText).profiles = ["dev", "local profile", "dev"] := by
    decide
  rw [hProfiles] at hAgain
  exact ⟨_, hText, (hLists _).mp hProfiles, hProfiles, hAgain⟩

end Startup.Properties
