import Startup.Proofs.Binding.Integer
import Startup.Proofs.Json.Spelling

/-!
# Texts bound with and without a type

What an untyped target makes of a text is what a typed one reads there: the same boolean, the same
integer in every width that has it, and a text as it stands. The two readers differ only in what
else they accept, for the blanks of a document are blanks, and its numerals are written with a sign
and digits.
-/

namespace Startup

namespace Text

theorem isBlank_of_json {c : Char} (h : Json.isBlank c = true) : isBlank c = true := by
  simp only [Json.isBlank, Bool.or_eq_true, beq_iff_eq] at h
  apply isBlank_of_isWhitespace
  rcases h with ((rfl | rfl) | rfl) | rfl <;> decide

theorem Numerates.unique {isSigned : Bool} {chars : List Char} {m n : Int}
    (hM : Numerates isSigned chars m) (hN : Numerates true chars n) : m = n := by
  cases hM with
  | plain hDigits =>
    cases hN with
    | plain _ => rfl
    | plus _ => exact absurd hDigits (not_digits_cons rfl _)
    | minus _ _ => exact absurd hDigits (not_digits_cons rfl _)
  | plus hDigits => exact (numerates_plus_iff.mp hN).2
  | minus _ hDigits => exact (numerates_minus_iff.mp hN).2.2

end Text

namespace Schema

open Json (Shows)

variable {shown : String} {n : Int}

/-- Without its blanks a text is what the value is printed as. -/
theorem trimChars_of_shows {value : Json} (h : Shows value shown)
    (hPrint : ∀ c ∈ value.print.toList, Text.isBlank c = false) :
    Text.trimChars shown.toList = value.print.toList := by
  obtain ⟨hBefore, hAfter⟩ := h
  rw [String.toList_append, String.toList_append]
  exact Text.trimChars_append (fun c hc => Text.isBlank_of_json (hBefore c hc))
    (fun c hc => Text.isBlank_of_json (hAfter c hc)) hPrint

theorem bind_untyped_leaf (shown : String) :
    Schema.untyped.bind (.leaf shown) = .ok (.document (Json.untyped shown)) := rfl

theorem bind_bool_of_shows {b : Bool} (h : Shows (.bool b) shown) :
    Schema.bool.bind (.leaf shown) = .ok (.bool b) := by
  have hPrint : ∀ c ∈ (Json.bool b).print.toList, Text.isBlank c = false := by
    cases b <;> simp [Json.print, Text.isBlank]
  have hTrim := trimChars_of_shows h hPrint
  rw [Schema.bind, PropertyTree.scalar, hTrim]
  cases b <;> rfl

theorem numerates_of_shows (h : Shows (.integer n) shown) :
    Text.Numerates true (Text.trimChars shown.toList) n := by
  have hNumeral : Text.Numerates true (Json.integer n).print.toList n :=
    Text.numerates_decimal (.inl rfl)
  rwa [trimChars_of_shows h hNumeral.not_blank]

theorem writes_of_shows {width : Width} (h : Shows (.integer n) shown) (hRange : width.Spans n) :
    Writes width shown n := by
  obtain ⟨hBefore, hAfter⟩ := h
  exact writes_decimal hRange (fun c hc => Text.isBlank_of_json (hBefore c hc))
    (fun c hc => Text.isBlank_of_json (hAfter c hc))

theorem eq_of_writes {width : Width} {m : Int} (h : Shows (.integer n) shown)
    (hWrites : Writes width shown m) : m = n :=
  (writes_iff.mp hWrites).1.unique (numerates_of_shows h)

/-- Where an untyped target reads a boolean or an integer, a typed one reads it too and nothing
else, and an integer target that has no such value refuses the text. Untyped, both are read from
what a document has for them between blanks, integers if they have 64 bits; a target of 128 bits
refuses every text. A text that is not read is kept as it stands, like by a target for texts. -/
theorem bind_leaf_agrees (shown : String) :
    (∀ b, Schema.untyped.bind (.leaf shown) = .ok (.document (.bool b)) ↔
      Shows (.bool b) shown) ∧
    (∀ b, Schema.untyped.bind (.leaf shown) = .ok (.document (.bool b)) →
      ∀ value, Schema.bool.bind (.leaf shown) = .ok value ↔ value = .bool b) ∧
    (∀ n, Schema.untyped.bind (.leaf shown) = .ok (.document (.integer n)) ↔
      Json.Fits n ∧ Shows (.integer n) shown) ∧
    (∀ n, Schema.untyped.bind (.leaf shown) = .ok (.document (.integer n)) →
      (∀ width : Width, width.Spans n → ∀ value,
        (Schema.integer width).bind (.leaf shown) = .ok value ↔ value = .integer n) ∧
      (∀ width : Width, ¬ width.Spans n →
        (Schema.integer width).bind (.leaf shown) = .error (.invalidValue shown width.name))) ∧
    (∀ isSigned, (Schema.wide isSigned).bind (.leaf shown) =
      .error (.unsupported (integerName isSigned 128))) ∧
    ∀ found, Schema.untyped.bind (.leaf shown) = .ok (.document (.text found)) →
      found = shown ∧ Schema.text.bind (.leaf shown) = .ok (.text shown) := by
  simp only [bind_untyped_leaf, Except.ok.injEq, Bound.document.injEq]
  refine ⟨fun b => Json.untyped_eq_bool_iff, fun b hUntyped value => ?_,
    fun n => Json.untyped_eq_integer_iff,
    fun n hUntyped => ⟨fun width hRange value => ?_, fun width hRange => ?_⟩, fun _ => rfl,
    fun found hUntyped => ⟨Json.untyped_eq_text_inv hUntyped, rfl⟩⟩
  · rw [bind_bool_of_shows (Json.untyped_eq_bool_iff.mp hUntyped), Except.ok.injEq, eq_comm]
  · have hShows := (Json.untyped_eq_integer_iff.mp hUntyped).2
    rw [bind_integer_of_writes (writes_of_shows hShows hRange), Except.ok.injEq, eq_comm]
  · have hShows := (Json.untyped_eq_integer_iff.mp hUntyped).2
    apply bind_integer_of_not_writes
    intro m hWrites
    exact hRange (eq_of_writes hShows hWrites ▸ (writes_iff.mp hWrites).2)

/-- The least integer of a document, with a line break in front. -/
theorem bind_leaf_agrees_least :
    Schema.untyped.bind (.leaf "\n-9223372036854775808") =
      .ok (.document (.integer (-9223372036854775808))) ∧
    (Schema.integer ⟨true, 64, by decide⟩).bind (.leaf "\n-9223372036854775808") =
      .ok (.integer (-9223372036854775808)) ∧
    (Schema.integer ⟨false, 64, by decide⟩).bind (.leaf "\n-9223372036854775808") =
      .error (.invalidValue "\n-9223372036854775808" "u64") := by
  obtain ⟨-, -, hWritten, hTyped, -⟩ := bind_leaf_agrees "\n-9223372036854775808"
  have hFits : Json.Fits (-9223372036854775808) := by
    rw [Json.Fits]
    decide
  have hBefore : Json.Blank "\n" := List.forall_mem_singleton.mpr rfl
  have hAfter : Json.Blank "" := List.forall_mem_nil _
  have hShows : Shows (.integer (-9223372036854775808)) "\n-9223372036854775808" :=
    .intro hBefore hAfter
  have hUntyped := (hWritten _).mpr ⟨hFits, hShows⟩
  obtain ⟨hHeld, hOther⟩ := hTyped _ hUntyped
  have hSigned : Width.Spans ⟨true, 64, by decide⟩ (-9223372036854775808) := by
    rw [Width.Spans]
    decide
  have hUnsigned : ¬ Width.Spans ⟨false, 64, by decide⟩ (-9223372036854775808) := by
    rw [Width.Spans]
    decide
  exact ⟨hUntyped, (hHeld _ hSigned _).mpr rfl, hOther _ hUnsigned⟩

/-- An integer of 128 bits could be five, but there is no target for it. -/
theorem wide_refuses_five :
    (-(2 ^ 127) ≤ (5 : Int) ∧ (5 : Int) < 2 ^ 127) ∧
    (Properties.empty.set "p.n" "5").bind "p" (.map .untyped) =
      .ok (.map [("n", .document (.integer 5))]) ∧
    (Properties.empty.set "p.n" "5").bind "p" (.map (.wide true)) =
      .error (.bindingFailed "p" "i128 is not supported") := by
  refine ⟨by decide, ?_, ?_⟩
  · rfl
  · rfl

end Schema

end Startup
