import Mathlib.Algebra.Ring.Int.Defs
import Startup.Proofs.Binding.Record

/-!
# Integers

A text is an integer of a width if between blanks it is a sign or none and at least one digit, and
its value is in the range of the width. Every other text is a problem that quotes it as it is.
-/

namespace Startup

namespace Width

variable {width : Width} {n : Int}

/-- The range of a width, with both its limits. -/
def Spans (width : Width) (n : Int) : Prop :=
  if width.isSigned then -(2 ^ (width.bits - 1)) ≤ n ∧ n < 2 ^ (width.bits - 1)
  else 0 ≤ n ∧ n < 2 ^ width.bits

theorem holds_iff : width.holds n = true ↔ width.Spans n := by
  obtain ⟨isSigned, bits, -⟩ := width
  rw [holds, least, greatest, Spans, Bool.and_eq_true, decide_eq_true_eq, decide_eq_true_eq]
  cases isSigned with
  | false =>
    have hPower : ((Nat.pow 2 bits : Nat) : Int) = 2 ^ bits := Int.natCast_pow 2 bits
    simp only [Bool.false_eq_true, if_false, hPower]
    omega
  | true =>
    have hPower : ((Nat.pow 2 (bits - 1) : Nat) : Int) = 2 ^ (bits - 1) :=
      Int.natCast_pow 2 (bits - 1)
    simp only [if_true, hPower]
    omega

end Width

namespace Text

variable {isSigned : Bool} {chars : List Char} {n : Int}

def Digits (chars : List Char) : Prop :=
  chars ≠ [] ∧ ∀ c ∈ chars, isDigit c = true

/-- A sign or none, and digits. Only what may be negative has a minus sign. -/
inductive Numerates (isSigned : Bool) : List Char → Int → Prop
  | plain {digits : List Char} (hDigits : Digits digits) :
      Numerates isSigned digits (Nat.ofDigitChars 10 digits 0)
  | plus {digits : List Char} (hDigits : Digits digits) :
      Numerates isSigned ('+' :: digits) (Nat.ofDigitChars 10 digits 0)
  | minus {digits : List Char} (hSigned : isSigned = true) (hDigits : Digits digits) :
      Numerates isSigned ('-' :: digits) (-(Nat.ofDigitChars 10 digits 0 : Int))

theorem isBlank_of_isDigit {c : Char} (h : isDigit c = true) : isBlank c = false := by
  simp only [isDigit, Bool.and_eq_true, decide_eq_true_eq, Char.le_def, UInt32.le_iff_toNat_le] at h
  have hLow : 48 ≤ c.toNat := h.1
  have hHigh : c.toNat ≤ 57 := h.2
  simp [isBlank]
  omega

theorem Numerates.not_blank (h : Numerates isSigned chars n) : ∀ c ∈ chars, isBlank c = false := by
  cases h with
  | plain hDigits => exact fun c hc => isBlank_of_isDigit (hDigits.2 c hc)
  | plus hDigits =>
    exact List.forall_mem_cons.mpr ⟨rfl, fun c hc => isBlank_of_isDigit (hDigits.2 c hc)⟩
  | minus _ hDigits =>
    exact List.forall_mem_cons.mpr ⟨rfl, fun c hc => isBlank_of_isDigit (hDigits.2 c hc)⟩

theorem not_digits_cons {c : Char} (h : isDigit c = false) (rest : List Char) :
    ¬ Digits (c :: rest) := by
  intro hDigits
  have hFirst := hDigits.2 c List.mem_cons_self
  rw [h] at hFirst
  cases hFirst

theorem numerates_plus_iff : Numerates isSigned ('+' :: chars) n ↔
    Digits chars ∧ (Nat.ofDigitChars 10 chars 0 : Int) = n := by
  constructor
  · intro h
    cases h with
    | plain hDigits => exact absurd hDigits (not_digits_cons rfl chars)
    | plus hDigits => exact ⟨hDigits, rfl⟩
  · rintro ⟨hDigits, rfl⟩
    exact .plus hDigits

theorem numerates_minus_iff : Numerates isSigned ('-' :: chars) n ↔
    isSigned = true ∧ Digits chars ∧ -(Nat.ofDigitChars 10 chars 0 : Int) = n := by
  constructor
  · intro h
    cases h with
    | plain hDigits => exact absurd hDigits (not_digits_cons rfl chars)
    | minus hSigned hDigits => exact ⟨hSigned, hDigits, rfl⟩
  · rintro ⟨hSigned, hDigits, rfl⟩
    exact .minus hSigned hDigits

theorem numerates_plain_iff (hPlus : ∀ digits, chars ≠ '+' :: digits)
    (hMinus : ∀ digits, chars ≠ '-' :: digits) : Numerates isSigned chars n ↔
      Digits chars ∧ (Nat.ofDigitChars 10 chars 0 : Int) = n := by
  constructor
  · intro h
    cases h with
    | plain hDigits => exact ⟨hDigits, rfl⟩
    | plus hDigits => exact absurd rfl (hPlus _)
    | minus hSigned hDigits => exact absurd rfl (hMinus _)
  · rintro ⟨hDigits, rfl⟩
    exact .plain hDigits

theorem digits_decimalDigits (n : Nat) : Digits (decimalDigits n) :=
  ⟨decimalDigits_ne_nil n, fun _ => isDigit_of_mem_decimalDigits⟩

theorem numerates_decimal (h : isSigned = true ∨ 0 ≤ n) :
    Numerates isSigned (decimal n).toList n := by
  have hValue (m : Nat) : Nat.ofDigitChars 10 (decimalDigits m) 0 = m :=
    Nat.ofDigitChars_ten_toDigits
  cases n with
  | ofNat m =>
    have hPlain : Numerates isSigned (decimalDigits m) _ := .plain (digits_decimalDigits m)
    rw [hValue] at hPlain
    rw [decimal, String.toList_ofList]
    exact hPlain
  | negSucc m =>
    have hSigned : isSigned = true := by
      rcases h with h | h
      · exact h
      · exact absurd h (by omega)
    have hMinus := Numerates.minus hSigned (digits_decimalDigits (m + 1))
    rw [hValue] at hMinus
    rw [decimal, String.toList_ofList]
    exact hMinus

end Text

namespace Scalar

open Text

variable {width : Width} {chars : List Char} {n : Int}

theorem natural?_eq_some_iff {m : Nat} :
    natural? chars = some m ↔ Digits chars ∧ Nat.ofDigitChars 10 chars 0 = m := by
  have hValue : Nat.ofDigitChars 10 chars 0 = digitsValue chars := Nat.ofDigitChars_eq_foldl
  rw [natural?, hValue, Digits, ← List.all_eq_true]
  split
  · rename_i hDigits
    rw [Option.some.injEq, and_iff_right hDigits]
  · rename_i hDigits
    exact ⟨nofun, fun h => absurd h.1 hDigits⟩

theorem integer?_eq_some_iff :
    integer? width chars = some n ↔ Numerates width.isSigned chars n ∧ width.Spans n := by
  unfold integer?
  rw [Option.filter_eq_some_iff, Width.holds_iff]
  refine and_congr_left fun _ => ?_
  split
  · simp [numerates_plus_iff, natural?_eq_some_iff]
  · rw [numerates_minus_iff]
    split
    · rename_i hSigned
      rw [and_iff_right hSigned]
      simp [Option.bind_eq_some_iff, natural?_eq_some_iff]
    · rename_i hUnsigned
      exact ⟨nofun, fun h => absurd h.1 hUnsigned⟩
  · rename_i hPlus hMinus
    simp [numerates_plain_iff hPlus hMinus, natural?_eq_some_iff]

end Scalar

namespace Schema

open Text

variable {width : Width} {n : Int}

/-- Between blanks a text is an integer in the range of a width. -/
inductive Writes (width : Width) : String → Int → Prop
  | intro {before core after : String} {n : Int} (hBefore : Blank before) (hAfter : Blank after)
      (hCore : Numerates width.isSigned core.toList n) (hRange : width.Spans n) :
      Writes width (before ++ core ++ after) n

theorem writes_iff {shown : String} : Writes width shown n ↔
    Numerates width.isSigned (trimChars shown.toList) n ∧ width.Spans n := by
  constructor
  · rintro ⟨hBefore, hAfter, hCore, hRange⟩
    rw [String.toList_append, String.toList_append,
      trimChars_append hBefore hAfter hCore.not_blank]
    exact ⟨hCore, hRange⟩
  · rintro ⟨hCore, hRange⟩
    obtain ⟨before, after, hText, hBefore, hAfter⟩ := exists_trimmed shown.toList
    have hShown : shown =
        String.ofList before ++ String.ofList (trimChars shown.toList) ++ String.ofList after := by
      rw [← String.toList_inj]
      simpa using hText
    rw [hShown]
    refine .intro ?_ ?_ ?_ hRange
    · simpa [Blank] using hBefore
    · simpa [Blank] using hAfter
    · simpa using hCore

theorem bind_integer_leaf (width : Width) (shown : String) :
    (Schema.integer width).bind (.leaf shown) =
      match Scalar.integer? width (trimChars shown.toList) with
      | some n => .ok (.integer n)
      | none => .error (.invalidValue shown width.name) := by
  rw [Schema.bind, PropertyTree.scalar]
  cases Scalar.integer? width (trimChars shown.toList) <;> rfl

theorem bind_integer_of_writes {shown : String} (h : Writes width shown n) :
    (Schema.integer width).bind (.leaf shown) = .ok (.integer n) := by
  rw [bind_integer_leaf, Scalar.integer?_eq_some_iff.mpr (writes_iff.mp h)]

theorem bind_integer_of_not_writes {shown : String} (h : ∀ n, ¬ Writes width shown n) :
    (Schema.integer width).bind (.leaf shown) = .error (.invalidValue shown width.name) := by
  have hNone : Scalar.integer? width (trimChars shown.toList) = none :=
    Option.eq_none_iff_forall_ne_some.mpr fun n hSome =>
      h n (writes_iff.mpr (Scalar.integer?_eq_some_iff.mp hSome))
  rw [bind_integer_leaf, hNone]

theorem writes_of_bind_integer {shown : String} {value : Bound}
    (h : (Schema.integer width).bind (.leaf shown) = .ok value) :
    ∃ n, value = .integer n ∧ Writes width shown n := by
  by_cases hWrites : ∃ n, Writes width shown n
  · obtain ⟨n, hWrites⟩ := hWrites
    cases (bind_integer_of_writes hWrites).symm.trans h
    exact ⟨n, rfl, hWrites⟩
  · cases (bind_integer_of_not_writes fun n hn => hWrites ⟨n, hn⟩).symm.trans h

theorem writes_decimal (h : width.Spans n) {before after : String} (hBefore : Blank before)
    (hAfter : Blank after) : Writes width (before ++ decimal n ++ after) n := by
  refine .intro hBefore hAfter (numerates_decimal ?_) h
  rw [Width.Spans] at h
  split at h
  · exact .inl ‹_›
  · exact .inr h.1

end Schema

namespace Properties

open Schema Text

/-- A text is bound to an integer just if it writes it in the range of the width, and so is the
decimal text of every such integer between blanks. Every other text is quoted in the error with
its blanks, for a schema as for the field of a record. -/
theorem bind_integer (width : Width) (shown : String) :
    (∀ value, (Schema.integer width).bind (.leaf shown) = .ok value ↔
      ∃ n, value = .integer n ∧ Writes width shown n) ∧
    ((∀ n, ¬ Writes width shown n) →
      (Schema.integer width).bind (.leaf shown) = .error (.invalidValue shown width.name)) ∧
    (∀ n before after, width.Spans n → Blank before → Blank after →
      (Schema.integer width).bind (.leaf (before ++ decimal n ++ after)) = .ok (.integer n)) ∧
    ∀ group name owner strict, '.' ∉ name.toList →
      let bound := (empty.set (group ++ "." ++ name) shown).bind group
        (.record owner strict [.plain name (.integer width)])
      (∀ n, Writes width shown n → bound = .ok (.record [(name, .integer n)])) ∧
      ((∀ n, ¬ Writes width shown n) → bound = .error (.bindingFailed group
        ("invalid value: string " ++ quoted shown ++ ", expected " ++ width.name))) := by
  refine ⟨fun value => ⟨writes_of_bind_integer, ?_⟩, bind_integer_of_not_writes, ?_, ?_⟩
  · rintro ⟨n, rfl, hWrites⟩
    exact bind_integer_of_writes hWrites
  · intro n before after hRange hBefore hAfter
    exact bind_integer_of_writes (writes_decimal hRange hBefore hAfter)
  · intro group name owner strict hName
    refine ⟨fun n hWrites => ?_, fun hNone => ?_⟩
    · rw [bind_single hName, bind_integer_of_writes hWrites]
      rfl
    · rw [bind_single hName, bind_integer_of_not_writes hNone]
      rfl

/-- The least integer of eight bits, and the first one past the greatest. -/
theorem bind_integer_limits :
    (Schema.integer ⟨true, 8, by decide⟩).bind (.leaf "\u00a0-128\n") = .ok (.integer (-128)) ∧
    (empty.set "p.n" " +128").bind "p"
        (.record "P" true [.plain "n" (.integer ⟨true, 8, by decide⟩)]) =
      .error (.bindingFailed "p" "invalid value: string \" +128\", expected i8") := by
  obtain ⟨hBinds, -, -, hField⟩ := bind_integer ⟨true, 8, by decide⟩ " +128"
  obtain ⟨-, -, hDecimal, -⟩ := bind_integer ⟨true, 8, by decide⟩ ""
  have hLeast : Width.Spans ⟨true, 8, by decide⟩ (-128) := by
    rw [Width.Spans]
    decide
  have hPast : (Schema.integer ⟨true, 8, by decide⟩).bind (.leaf " +128") =
      .error (.invalidValue " +128" "i8") := rfl
  have hNone (n : Int) : ¬ Writes ⟨true, 8, by decide⟩ " +128" n := by
    intro hWrites
    cases hPast.symm.trans ((hBinds _).mpr ⟨n, rfl, hWrites⟩)
  have hBefore : Blank "\u00a0" := List.forall_mem_singleton.mpr rfl
  have hAfter : Blank "\n" := List.forall_mem_singleton.mpr rfl
  exact ⟨hDecimal _ _ _ hLeast hBefore hAfter,
    (hField "p" "n" "P" true (by decide)).2 hNone⟩

end Properties

end Startup
