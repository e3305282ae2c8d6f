import Mathlib.Data.List.Induction
import Startup.Proofs.Json.Reading

/-!
# How booleans and integers are written

A text is read as a boolean or as an integer just if between blanks it is what the document is
printed as: there is no other spelling of a boolean, and of an integer of 64 bits neither one with
a plus sign nor one with zeros in front.
-/

namespace Startup

namespace Text

theorem digitValue_of_isDigit {c : Char} (h : isDigit c = true) :
    digitValue c < 10 ∧ (digitValue c).digitChar = c := by
  simp only [isDigit, Bool.and_eq_true, decide_eq_true_eq, Char.le_def, UInt32.le_iff_toNat_le] at h
  have hLow : 48 ≤ c.toNat := h.1
  have hHigh : c.toNat ≤ 57 := h.2
  have hZero : '0'.toNat = 48 := rfl
  have hLess : digitValue c < 10 := by
    rw [digitValue, hZero]
    omega
  refine ⟨hLess, Char.toNat_inj.mp ?_⟩
  rw [Nat.toNat_digitChar_of_lt_ten hLess, digitValue, hZero]
  omega

theorem digitsValue_append_singleton (digits : List Char) (c : Char) :
    digitsValue (digits ++ [c]) = 10 * digitsValue digits + digitValue c := by
  rw [digitsValue, List.foldl_append]
  rfl

/-- Digits without needless zeros are those of their value. -/
theorem decimalDigits_digitsValue {digits : List Char} (hNe : digits ≠ [])
    (hDigits : ∀ c ∈ digits, isDigit c = true)
    (hLead : digits.head? = some '0' → digits = ['0']) :
    decimalDigits (digitsValue digits) = digits := by
  induction digits using List.reverseRecOn with
  | nil => exact absurd rfl hNe
  | append_singleton front last ih =>
    obtain ⟨hFront, hLast⟩ := List.forall_mem_append.mp hDigits
    obtain ⟨hLess, hChar⟩ := digitValue_of_isDigit (hLast last List.mem_cons_self)
    have hOnes : decimalDigits (digitValue last) = [last] := by
      rw [decimalDigits, Nat.toDigits_of_lt_base hLess, hChar]
    by_cases hEmpty : front = []
    · subst hEmpty
      rw [digitsValue_append_singleton]
      simpa [digitsValue] using hOnes
    · have hHead : front.head? ≠ some '0' := by
        intro hZero
        have hAll : front ++ [last] = [] ++ ['0'] :=
          hLead (by rw [List.head?_append, hZero, Option.some_or])
        exact hEmpty (List.append_inj_left' hAll rfl)
      have hTens := ih hEmpty hFront fun hZero => absurd hZero hHead
      have hPositive : 0 < digitsValue front := by
        refine Nat.pos_of_ne_zero fun hNone => hHead ?_
        rw [← hTens, hNone]
        rfl
      rw [digitsValue_append_singleton, decimalDigits,
        ← Nat.toDigits_append_toDigits (by decide) hPositive hLess]
      exact congr (congrArg _ hTens) hOnes

theorem toList_decimal_natural (n : Nat) : (decimal n).toList = decimalDigits n :=
  String.toList_ofList

theorem toList_decimal_negative {n : Nat} (h : 0 < n) :
    (decimal (-(n : Int))).toList = '-' :: decimalDigits n := by
  obtain ⟨m, rfl⟩ := Nat.exists_eq_succ_of_ne_zero (Nat.ne_of_gt h)
  exact String.toList_ofList

end Text

namespace Json

open Text

variable {after : List Char}

theorem isDigit_of_isBlank {c : Char} (h : isBlank c = true) : isDigit c = false := by
  simp only [isBlank, Bool.or_eq_true, beq_iff_eq] at h
  rcases h with ((rfl | rfl) | rfl) | rfl <;> decide

theorem spanDigits_append_blank {digits : List Char} (h : ∀ c ∈ digits, isDigit c = true)
    (hAfter : ∀ c ∈ after, isBlank c = true) : spanDigits (digits ++ after) = (digits, after) := by
  cases after with
  | nil => rw [List.append_nil, spanDigits_of_forall h]
  | cons c after =>
    exact spanDigits_append_cons h (isDigit_of_isBlank (hAfter c List.mem_cons_self)) after

namespace Numeral

theorem le_foldl_digits (digits : List Char) (start : Nat) :
    start ≤ digits.foldl (fun n c => 10 * n + digitValue c) start := by
  induction digits generalizing start with
  | nil => exact Nat.le_refl start
  | cons d digits ih =>
    have hRest := ih (10 * start + digitValue d)
    rw [List.foldl_cons]
    omega

theorem collect_of_le {digits : List Char} {start : Nat}
    (h : digits.foldl (fun n c => 10 * n + digitValue c) start ≤ wordLimit) :
    collect start digits = (digits.foldl (fun n c => 10 * n + digitValue c) start, 0) := by
  induction digits generalizing start with
  | nil => rfl
  | cons d digits ih =>
    have hFirst := Nat.le_trans (le_foldl_digits digits (10 * start + digitValue d)) h
    rw [collect]
    exact (if_pos hFirst).trans (ih h)

theorem collect_decimalDigits {n : Nat} (h : n ≤ wordLimit) :
    collect 0 (decimalDigits n) = (n, 0) := by
  have hValue : (decimalDigits n).foldl (fun n c => 10 * n + digitValue c) 0 = n :=
    digitsValue_decimalDigits n
  rw [collect_of_le (by rwa [hValue]), hValue]

theorem readWhole_decimalDigits (n : Nat) (hAfter : ∀ c ∈ after, isBlank c = true) :
    readWhole (decimalDigits n ++ after) = .ok (decimalDigits n, after) := by
  have hDigits := fun c => isDigit_of_mem_decimalDigits (n := n) (c := c)
  have hHead := fun h : 0 < n => head?_decimalDigits_ne_zero h
  have hZero : decimalDigits 0 = ['0'] := rfl
  cases hCons : decimalDigits n with
  | nil => exact absurd hCons (decimalDigits_ne_nil n)
  | cons c rest =>
    rw [hCons] at hDigits hHead
    obtain ⟨hFirst, hRest⟩ := List.forall_mem_cons.mp hDigits
    rw [List.cons_append, readWhole.eq_def]
    by_cases hc : c = '0'
    · subst hc
      have hn : n = 0 := Nat.eq_zero_of_not_pos fun hPos => hHead hPos rfl
      subst hn
      cases hZero.symm.trans hCons
      cases after with
      | nil => rfl
      | cons d after =>
        have hd := isDigit_of_isBlank (hAfter d List.mem_cons_self)
        simp [hd]
    · simp only [if_neg hc, if_pos hFirst, spanDigits_append_blank hRest hAfter]

theorem readFraction_blank (hAfter : ∀ c ∈ after, isBlank c = true) :
    readFraction after = .ok (none, after) := by
  unfold readFraction
  split
  · cases hAfter '.' List.mem_cons_self
  · rfl

theorem readExponent_blank (hAfter : ∀ c ∈ after, isBlank c = true) :
    readExponent after = .ok (none, after) := by
  cases after with
  | nil => rfl
  | cons c after =>
    have hc := hAfter c List.mem_cons_self
    have hMark : ¬ (c = 'e' ∨ c = 'E') := by
      rintro (rfl | rfl) <;> cases hc
    rw [readExponent.eq_def]
    exact if_neg hMark

theorem read_decimalDigits (negative : Bool) (n : Nat) (hAfter : ∀ c ∈ after, isBlank c = true) :
    read negative (decimalDigits n ++ after) =
      .ok (⟨negative, decimalDigits n, none, none⟩, after) := by
  simp only [read, readWhole_decimalDigits n hAfter, readFraction_blank hAfter,
    readExponent_blank hAfter, bind, Except.bind, pure, Except.pure]

theorem value_natural {n : Nat} (h : n ≤ wordLimit) :
    value ⟨false, decimalDigits n, none, none⟩ = .ok (.integer n) := by
  rw [value, collect_decimalDigits h]
  rfl

theorem value_negative {n : Nat} (hPos : 0 < n) (h : n ≤ Nat.pow 2 63) :
    value ⟨true, decimalDigits n, none, none⟩ = .ok (.integer (-n)) := by
  have hLimit : n ≤ wordLimit := Nat.le_trans h (by decide)
  have hRange : ¬ (n = 0 ∨ Nat.pow 2 63 < n) := by
    rintro (hZero | hLarge)
    · exact Nat.ne_of_gt hPos hZero
    · exact Nat.not_lt.mpr h hLarge
  rw [value, collect_decimalDigits hLimit]
  exact if_neg hRange

/-- Digits as a document has them: no zero in front of others. -/
theorem readWhole_inv {input whole rest : List Char} (h : readWhole input = .ok (whole, rest)) :
    input = whole ++ rest ∧ decimalDigits (digitsValue whole) = whole := by
  unfold readWhole at h
  split at h
  · cases h
  · rename_i c more
    split at h
    · rename_i hZero
      subst hZero
      split at h
      · cases h
        exact ⟨rfl, rfl⟩
      · split at h
        · cases h
        · cases h
          exact ⟨rfl, rfl⟩
    · rename_i hOther
      split at h
      · rename_i hDigit
        cases h
        refine ⟨congrArg _ (spanDigits_append more).symm, ?_⟩
        refine decimalDigits_digitsValue (List.cons_ne_nil _ _) ?_ ?_
        · exact List.forall_mem_cons.mpr ⟨hDigit, fun _ => isDigit_of_mem_spanDigits⟩
        · exact fun hHead => absurd (Option.some.inj hHead) hOther
      · cases h

theorem readFraction_none_inv {input rest : List Char}
    (h : readFraction input = .ok (none, rest)) : rest = input := by
  unfold readFraction at h
  split at h
  · split at h <;> cases h
  · cases h
    rfl

theorem readExponent_none_inv {input rest : List Char}
    (h : readExponent input = .ok (none, rest)) : rest = input := by
  have hDigits (negative : Bool) (digits : List Char) :
      readExponentDigits negative digits ≠ .ok (none, rest) := by
    intro hRead
    unfold readExponentDigits at hRead
    split at hRead
    · cases hRead
    · split at hRead <;> cases hRead
  unfold readExponent at h
  split at h
  · cases h
    rfl
  · split at h
    · split at h
      · exact absurd h (hDigits _ _)
      · exact absurd h (hDigits _ _)
      · exact absurd h (hDigits _ _)
    · cases h
      rfl

theorem read_plain_inv {negative sign : Bool} {input digits rest : List Char}
    (h : read negative input = .ok (⟨sign, digits, none, none⟩, rest)) :
    sign = negative ∧ input = digits ++ rest ∧ decimalDigits (digitsValue digits) = digits := by
  unfold read at h
  cases hWhole : readWhole input with
  | error fault => simp [hWhole, bind, Except.bind] at h
  | ok result =>
    obtain ⟨whole, behind⟩ := result
    cases hFraction : readFraction behind with
    | error fault => simp [hWhole, hFraction, bind, Except.bind] at h
    | ok result =>
      obtain ⟨fraction, behind'⟩ := result
      cases hExponent : readExponent behind' with
      | error fault => simp [hWhole, hFraction, hExponent, bind, Except.bind] at h
      | ok result =>
        obtain ⟨exponent, last⟩ := result
        simp only [hWhole, hFraction, hExponent, bind, Except.bind, pure, Except.pure] at h
        cases h
        obtain ⟨rfl, hDigits⟩ := readWhole_inv hWhole
        obtain rfl := readFraction_none_inv hFraction
        obtain rfl := readExponent_none_inv hExponent
        exact ⟨rfl, rfl, hDigits⟩

end Numeral

theorem readNumber_natural {n : Nat} (h : n ≤ Numeral.wordLimit)
    (hAfter : ∀ c ∈ after, isBlank c = true) :
    readNumber false (decimalDigits n ++ after) = .ok (.integer n, after) := by
  rw [readNumber, Numeral.read_decimalDigits _ _ hAfter]
  simp only [Numeral.value_natural h]

theorem readNumber_negative {n : Nat} (hPos : 0 < n) (h : n ≤ Nat.pow 2 63)
    (hAfter : ∀ c ∈ after, isBlank c = true) :
    readNumber true (decimalDigits n ++ after) = .ok (.integer (-n), after) := by
  rw [readNumber, Numeral.read_decimalDigits _ _ hAfter]
  simp only [Numeral.value_negative hPos h]

theorem readValue_digit {c : Char} (h : isDigit c = true) (depth : Nat) (rest : List Char) :
    readValue depth (c :: rest) = readNumber false (c :: rest) := by
  have hOther {d : Char} (hd : isDigit d = false) : c ≠ d := by
    rintro rfl
    rw [h] at hd
    cases hd
  have hBlank : isBlank c = false := by
    simp [isBlank, hOther (d := ' ') rfl, hOther (d := '\n') rfl, hOther (d := '\t') rfl,
      hOther (d := '\r') rfl]
  have hSkip : skipBlanks (c :: rest) = c :: rest := by
    rw [skipBlanks, List.dropWhile_cons, hBlank]
    rfl
  rw [readValue.eq_def]
  simp only [hSkip, hOther (d := 'n') rfl, hOther (d := 't') rfl, hOther (d := 'f') rfl,
    hOther (d := '-') rfl, h, if_true, if_false]

theorem readValue_skipBlanks (depth : Nat) {input other : List Char}
    (h : skipBlanks input = skipBlanks other) : readValue depth input = readValue depth other := by
  rw [readValue.eq_def, readValue.eq_def]
  simp only [h]

theorem readValue_minus (depth : Nat) (rest : List Char) :
    readValue depth ('-' :: rest) = readNumber true rest := by
  rw [readValue.eq_def]
  rfl

/-- The integers that a document can have: those of 64 bits, unsigned or, if negative, signed. -/
def Fits (n : Int) : Prop :=
  -(Nat.pow 2 63 : Nat) ≤ n ∧ n < (Nat.pow 2 64 : Nat)

theorem fits_natural {n : Nat} (h : n ≤ Numeral.wordLimit) : Fits n := by
  have hLimit : Numeral.wordLimit = Nat.pow 2 64 - 1 := rfl
  have hPositive : 0 < Nat.pow 2 64 := by decide
  rw [Fits]
  omega

theorem fits_negative {n : Nat} (h : n ≤ Nat.pow 2 63) : Fits (-(n : Int)) := by
  have hPositive : 0 < Nat.pow 2 64 := by decide
  rw [Fits]
  omega

theorem readValue_decimal (depth : Nat) {n : Int} (h : Fits n)
    (hAfter : ∀ c ∈ after, isBlank c = true) :
    readValue depth ((decimal n).toList ++ after) = .ok (.integer n, after) := by
  obtain ⟨hLow, hHigh⟩ := h
  cases n with
  | ofNat n =>
    have hn : n ≤ Numeral.wordLimit := by
      have hLimit : Numeral.wordLimit = Nat.pow 2 64 - 1 := rfl
      have hNatural : (n : Int) < (Nat.pow 2 64 : Nat) := hHigh
      omega
    have hNumber := readNumber_natural hn hAfter
    have hDigits := fun c => isDigit_of_mem_decimalDigits (n := n) (c := c)
    rw [decimal, String.toList_ofList]
    cases hCons : decimalDigits n with
    | nil => exact absurd hCons (decimalDigits_ne_nil n)
    | cons c rest =>
      rw [hCons] at hDigits hNumber
      rw [List.cons_append, readValue_digit (hDigits c List.mem_cons_self)]
      exact hNumber
  | negSucc n =>
    rw [decimal, String.toList_ofList, List.cons_append, readValue_minus]
    exact readNumber_negative (Nat.succ_pos n) (by omega) hAfter

theorem readValue_bool (depth : Nat) (b : Bool) (rest : List Char) :
    readValue depth ((Json.bool b).print.toList ++ rest) = .ok (.bool b, rest) := by
  rw [readValue.eq_def]
  cases b <;> rfl

/-- An integer is read from its decimal text and nothing else. -/
theorem toList_decimal_of_valued {negative : Bool} {input rest : List Char} {numeral : Numeral}
    {n : Int} (hRead : Numeral.read negative input = .ok (numeral, rest))
    (hValued : numeral.Valued (.integer n)) :
    Fits n ∧ (if negative then ['-'] else []) ++ input = (decimal n).toList ++ rest := by
  cases hValued with
  | natural hRange =>
    obtain ⟨rfl, rfl, hDigits⟩ := Numeral.read_plain_inv hRead
    refine ⟨fits_natural hRange, ?_⟩
    rw [toList_decimal_natural, hDigits]
    rfl
  | negative hPositive hRange =>
    obtain ⟨rfl, rfl, hDigits⟩ := Numeral.read_plain_inv hRead
    refine ⟨fits_negative hRange, ?_⟩
    rw [toList_decimal_negative hPositive, hDigits]
    rfl

/-! ## Texts of values -/

/-- Characters that a document may have around its values, and no others. -/
def Blank (padding : String) : Prop :=
  ∀ c ∈ padding.toList, isBlank c = true

/-- Between blanks a text is what the value is printed as. -/
inductive Shows (value : Json) : String → Prop
  | intro {before after : String} (hBefore : Blank before) (hAfter : Blank after) :
      Shows value (before ++ value.print ++ after)

variable {text : String} {value : Json}

theorem shows_of_parse (h : parse text = .ok value)
    (hRead : ∀ input rest, readValue depthLimit input = .ok (value, rest) →
      skipBlanks input = value.print.toList ++ rest) : Shows value text := by
  obtain ⟨rest, hValue, hRest⟩ := parse_eq_ok_iff.mp h
  have hText : text = String.ofList (text.toList.takeWhile isBlank) ++ value.print ++
      String.ofList rest := by
    rw [← String.toList_inj]
    simp only [String.toList_append, String.toList_ofList, List.append_assoc,
      ← hRead _ _ hValue]
    exact List.takeWhile_append_dropWhile.symm
  rw [hText]
  refine .intro (fun c hc => ?_) (fun c hc => hRest c ?_)
  · rw [String.toList_ofList] at hc
    exact List.all_eq_true.mp List.all_takeWhile c hc
  · rwa [String.toList_ofList] at hc

theorem parse_of_shows (h : Shows value text)
    (hRead : ∀ rest, (∀ c ∈ rest, isBlank c = true) →
      readValue depthLimit (value.print.toList ++ rest) = .ok (value, rest)) :
    parse text = .ok value := by
  obtain ⟨hBefore, hAfter⟩ := h
  refine parse_eq_ok_iff.mpr ⟨_, ?_, hAfter⟩
  rw [String.toList_append, String.toList_append, List.append_assoc,
    readValue_skipBlanks depthLimit (skipBlanks_append hBefore _), hRead _ hAfter]

theorem parse_bool_iff {b : Bool} : parse text = .ok (.bool b) ↔ Shows (.bool b) text := by
  constructor
  · intro h
    refine shows_of_parse h fun input rest hValue => ?_
    have hReading := reading_of_readValue hValue
    generalize skipBlanks input = found at hReading ⊢
    cases hReading with
    | bool => rfl
    | number negative hRead hValued => cases hValued
  · intro h
    exact parse_of_shows h fun rest _ => readValue_bool depthLimit b rest

theorem reads_decimal {depth : Nat} {input rest : List Char} {n : Int}
    (h : readValue depth input = .ok (.integer n, rest)) :
    Fits n ∧ skipBlanks input = (decimal n).toList ++ rest := by
  have hReading := reading_of_readValue h
  generalize skipBlanks input = found at hReading ⊢
  cases hReading with
  | number negative hRead hValued => exact toList_decimal_of_valued hRead hValued

theorem parse_integer_iff {n : Int} :
    parse text = .ok (.integer n) ↔ Fits n ∧ Shows (.integer n) text := by
  constructor
  · intro h
    obtain ⟨rest, hValue, -⟩ := parse_eq_ok_iff.mp h
    exact ⟨(reads_decimal hValue).1, shows_of_parse h fun _ _ hRead => (reads_decimal hRead).2⟩
  · rintro ⟨hFits, hShows⟩
    exact parse_of_shows hShows fun rest hRest => readValue_decimal depthLimit hFits hRest

theorem shows_print (value : Json) : Shows value value.print := by
  have hText : "" ++ value.print ++ "" = value.print := by simp
  rw [← hText]
  exact .intro nofun nofun

theorem untyped_eq_bool_iff {b : Bool} : untyped text = .bool b ↔ Shows (.bool b) text := by
  rw [← parse_bool_iff]
  constructor
  · intro h
    unfold untyped at h
    split at h <;> simp_all
  · intro h
    rw [untyped, h]

theorem untyped_eq_integer_iff {n : Int} :
    untyped text = .integer n ↔ Fits n ∧ Shows (.integer n) text := by
  rw [← parse_integer_iff]
  constructor
  · intro h
    unfold untyped at h
    split at h <;> simp_all
  · intro h
    rw [untyped, h]

theorem untyped_eq_text_inv {found : String} (h : untyped text = .text found) : found = text := by
  unfold untyped at h
  split at h
  · cases h
  · cases h
  · cases h
  · cases h
    rfl

end Json

end Startup
