/-!
# Digits

Ten digits, the number that a run of them writes, and the run at the front of a text.
-/

namespace Startup.Text

def isDigit (c : Char) : Bool :=
  '0' ≤ c && c ≤ '9'

def digitValue (c : Char) : Nat :=
  c.toNat - '0'.toNat

def digitsValue (digits : List Char) : Nat :=
  digits.foldl (fun n c => 10 * n + digitValue c) 0

def spanDigits (text : List Char) : List Char × List Char :=
  (text.takeWhile isDigit, text.dropWhile isDigit)

theorem spanDigits_append (text : List Char) :
    (spanDigits text).1 ++ (spanDigits text).2 = text :=
  List.takeWhile_append_dropWhile

theorem isDigit_of_mem_spanDigits {text : List Char} {c : Char} (h : c ∈ (spanDigits text).1) :
    isDigit c = true := by
  induction text with
  | nil => simp [spanDigits] at h
  | cons d rest ih =>
    simp only [spanDigits, List.takeWhile_cons] at h
    split at h
    · rename_i hd
      rcases List.mem_cons.mp h with rfl | h
      · exact hd
      · exact ih h
    · simp at h

def decimalDigits (n : Nat) : List Char :=
  Nat.toDigits 10 n

theorem isDigit_of_mem_decimalDigits {n : Nat} {c : Char} (h : c ∈ decimalDigits n) :
    isDigit c = true :=
  Nat.isDigit_of_mem_toDigits (by decide) (by decide) h

theorem digitsValue_decimalDigits (n : Nat) : digitsValue (decimalDigits n) = n := by
  have h : Nat.ofDigitChars 10 (Nat.toDigits 10 n) 0 = n := Nat.ofDigitChars_ten_toDigits
  rwa [Nat.ofDigitChars_eq_foldl] at h

theorem decimalDigits_injective {m n : Nat} (h : decimalDigits m = decimalDigits n) : m = n := by
  rw [← digitsValue_decimalDigits m, h, digitsValue_decimalDigits]

theorem decimalDigits_ne_nil (n : Nat) : decimalDigits n ≠ [] :=
  Nat.toDigits_ne_nil

theorem head?_decimalDigits_ne_zero {n : Nat} (h : 0 < n) :
    (decimalDigits n).head? ≠ some '0' := by
  induction n using Nat.strongRecOn with
  | ind n ih =>
    rw [decimalDigits, Nat.toDigits_eq_if (by decide)]
    split
    · rw [List.head?_cons]
      exact fun hZero => Nat.ne_of_gt h (Nat.digitChar_eq_zero.mp (Option.some.inj hZero))
    · have hHead := ih (n / 10) (by omega) (by omega)
      cases hCons : decimalDigits (n / 10) with
      | nil => exact absurd hCons (decimalDigits_ne_nil _)
      | cons c rest =>
        rw [hCons] at hHead
        rw [← decimalDigits, hCons]
        exact hHead

theorem spanDigits_cons {c : Char} (h : isDigit c = true) (rest : List Char) :
    spanDigits (c :: rest) = (c :: (spanDigits rest).1, (spanDigits rest).2) := by
  simp only [spanDigits, List.takeWhile_cons, List.dropWhile_cons, h, if_true]

theorem spanDigits_of_forall {digits : List Char} (h : ∀ c ∈ digits, isDigit c = true) :
    spanDigits digits = (digits, []) := by
  induction digits with
  | nil => rfl
  | cons c digits ih =>
    obtain ⟨hHead, hTail⟩ := List.forall_mem_cons.mp h
    rw [spanDigits_cons hHead, ih hTail]

theorem spanDigits_append_cons {digits : List Char} (h : ∀ c ∈ digits, isDigit c = true)
    {stop : Char} (hStop : isDigit stop = false) (rest : List Char) :
    spanDigits (digits ++ stop :: rest) = (digits, stop :: rest) := by
  induction digits with
  | nil => simp [spanDigits, hStop]
  | cons c digits ih =>
    obtain ⟨hHead, hTail⟩ := List.forall_mem_cons.mp h
    rw [List.cons_append, spanDigits_cons hHead, ih hTail]

def decimal : Int → String
  | .ofNat n => String.ofList (decimalDigits n)
  | .negSucc n => String.ofList ('-' :: decimalDigits (n + 1))

def hexValue? (c : Char) : Option Nat :=
  if '0' ≤ c && c ≤ '9' then some (c.toNat - '0'.toNat)
  else if 'a' ≤ c && c ≤ 'f' then some (c.toNat - 'a'.toNat + 10)
  else if 'A' ≤ c && c ≤ 'F' then some (c.toNat - 'A'.toNat + 10)
  else none

def hexPadded (width n : Nat) : String :=
  let digits := Nat.toDigits 16 n
  String.ofList (List.replicate (width - digits.length) '0' ++ digits)

end Startup.Text
