/-!
# Blank characters

A text is trimmed of the characters with the Unicode property White_Space, at both ends and
nowhere else.
-/

namespace Startup.Text

/-- The twenty-five characters with the property White_Space. -/
def isBlank (c : Char) : Bool :=
  (9 ≤ c.toNat && c.toNat ≤ 13) || c.toNat == 0x20 || c.toNat == 0x85 || c.toNat == 0xA0 ||
    c.toNat == 0x1680 || (0x2000 ≤ c.toNat && c.toNat ≤ 0x200A) || c.toNat == 0x2028 ||
    c.toNat == 0x2029 || c.toNat == 0x202F || c.toNat == 0x205F || c.toNat == 0x3000

theorem isBlank_of_isWhitespace {c : Char} (h : c.isWhitespace = true) : isBlank c = true := by
  simp only [Char.isWhitespace, Bool.or_eq_true, decide_eq_true_eq] at h
  rcases h with ((rfl | rfl) | rfl) | rfl <;> decide

def trimStart (text : List Char) : List Char :=
  text.dropWhile isBlank

def trimEnd (text : List Char) : List Char :=
  (text.reverse.dropWhile isBlank).reverse

def trimChars (text : List Char) : List Char :=
  trimEnd (trimStart text)

def trim (text : String) : String :=
  String.ofList (trimChars text.toList)

@[simp] theorem toList_trim (text : String) : (trim text).toList = trimChars text.toList := by
  simp [trim]

def Blank (padding : String) : Prop :=
  ∀ c ∈ padding.toList, isBlank c = true

/-- There is no blank at either end. -/
structure Trimmed (core : List Char) : Prop where
  head : ∀ c, core.head? = some c → isBlank c = false
  last : ∀ c, core.getLast? = some c → isBlank c = false

section Trimmed

variable {before core after : List Char}

theorem dropWhile_isBlank_of_head (h : ∀ c, core.head? = some c → isBlank c = false) :
    core.dropWhile isBlank = core := by
  cases core with
  | nil => rfl
  | cons c core =>
    rw [List.dropWhile_cons, h c rfl]
    rfl

theorem trimEnd_append (hAfter : ∀ c ∈ after, isBlank c = true)
    (hLast : ∀ c, core.getLast? = some c → isBlank c = false) : trimEnd (core ++ after) = core := by
  have hReverse : ∀ c, core.reverse.head? = some c → isBlank c = false := fun c hc =>
    hLast c (List.head?_reverse ▸ hc)
  rw [trimEnd, List.reverse_append, List.dropWhile_append_of_pos, dropWhile_isBlank_of_head hReverse,
    List.reverse_reverse]
  exact fun c hc => hAfter c (List.mem_reverse.mp hc)

/-- What has no blank at its ends is what remains of it between blanks. -/
theorem Trimmed.trimChars_append (hCore : Trimmed core) (hBefore : ∀ c ∈ before, isBlank c = true)
    (hAfter : ∀ c ∈ after, isBlank c = true) : trimChars (before ++ core ++ after) = core := by
  rw [trimChars, List.append_assoc, trimStart, List.dropWhile_append_of_pos hBefore]
  cases core with
  | nil =>
    have hNone : after.dropWhile isBlank = [] := by
      rw [← List.append_nil after, List.dropWhile_append_of_pos hAfter]
      rfl
    rw [List.nil_append, hNone]
    rfl
  | cons c core =>
    rw [List.cons_append, List.dropWhile_cons, hCore.head c rfl]
    exact trimEnd_append hAfter hCore.last

theorem trimmed_of_forall (h : ∀ c ∈ core, isBlank c = false) : Trimmed core :=
  ⟨fun c hc => h c (List.mem_of_head? hc), fun c hc => h c (List.mem_of_getLast? hc)⟩

theorem trimChars_append (hBefore : ∀ c ∈ before, isBlank c = true)
    (hAfter : ∀ c ∈ after, isBlank c = true) (hCore : ∀ c ∈ core, isBlank c = false) :
    trimChars (before ++ core ++ after) = core :=
  (trimmed_of_forall hCore).trimChars_append hBefore hAfter

theorem isBlank_of_head?_dropWhile {text : List Char} {c : Char}
    (h : (text.dropWhile isBlank).head? = some c) : isBlank c = false := by
  have hNot := List.head?_dropWhile_not isBlank text
  rw [h] at hNot
  exact hNot

theorem trimmed_trimChars (text : List Char) : Trimmed (trimChars text) where
  head c hc := by
    obtain ⟨rest, hRest⟩ : trimChars text <+: trimStart text := by
      rw [← List.reverse_suffix, trimChars, trimEnd, List.reverse_reverse]
      exact List.dropWhile_suffix isBlank
    have hFirst : (trimStart text).head? = some c := by
      rw [← hRest, List.head?_append, hc]
      rfl
    exact isBlank_of_head?_dropWhile hFirst
  last c hc := by
    rw [trimChars, trimEnd, List.getLast?_reverse] at hc
    exact isBlank_of_head?_dropWhile hc

/-- Only blanks are trimmed. -/
theorem exists_trimmed (text : List Char) : ∃ before after,
    text = before ++ trimChars text ++ after ∧ (∀ c ∈ before, isBlank c = true) ∧
      ∀ c ∈ after, isBlank c = true := by
  have hTaken {chars : List Char} : ∀ c ∈ chars.takeWhile isBlank, isBlank c = true :=
    List.all_eq_true.mp List.all_takeWhile
  have hStart : text.takeWhile isBlank ++ trimStart text = text :=
    List.takeWhile_append_dropWhile
  have hEnd : trimChars text ++ ((trimStart text).reverse.takeWhile isBlank).reverse =
      trimStart text := by
    rw [trimChars, trimEnd, ← List.reverse_append, List.takeWhile_append_dropWhile,
      List.reverse_reverse]
  refine ⟨text.takeWhile isBlank, ((trimStart text).reverse.takeWhile isBlank).reverse, ?_, hTaken,
    fun c hc => hTaken c (List.mem_reverse.mp hc)⟩
  rw [List.append_assoc, hEnd, hStart]

end Trimmed

end Startup.Text
