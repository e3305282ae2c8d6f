import Mathlib.Data.List.TakeWhile
import Startup.Binding.Problem
import Startup.Json.Printer

/-!
# What is read from a document

The first character of a value tells what is read, and a number is a double, or the integer of its
digits where it has neither fraction nor exponent. A document that is read has its members in the
order of their names, at every level.
-/

namespace Startup.Json

open Text

theorem skipBlanks_append {before : List Char} (h : ∀ c ∈ before, isBlank c = true)
    (input : List Char) : skipBlanks (before ++ input) = skipBlanks input :=
  List.dropWhile_append_of_pos h

theorem skipBlanks_eq_nil_iff {input : List Char} :
    skipBlanks input = [] ↔ ∀ c ∈ input, isBlank c = true :=
  List.dropWhile_eq_nil_iff

namespace Numeral

theorem collect_inv {start n : Nat} {digits : List Char} (hStart : start ≤ wordLimit)
    (h : collect start digits = (n, 0)) :
    n = digits.foldl (fun n c => 10 * n + digitValue c) start ∧ n ≤ wordLimit := by
  induction digits generalizing start with
  | nil =>
    cases h
    exact ⟨rfl, hStart⟩
  | cons d digits ih =>
    rw [collect] at h
    split at h
    · rename_i hFits
      exact ih hFits h
    · cases h

/-- The value of a number: a double, or where there is neither fraction nor exponent the integer
of its digits. -/
inductive Valued : Numeral → Json → Prop
  | double (n : Numeral) (x : Float) : Valued n (.double x)
  | natural {digits : List Char} (hRange : digitsValue digits ≤ wordLimit) :
      Valued ⟨false, digits, none, none⟩ (.integer (digitsValue digits))
  | negative {digits : List Char} (hPositive : 0 < digitsValue digits)
      (hRange : digitsValue digits ≤ Nat.pow 2 63) :
      Valued ⟨true, digits, none, none⟩ (.integer (-(digitsValue digits : Int)))

theorem valued_of_scaled {n : Numeral} {negative : Bool} {scaled : Option Float}
    {left : List Char} {value : Json}
    (h : (match scaled with
      | some x => Except.ok (signedDouble negative x)
      | none => Except.error left) = Except.ok value) : Valued n value := by
  cases scaled with
  | none => cases h
  | some x =>
    cases h
    exact .double n _

theorem valued_of_value {n : Numeral} {value : Json} (h : n.value = .ok value) :
    Valued n value := by
  obtain ⟨negative, digits, fraction, exponent⟩ := n
  unfold Numeral.value at h
  simp only at h
  split at h
  · split at h
    · exact valued_of_scaled h
    · rename_i hDropped
      cases hCollect : collect 0 digits with
      | mk significand dropped =>
        simp only [hCollect] at h hDropped
        obtain rfl : dropped = 0 := by simpa using hDropped
        obtain ⟨hValue, hRange⟩ := collect_inv (Nat.zero_le _) hCollect
        obtain rfl : significand = digitsValue digits := hValue
        split at h
        · rename_i hSign
          cases h
          obtain rfl : negative = false := by simpa using hSign
          exact .natural hRange
        · rename_i hSign
          obtain rfl : negative = true := by simpa using hSign
          split at h
          · cases h
            exact .double _ _
          · rename_i hSmall
            cases h
            obtain ⟨hPositive, hLimit⟩ := not_or.mp hSmall
            exact .negative (Nat.pos_of_ne_zero hPositive) (Nat.not_lt.mp hLimit)
  · split at h
    · exact valued_of_scaled h
    · split at h
      · exact valued_of_scaled h
      · split at h
        · cases h
        · cases h
          exact .double _ _

theorem Valued.ordered {n : Numeral} {value : Json} (h : Valued n value) : Ordered value := by
  cases h with
  | double x => exact .double _
  | natural hRange => exact .integer _
  | negative hPositive hRange => exact .integer _

end Numeral

theorem readWord_inv {value found : Json} {word input rest : List Char}
    (h : readWord value word input = .ok (found, rest)) :
    found = value ∧ input = word ++ rest := by
  induction word generalizing input with
  | nil =>
    cases h
    exact ⟨rfl, rfl⟩
  | cons c word ih =>
    cases input with
    | nil => cases h
    | cons d input =>
      rw [readWord] at h
      split at h
      · rename_i hSame
        obtain ⟨hFound, hInput⟩ := ih h
        exact ⟨hFound, by rw [hSame, hInput, List.cons_append]⟩
      · cases h

theorem map_ok_inv {α β : Type} {f : α → β} {result : Except Fault α} {b : β}
    (h : result.map f = .ok b) : ∃ a, result = .ok a ∧ f a = b := by
  cases result with
  | error fault => cases h
  | ok a => exact ⟨a, rfl, Except.ok.inj h⟩

theorem readNumber_inv {negative : Bool} {input rest : List Char} {value : Json}
    (h : readNumber negative input = .ok (value, rest)) :
    ∃ numeral, Numeral.read negative input = .ok (numeral, rest) ∧ numeral.Valued value := by
  unfold readNumber at h
  split at h
  · cases h
  · rename_i hRead
    split at h
    · rename_i hValue
      cases h
      exact ⟨_, hRead, Numeral.valued_of_value hValue⟩
    · cases h

section Containers

variable {read : List Char → Except Fault (Json × List Char)} {input rest : List Char}
  {value : Json}

theorem readList_inv (h : readList read input = .ok (value, rest)) :
    ∃ items, value = .list items := by
  unfold readList at h
  split at h
  · cases h
  · cases h
    exact ⟨[], rfl⟩
  · obtain ⟨⟨items, after⟩, -, hValue⟩ := map_ok_inv h
    cases hValue
    exact ⟨items, rfl⟩

theorem readObject_inv (h : readObject read input = .ok (value, rest)) :
    ∃ members, value = .object members := by
  unfold readObject at h
  split at h
  · cases h
  · cases h
    exact ⟨[], rfl⟩
  · obtain ⟨⟨members, after⟩, -, hValue⟩ := map_ok_inv h
    cases hValue
    exact ⟨members, rfl⟩
  · cases h

end Containers

/-- The first character tells what is read. -/
inductive Reading (depth : Nat) : List Char → Json → List Char → Prop
  | null (rest : List Char) : Reading depth ("null".toList ++ rest) .null rest
  | bool (value : Bool) (rest : List Char) :
      Reading depth ((Json.bool value).print.toList ++ rest) (.bool value) rest
  | number (negative : Bool) {input rest : List Char} {numeral : Numeral} {value : Json}
      (hRead : Numeral.read negative input = .ok (numeral, rest))
      (hValued : numeral.Valued value) :
      Reading depth ((if negative then ['-'] else []) ++ input) value rest
  | text {input rest : List Char} {value : String} (h : readText input = .ok (value, rest)) :
      Reading depth ('"' :: input) (.text value) rest
  | list {inner : Nat} {input rest : List Char} {items : List Json} (hDepth : depth = inner + 1)
      (h : readList (readValue inner) input = .ok (.list items, rest)) :
      Reading depth ('[' :: input) (.list items) rest
  | object {inner : Nat} {input rest : List Char} {members : List (String × Json)}
      (hDepth : depth = inner + 1)
      (h : readObject (readValue inner) input = .ok (.object members, rest)) :
      Reading depth ('\x7b' :: input) (.object members) rest

theorem reading_of_readValue {depth : Nat} {input rest : List Char} {value : Json}
    (h : readValue depth input = .ok (value, rest)) :
    Reading depth (skipBlanks input) value rest := by
  rw [readValue.eq_def] at h
  simp only at h
  split at h
  · cases h
  · rename_i c more hSkip
    rw [hSkip]
    split at h
    · rename_i hc
      obtain ⟨rfl, rfl⟩ := readWord_inv h
      exact hc ▸ .null rest
    split at h
    · rename_i hc
      obtain ⟨rfl, rfl⟩ := readWord_inv h
      exact hc ▸ .bool true rest
    split at h
    · rename_i hc
      obtain ⟨rfl, rfl⟩ := readWord_inv h
      exact hc ▸ .bool false rest
    split at h
    · rename_i hc
      obtain ⟨numeral, hRead, hValued⟩ := readNumber_inv h
      subst hc
      exact .number true hRead hValued
    split at h
    · obtain ⟨numeral, hRead, hValued⟩ := readNumber_inv h
      exact .number false hRead hValued
    split at h
    · rename_i hc
      obtain ⟨⟨text, after⟩, hText, hValue⟩ := map_ok_inv h
      cases hValue
      exact hc ▸ .text hText
    split at h
    · rename_i hc
      split at h
      · cases h
      · obtain ⟨items, rfl⟩ := readList_inv h
        exact hc ▸ .list rfl h
    split at h
    · rename_i hc
      split at h
      · cases h
      · obtain ⟨members, rfl⟩ := readObject_inv h
        exact hc ▸ .object rfl h
    · cases h

/-- All that a reader gives has its members in order. -/
def Orders (read : List Char → Except Fault (Json × List Char)) : Prop :=
  ∀ input value rest, read input = .ok (value, rest) → Ordered value

variable {read : List Char → Except Fault (Json × List Char)}

theorem readItems_inv (hRead : Orders read) {steps : Nat} {done items : List Json}
    {input rest : List Char} (hDone : ∀ item ∈ done, Ordered item)
    (h : readItems read steps done input = .ok (items, rest)) : ∀ item ∈ items, Ordered item := by
  induction steps generalizing done input with
  | zero => cases h
  | succ steps ih =>
    rw [readItems] at h
    split at h
    · cases h
    · rename_i item after hItem
      have hNext : ∀ other ∈ item :: done, Ordered other :=
        List.forall_mem_cons.mpr ⟨hRead _ _ _ hItem, hDone⟩
      split at h
      · cases h
      · cases h
        intro other hOther
        exact hNext other (List.mem_reverse.mp hOther)
      · split at h
        · cases h
        · cases h
        · exact ih hNext h
      · cases h

theorem readMember_inv (hRead : Orders read) {input rest : List Char} {name : String}
    {value : Json} (h : readMember read input = .ok ((name, value), rest)) : Ordered value := by
  unfold readMember at h
  cases hName : readText input with
  | error fault => simp [hName, bind, Except.bind] at h
  | ok named =>
    obtain ⟨found, after⟩ := named
    simp only [hName, bind, Except.bind] at h
    split at h
    · cases h
    · split at h
      · cases h
      · rename_i hValue
        cases h
        exact hRead _ _ _ hValue
    · cases h

theorem readMembers_inv (hRead : Orders read) {steps : Nat}
    {done members : List (String × Json)} {input rest : List Char} (hDone : Ordered (.object done))
    (h : readMembers read steps done input = .ok (members, rest)) : Ordered (.object members) := by
  induction steps generalizing done input with
  | zero => cases h
  | succ steps ih =>
    rw [readMembers] at h
    split at h
    · cases h
    · rename_i name value after hMember
      have hNext : Ordered (.object (Keyed.insert name value done)) := by
        cases hDone with
        | object names each =>
          refine .object names.insert fun member hMem => ?_
          rcases Keyed.mem_of_mem_insert hMem with rfl | hMem
          · exact readMember_inv hRead hMember
          · exact each member hMem
      simp only at h
      split at h
      · cases h
      · cases h
        exact hNext
      · split at h
        · cases h
        · exact ih hNext h
        · cases h
        · cases h
      · cases h

theorem orders_readList (hRead : Orders read) : Orders (readList read) := by
  intro input value rest h
  unfold readList at h
  split at h
  · cases h
  · cases h
    exact .list nofun
  · obtain ⟨⟨items, after⟩, hItems, hValue⟩ := map_ok_inv h
    cases hValue
    exact .list (readItems_inv hRead (List.forall_mem_nil _) hItems)

theorem orders_readObject (hRead : Orders read) : Orders (readObject read) := by
  intro input value rest h
  unfold readObject at h
  split at h
  · cases h
  · cases h
    exact .object Keyed.ordered_nil nofun
  · obtain ⟨⟨members, after⟩, hMembers, hValue⟩ := map_ok_inv h
    cases hValue
    exact readMembers_inv hRead (.object Keyed.ordered_nil nofun) hMembers
  · cases h

theorem orders_readValue_of {depth : Nat}
    (hInner : ∀ inner, depth = inner + 1 → Orders (readValue inner)) :
    Orders (readValue depth) := by
  intro input value rest h
  have hReading := reading_of_readValue h
  generalize skipBlanks input = text at hReading
  cases hReading with
  | null => exact .null
  | bool b => exact .bool b
  | number negative hRead hValued => exact hValued.ordered
  | text hText => exact .text _
  | list hDepth hList => exact orders_readList (hInner _ hDepth) _ _ _ hList
  | object hDepth hObject => exact orders_readObject (hInner _ hDepth) _ _ _ hObject

theorem orders_readValue (depth : Nat) : Orders (readValue depth) := by
  induction depth with
  | zero => exact orders_readValue_of fun _ hInner => absurd hInner.symm (Nat.succ_ne_zero _)
  | succ depth ih =>
    apply orders_readValue_of
    intro inner hInner
    cases hInner
    exact ih

theorem parse_eq_ok_iff {text : String} {value : Json} : parse text = .ok value ↔
    ∃ rest, readValue depthLimit text.toList = .ok (value, rest) ∧
      ∀ c ∈ rest, isBlank c = true := by
  rw [parse, parseChars]
  constructor
  · intro h
    cases hRead : readValue depthLimit text.toList with
    | error fault =>
      rw [hRead] at h
      cases h
    | ok result =>
      obtain ⟨found, rest⟩ := result
      rw [hRead, finish] at h
      split at h
      · rename_i hSkip
        cases h
        exact ⟨rest, rfl, skipBlanks_eq_nil_iff.mp hSkip⟩
      · cases h
  · rintro ⟨rest, hRead, hRest⟩
    rw [hRead, finish, skipBlanks_eq_nil_iff.mpr hRest]
    rfl

theorem ordered_of_parse {text : String} {value : Json} (h : parse text = .ok value) :
    Ordered value := by
  obtain ⟨rest, hRead, -⟩ := parse_eq_ok_iff.mp h
  exact orders_readValue _ _ _ _ hRead

end Startup.Json
