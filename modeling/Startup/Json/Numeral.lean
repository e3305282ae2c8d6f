import Startup.Json.Fault
import Startup.Json.Basic

/-!
# Numbers in a document

A number is an integer if it has neither fraction nor exponent and fits 64 bits, unsigned or, if
negative, signed; a negative zero and everything else is a double. The double is computed from as
many leading digits as fit 64 bits and a power of ten, each step rounded for itself.
-/

namespace Startup.Json

open Text

structure Numeral where
  negative : Bool
  whole : List Char
  fraction : Option (List Char)
  exponent : Option (Bool × List Char)
  deriving DecidableEq, Repr

namespace Numeral

def readWhole : List Char → Except Fault (List Char × List Char)
  | [] => .error (.here .endInValue [])
  | c :: rest =>
    if c = '0' then
      match rest with
      | [] => .ok (['0'], [])
      | d :: more =>
        if isDigit d then .error (.next .invalidNumber (d :: more)) else .ok (['0'], d :: more)
    else if isDigit c then .ok (c :: (spanDigits rest).1, (spanDigits rest).2)
    else .error ⟨.invalidNumber, c :: rest, 1⟩

def readFraction : List Char → Except Fault (Option (List Char) × List Char)
  | '.' :: rest =>
    match spanDigits rest with
    | ([], []) => .error (.next .endInValue [])
    | ([], rest) => .error (.next .invalidNumber rest)
    | (digits, rest) => .ok (some digits, rest)
  | rest => .ok (none, rest)

def readExponentDigits (negative : Bool) :
    List Char → Except Fault (Option (Bool × List Char) × List Char)
  | [] => .error (.here .endInValue [])
  | c :: rest =>
    if isDigit c then .ok (some (negative, c :: (spanDigits rest).1), (spanDigits rest).2)
    else .error ⟨.invalidNumber, c :: rest, 1⟩

def readExponent : List Char → Except Fault (Option (Bool × List Char) × List Char)
  | [] => .ok (none, [])
  | mark :: rest =>
    if mark = 'e' ∨ mark = 'E' then
      match rest with
      | '+' :: digits => readExponentDigits false digits
      | '-' :: digits => readExponentDigits true digits
      | digits => readExponentDigits false digits
    else .ok (none, mark :: rest)

def read (negative : Bool) (text : List Char) : Except Fault (Numeral × List Char) := do
  let (whole, rest) ← readWhole text
  let (fraction, rest) ← readFraction rest
  let (exponent, rest) ← readExponent rest
  return (⟨negative, whole, fraction, exponent⟩, rest)

def wordLimit : Nat := Nat.pow 2 64 - 1

/-- Appends digits to a number as long as it fits 64 bits; also how many digits were left out. -/
def collect (start : Nat) : List Char → Nat × Nat
  | [] => (start, 0)
  | d :: digits =>
    let n := 10 * start + digitValue d
    if n ≤ wordLimit then collect n digits else (start, digits.length + 1)

def exponentLimit : Nat := Nat.pow 2 31 - 1

/-- The value of the digits of an exponent, or those behind the one that passes the limit. -/
def exponentValue (start : Nat) : List Char → Except (List Char) Nat
  | [] => .ok start
  | d :: digits =>
    let n := 10 * start + digitValue d
    if n ≤ exponentLimit then exponentValue n digits else .error digits

def powerOfTen (n : Nat) : Float :=
  Float.ofScientific 1 false n

def scaleDown (x : Float) (places : Nat) : Float :=
  if places ≤ 308 then x / powerOfTen places
  else if x == 0.0 then x
  else scaleDown (x / powerOfTen 308) (places - 308)
termination_by places

def scale (significand : Nat) (exponent : Int) : Option Float :=
  let x := (UInt64.ofNat significand).toFloat
  if exponent < 0 then some (scaleDown x exponent.natAbs)
  else if exponent ≤ 308 then
    let y := x * powerOfTen exponent.natAbs
    if y.isInf then none else some y
  else if significand = 0 then some x
  else none

def signedDouble (negative : Bool) (x : Float) : Json :=
  .double (if negative then -x else x)

/-- The value of a number, or the digits of its exponent that are left to read where it turns out
to be too large. -/
def value (n : Numeral) : Except (List Char) Json :=
  let (significand, dropped) := collect 0 n.whole
  match n.fraction, n.exponent with
  | none, none =>
    if dropped ≠ 0 then
      match scale significand dropped with
      | some x => .ok (signedDouble n.negative x)
      | none => .error []
    else if !n.negative then .ok (.integer significand)
    else if significand = 0 ∨ Nat.pow 2 63 < significand then
      .ok (.double (-(UInt64.ofNat significand).toFloat))
    else .ok (.integer (-significand))
  | fraction, exponent =>
    let digits := fraction.getD []
    let (significand, left) := collect significand digits
    let start : Int := dropped - (digits.length - left : Nat)
    match exponent with
    | none =>
      match scale significand start with
      | some x => .ok (signedDouble n.negative x)
      | none => .error []
    | some (negative, digits) =>
      match exponentValue 0 digits with
      | .ok e =>
        let total := if negative then start - e else start + e
        match scale significand total with
        | some x => .ok (signedDouble n.negative x)
        | none => .error []
      | .error left =>
        if significand ≠ 0 ∧ !negative then .error left
        else .ok (signedDouble n.negative 0.0)

end Numeral

def readNumber (negative : Bool) (text : List Char) : Except Fault (Json × List Char) :=
  match Numeral.read negative text with
  | .error fault => .error fault
  | .ok (numeral, rest) =>
    match numeral.value with
    | .ok value => .ok (value, rest)
    | .error left => .error (.here .numberOutOfRange (left ++ rest))

end Startup.Json
