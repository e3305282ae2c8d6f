import Startup.Text.Digits

/-!
# Read decimals

A number in a text is an optional sign, digits with an optional point and at least one digit, and
an optional exponent; or infinity or no number, by name in any case. The value is the binary
number nearest to the decimal, infinity beyond the largest.
-/

namespace Startup.Decimal

/-- A decimal `significand * 10 ^ exponent` with a sign, or one of the two named values. -/
inductive Reading where
  | finite (negative : Bool) (significand : Nat) (exponent : Int)
  | infinite (negative : Bool)
  | notANumber
  deriving DecidableEq, Repr

open Text

def lowercase (text : List Char) : List Char :=
  text.map Char.toLower

def readSign : List Char → Bool × List Char
  | '-' :: rest => (true, rest)
  | '+' :: rest => (false, rest)
  | rest => (false, rest)

def readExponent? : List Char → Option Int
  | [] => some 0
  | mark :: rest =>
    if mark = 'e' ∨ mark = 'E' then
      let (negative, digits) := readSign rest
      if digits ≠ [] ∧ digits.all isDigit then
        let n : Int := digitsValue digits
        some (if negative then -n else n)
      else none
    else none

def readFinite? (negative : Bool) (text : List Char) : Option Reading :=
  let (whole, rest) := spanDigits text
  let (fraction, rest) := match rest with
    | '.' :: rest => spanDigits rest
    | rest => ([], rest)
  if whole = [] ∧ fraction = [] then none
  else (readExponent? rest).map fun exponent =>
    .finite negative (digitsValue (whole ++ fraction)) (exponent - fraction.length)

def read? (text : List Char) : Option Reading :=
  let (negative, rest) := readSign text
  let name := lowercase rest
  if name = "inf".toList ∨ name = "infinity".toList then some (.infinite negative)
  else if name = "nan".toList then some .notANumber
  else readFinite? negative rest

/-- Beyond this many places before or behind the point every number is infinite or zero. -/
def placeLimit : Int := 400

inductive Size where
  | tiny
  | ordinary
  | huge

def size (significand : Nat) (exponent : Int) : Size :=
  let places := (decimalDigits significand).length + exponent
  if significand = 0 ∨ places < -placeLimit then .tiny
  else if placeLimit < places then .huge
  else .ordinary

def Reading.toFloat : Reading → Float
  | .finite negative significand exponent =>
    let magnitude := match size significand exponent with
      | .tiny => 0.0
      | .huge => 1.0 / 0.0
      | .ordinary => Float.ofScientific significand (exponent < 0) exponent.natAbs
    if negative then -magnitude else magnitude
  | .infinite negative => if negative then -1.0 / 0.0 else 1.0 / 0.0
  | .notANumber => 0.0 / 0.0

def Reading.toFloat32 : Reading → Float32
  | .finite negative significand exponent =>
    let magnitude : Float32 := match size significand exponent with
      | .tiny => 0.0
      | .huge => 1.0 / 0.0
      | .ordinary => Float32.ofScientific significand (exponent < 0) exponent.natAbs
    if negative then -magnitude else magnitude
  | .infinite negative => if negative then -1.0 / 0.0 else 1.0 / 0.0
  | .notANumber => 0.0 / 0.0

end Startup.Decimal
