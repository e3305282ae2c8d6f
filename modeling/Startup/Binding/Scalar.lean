import Startup.Binding.Schema
import Startup.Decimal.Reading
import Startup.Text.Blank

/-!
# Read scalars

The texts of booleans, integers, doubles and characters, without blanks around them.
-/

namespace Startup.Scalar

open Text

def bool? (text : List Char) : Option Bool :=
  if text = "true".toList then some true
  else if text = "false".toList then some false
  else none

def char? : List Char → Option Char
  | [c] => some c
  | _ => none

def natural? (text : List Char) : Option Nat :=
  if text ≠ [] ∧ text.all isDigit then some (digitsValue text) else none

/-- An optional sign and digits; a minus sign only where there are negative numbers. -/
def integer? (width : Width) (text : List Char) : Option Int :=
  let value := match text with
    | '+' :: digits => (natural? digits).map Int.ofNat
    | '-' :: digits => if width.isSigned then (natural? digits).map fun n => -(n : Int) else none
    | digits => (natural? digits).map Int.ofNat
  value.filter width.holds

def single? (text : List Char) : Option Float32 :=
  (Decimal.read? text).map Decimal.Reading.toFloat32

def double? (text : List Char) : Option Float :=
  (Decimal.read? text).map Decimal.Reading.toFloat

end Startup.Scalar
