import Startup.Binding.Schema
import Startup.Json.Access
import Startup.Text.Digits

/-!
# Bound values as documents

A bound value is shown as a document that loses nothing: a double by its bits, and an optional
value by whether it is there.
-/

namespace Startup

def bitsDocument (key : String) (width bits : Nat) : Json :=
  .ofMembers [(key, .text (Text.hexPadded width bits))]

def doubleDocument (x : Float) : Json :=
  if x.isNaN then .ofMembers [("f64", .text "NaN")] else bitsDocument "f64" 16 x.toBits.toNat

def singleDocument (x : Float32) : Json :=
  if x.isNaN then .ofMembers [("f32", .text "NaN")] else bitsDocument "f32" 8 x.toBits.toNat

def optionDocument : Option Json → Json
  | none => .ofMembers [("none", .bool true)]
  | some value => .ofMembers [("some", value)]

namespace Json

mutual

def withBits : Json → Json
  | double x => doubleDocument x
  | list items => list (withBitsItems items)
  | object members => object (withBitsMembers members)
  | other => other

def withBitsItems : List Json → List Json
  | [] => []
  | item :: items => item.withBits :: withBitsItems items

def withBitsMembers : List (String × Json) → List (String × Json)
  | [] => []
  | (name, value) :: members => (name, value.withBits) :: withBitsMembers members

end

end Json

mutual

def Bound.report : Bound → Json
  | .unit => .null
  | .bool value => .bool value
  | .integer value => .integer value
  | .single value => singleDocument value
  | .double value => doubleDocument value
  | .char value => .text value.toString
  | .text value => .text value
  | .absent => optionDocument none
  | .present value => optionDocument (some value.report)
  | .choice name => .text name
  | .document value => value.withBits
  | .map entries => .ofMembers (Bound.reports entries)
  | .record fields => .ofMembers (Bound.reports fields)

def Bound.reports : List (String × Bound) → List (String × Json)
  | [] => []
  | (name, value) :: entries => (name, value.report) :: Bound.reports entries

end

end Startup
