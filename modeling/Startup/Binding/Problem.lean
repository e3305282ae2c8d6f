import Startup.Json.Parser
import Startup.Text.Layout

/-!
# Binding problems

Why a property does not fit its target. A text that meets a target for something with parts is
read like an untyped one first, so a problem names what it would have been.
-/

namespace Startup

inductive Found where
  | map
  | bool (value : Bool)
  | integer (value : Int)
  | double (value : Float)
  | text (value : String)
  | name

def Found.message : Found → String
  | map => "map"
  | bool value => "boolean `" ++ (if value then "true" else "false") ++ "`"
  | integer value => "integer `" ++ Text.decimal value ++ "`"
  | double value => "floating point `" ++ Decimal.Style.report.write value ++ "`"
  | text value => "string " ++ Text.quoted value
  | name => "unit variant"

inductive BindingProblem where
  | invalidType (found : Found) (expected : String)
  | invalidValue (text : String) (expected : String)
  | unknownVariant (name : String) (expected : List String)
  | unknownField (name : String) (expected : List String)
  | missingField (name : String)
  | unsupported (what : String)

def BindingProblem.message : BindingProblem → String
  | invalidType found expected =>
    "invalid type: " ++ found.message ++ ", expected " ++ expected
  | invalidValue text expected =>
    "invalid value: string " ++ Text.quoted text ++ ", expected " ++ expected
  | unknownVariant name expected =>
    "unknown variant `" ++ name ++ "`, " ++ Text.choice "variants" expected
  | unknownField name expected =>
    "unknown field `" ++ name ++ "`, " ++ Text.choice "fields" expected
  | missingField name => "missing field `" ++ name ++ "`"
  | unsupported what => what ++ " is not supported"

def Json.untyped (text : String) : Json :=
  match Json.parse text with
  | .ok (.bool value) => .bool value
  | .ok (.integer value) => .integer value
  | .ok (.double value) => .double value
  | _ => .text text

def Found.ofText (text : String) : Found :=
  match Json.untyped text with
  | .bool value => .bool value
  | .integer value => .integer value
  | .double value => .double value
  | _ => .text text

end Startup
