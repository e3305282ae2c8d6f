import Startup.Text.Quoted

/-!
# Layout of values

How a value is shown for inspection: a record by its name and its fields in order, a list between
brackets, a text quoted, and an optional value by name.
-/

namespace Startup.Text

def joined (separator : String) (items : List String) : String :=
  separator.intercalate items

def listing (items : List String) : String :=
  "[" ++ joined ", " items ++ "]"

def quotedListing (items : List String) : String :=
  listing (items.map quoted)

def record (name : String) (fields : List (String × String)) : String :=
  let items := fields.map fun (field, value) => field ++ ": " ++ value
  name ++ " \x7b " ++ joined ", " items ++ " \x7d"

def optional : Option String → String
  | none => "None"
  | some value => "Some(" ++ value ++ ")"

def choice (what : String) : List String → String
  | [] => "there are no " ++ what
  | [a] => "expected `" ++ a ++ "`"
  | [a, b] => "expected `" ++ a ++ "` or `" ++ b ++ "`"
  | names => "expected one of " ++ joined ", " (names.map fun n => "`" ++ n ++ "`")

end Startup.Text
