import Startup.Json.Basic

/-!
# Parts of a document

Reading an expected shape out of a document, with a text that says what was expected, and making
documents of ordinary values. A member that is null counts as left out.
-/

namespace Startup.Json

abbrev Result := Except String

def member (name : String) : Json → Json
  | object members => (Keyed.find? name members).getD null
  | _ => null

def field? (name : String) (value : Json) : Option Json :=
  match value.member name with
  | null => none
  | value => some value

def field (name : String) (value : Json) : Result Json :=
  match value.field? name with
  | some value => .ok value
  | none => .error ("missing " ++ name)

def asText : Json → Result String
  | text value => .ok value
  | _ => .error "text expected"

def asBool : Json → Result Bool
  | bool value => .ok value
  | _ => .error "boolean expected"

def asInteger : Json → Result Int
  | integer value => .ok value
  | _ => .error "integer expected"

def asItems : Json → Result (List Json)
  | list items => .ok items
  | _ => .error "list expected"

def asMembers : Json → Result (List (String × Json))
  | object members => .ok members
  | _ => .error "object expected"

def asTexts (value : Json) : Result (List String) := do
  (← value.asItems).mapM asText

def asPairs (value : Json) : Result (List (String × String)) := do
  (← value.asItems).mapM fun item => do
    match ← item.asTexts with
    | [key, value] => return (key, value)
    | _ => throw "pair expected"

def asTextMap (value : Json) : Result (List (String × String)) := do
  (← value.asMembers).mapM fun entry => do return (entry.1, ← entry.2.asText)

def required {α : Type} (read : Json → Result α) (name : String) (value : Json) : Result α := do
  read (← value.field name)

def optional {α : Type} (read : Json → Result α) (name : String) (value : Json) :
    Result (Option α) :=
  (value.field? name).mapM read

def each {α : Type} (read : Json → Result α) (name : String) (value : Json) : Result (List α) := do
  match value.field? name with
  | some items => (← items.asItems).mapM read
  | none => return []

def textField (name : String) (value : Json) : Result String :=
  value.required asText name

def ofMembers (members : List (String × Json)) : Json :=
  object (Keyed.ofPairs members)

def ofTexts (items : List String) : Json :=
  list (items.map text)

def ofNat (n : Nat) : Json :=
  integer n

def ofOption {α : Type} (make : α → Json) : Option α → Json
  | none => null
  | some value => make value

def ofTextMap (entries : List (String × String)) : Json :=
  ofMembers (entries.map fun entry => (entry.1, text entry.2))

end Startup.Json
