import Startup.Json.Numeral
import Startup.Json.TextReader

/-!
# Read documents

A text is read as one document with blanks around it. The first fault ends the reading. Of two
members of one name the later one stays.
-/

namespace Startup.Json

def isBlank (c : Char) : Bool :=
  c == ' ' || c == '\n' || c == '\t' || c == '\r'

def skipBlanks (input : List Char) : List Char :=
  input.dropWhile isBlank

/-- The nesting of lists and objects that is read; one level more is a fault. -/
def depthLimit : Nat := 127

def readWord (value : Json) : List Char → List Char → Except Fault (Json × List Char)
  | [], rest => .ok (value, rest)
  | _ :: _, [] => .error (.here .endInValue [])
  | c :: word, d :: rest =>
    if c = d then readWord value word rest else .error ⟨.wordExpected, d :: rest, 1⟩

def readItems (readItem : List Char → Except Fault (Json × List Char)) :
    Nat → List Json → List Char → Except Fault (List Json × List Char)
  | 0, _, rest => .error (.here .endInList rest)
  | steps + 1, done, input =>
    match readItem input with
    | .error fault => .error fault
    | .ok (item, rest) =>
      match skipBlanks rest with
      | [] => .error (.next .endInList [])
      | ']' :: rest => .ok ((item :: done).reverse, rest)
      | ',' :: rest =>
        match skipBlanks rest with
        | [] => .error (.next .endInValue [])
        | ']' :: rest => .error (.next .trailingComma (']' :: rest))
        | rest => readItems readItem steps (item :: done) rest
      | rest => .error (.next .listSeparatorExpected rest)

def readList (readItem : List Char → Except Fault (Json × List Char)) (input : List Char) :
    Except Fault (Json × List Char) :=
  match skipBlanks input with
  | [] => .error (.next .endInList [])
  | ']' :: rest => .ok (.list [], rest)
  | rest =>
    (readItems readItem (rest.length + 1) [] rest).map fun (items, rest) => (.list items, rest)

def readMember (readValue : List Char → Except Fault (Json × List Char)) (input : List Char) :
    Except Fault ((String × Json) × List Char) := do
  let (name, rest) ← readText input
  match skipBlanks rest with
  | [] => throw (.next .endInObject [])
  | ':' :: rest =>
    let (value, rest) ← readValue rest
    return ((name, value), rest)
  | rest => throw (.next .colonExpected rest)

def readMembers (readValue : List Char → Except Fault (Json × List Char)) :
    Nat → List (String × Json) → List Char → Except Fault (List (String × Json) × List Char)
  | 0, _, rest => .error (.here .endInObject rest)
  | steps + 1, done, input =>
    match readMember readValue input with
    | .error fault => .error fault
    | .ok ((name, value), rest) =>
      let done := Keyed.insert name value done
      match skipBlanks rest with
      | [] => .error (.next .endInObject [])
      | '}' :: rest => .ok (done, rest)
      | ',' :: rest =>
        match skipBlanks rest with
        | [] => .error (.next .endInValue [])
        | '"' :: rest => readMembers readValue steps done rest
        | '}' :: rest => .error (.next .trailingComma ('}' :: rest))
        | rest => .error (.next .nameExpected rest)
      | rest => .error (.next .objectSeparatorExpected rest)

def readObject (readValue : List Char → Except Fault (Json × List Char)) (input : List Char) :
    Except Fault (Json × List Char) :=
  match skipBlanks input with
  | [] => .error (.next .endInObject [])
  | '}' :: rest => .ok (.object [], rest)
  | '"' :: rest =>
    (readMembers readValue (rest.length + 1) [] rest).map fun (members, rest) =>
      (.object members, rest)
  | rest => .error (.next .nameExpected rest)

/-- Reads a value at the given number of levels that may still be opened. -/
def readValue : Nat → List Char → Except Fault (Json × List Char)
  | depth, input =>
    match skipBlanks input with
    | [] => .error (.next .endInValue [])
    | c :: rest =>
      if c = 'n' then readWord .null "ull".toList rest
      else if c = 't' then readWord (.bool true) "rue".toList rest
      else if c = 'f' then readWord (.bool false) "alse".toList rest
      else if c = '-' then readNumber true rest
      else if Text.isDigit c then readNumber false (c :: rest)
      else if c = '"' then (readText rest).map fun (value, rest) => (.text value, rest)
      else if c = '[' then
        match depth with
        | 0 => .error (.next .tooDeep (c :: rest))
        | depth + 1 => readList (readValue depth) rest
      else if c = '\x7b' then
        match depth with
        | 0 => .error (.next .tooDeep (c :: rest))
        | depth + 1 => readObject (readValue depth) rest
      else .error (.next .valueExpected (c :: rest))

def finish {α : Type} : Except Fault (α × List Char) → Except Fault α
  | .error fault => .error fault
  | .ok (value, rest) =>
    match skipBlanks rest with
    | [] => .ok value
    | rest => .error (.next .trailingCharacters rest)

def parseChars (input : List Char) : Except Fault Json :=
  finish (readValue depthLimit input)

def parse (input : String) : Except String Json :=
  (parseChars input.toList).mapError fun fault => fault.message input.toList

def parseName {α : Type} (names : List String) (ofName? : String → Option α) (input : String) :
    Except String α :=
  let characters := input.toList
  let name := match skipBlanks characters with
    | [] => .error (.next .endInValue [])
    | '"' :: rest =>
      match readText rest with
      | .error fault => .error fault
      | .ok (name, rest) =>
        match ofName? name with
        | some value => .ok (value, rest)
        | none => .error (.here (.unknownName name names) rest)
    | rest => .error (.next .valueExpected rest)
  (finish name).mapError fun fault => fault.message characters

end Startup.Json
