import Startup.Text.Layout
import Startup.Text.Digits

/-!
# Faults in a document's text

A fault says what is wrong and where: behind the characters that were read, or some bytes further.
Lines end at a line feed, and columns count bytes.
-/

namespace Startup.Json

inductive Problem where
  | endInValue
  | endInList
  | endInObject
  | endInText
  | valueExpected
  | wordExpected
  | colonExpected
  | listSeparatorExpected
  | objectSeparatorExpected
  | nameExpected
  | trailingComma
  | trailingCharacters
  | invalidNumber
  | numberOutOfRange
  | invalidEscape
  | loneSurrogate
  | endOfEscape
  | controlCharacter
  | tooDeep
  | unknownName (name : String) (expected : List String)
  deriving DecidableEq, Repr, Inhabited

def Problem.message : Problem → String
  | endInValue => "EOF while parsing a value"
  | endInList => "EOF while parsing a list"
  | endInObject => "EOF while parsing an object"
  | endInText => "EOF while parsing a string"
  | valueExpected => "expected value"
  | wordExpected => "expected ident"
  | colonExpected => "expected `:`"
  | listSeparatorExpected => "expected `,` or `]`"
  | objectSeparatorExpected => "expected `,` or `\x7d`"
  | nameExpected => "key must be a string"
  | trailingComma => "trailing comma"
  | trailingCharacters => "trailing characters"
  | invalidNumber => "invalid number"
  | numberOutOfRange => "number out of range"
  | invalidEscape => "invalid escape"
  | loneSurrogate => "lone leading surrogate in hex escape"
  | endOfEscape => "unexpected end of hex escape"
  | controlCharacter => "control character (\\u0000-\\u001F) found while parsing a string"
  | tooDeep => "recursion limit exceeded"
  | unknownName name expected =>
    "unknown variant `" ++ name ++ "`, " ++ Text.choice "variants" expected

/-- What is wrong, what was left to read there, and how many bytes of that the place is ahead. -/
structure Fault where
  problem : Problem
  rest : List Char
  ahead : Nat
  deriving DecidableEq, Repr

/-- A fault behind the characters that were read. -/
def Fault.here (problem : Problem) (rest : List Char) : Fault :=
  ⟨problem, rest, 0⟩

/-- A fault at the next byte, or at the end if there is none. -/
def Fault.next (problem : Problem) (rest : List Char) : Fault :=
  ⟨problem, rest, 1⟩

def byteCount : List Char → Nat
  | [] => 0
  | c :: rest => c.utf8Size + byteCount rest

structure Place where
  line : Nat
  column : Nat
  deriving DecidableEq, Repr

def Place.after : Place → List Char → Nat → Place
  | place, [], _ => place
  | place, c :: rest, bytes =>
    if bytes = 0 then place
    else if c = '\n' then Place.after ⟨place.line + 1, 0⟩ rest (bytes - 1)
    else Place.after ⟨place.line, place.column + min c.utf8Size bytes⟩ rest (bytes - c.utf8Size)

def Fault.place (fault : Fault) (text : List Char) : Place :=
  Place.after ⟨1, 0⟩ text (byteCount text - byteCount fault.rest + fault.ahead)

def Fault.message (fault : Fault) (text : List Char) : String :=
  let place := fault.place text
  fault.problem.message ++ " at line " ++ Text.decimal place.line ++ " column " ++
    Text.decimal place.column

end Startup.Json
