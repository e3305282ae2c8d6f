import Startup.Json.Basic
import Startup.Text.Layout

/-!
# Printed documents

A document on one line without blanks. In texts, quotes, backslashes and the characters below the
space are escaped, and nothing else.
-/

namespace Startup.Json

def escapeChar (c : Char) : List Char :=
  if c = '"' then ['\\', '"']
  else if c = '\\' then ['\\', '\\']
  else if c.toNat = 8 then ['\\', 'b']
  else if c.toNat = 12 then ['\\', 'f']
  else if c = '\n' then ['\\', 'n']
  else if c = '\r' then ['\\', 'r']
  else if c = '\t' then ['\\', 't']
  else if c.toNat < 0x20 then '\\' :: 'u' :: (Text.hexPadded 4 c.toNat).toList
  else [c]

def quoted (text : String) : String :=
  String.ofList ('"' :: (text.toList.flatMap escapeChar ++ ['"']))

mutual

def print : Json → String
  | null => "null"
  | bool true => "true"
  | bool false => "false"
  | integer n => Text.decimal n
  | double x => Decimal.Style.document.write x
  | text t => quoted t
  | list items => "[" ++ Text.joined "," (printItems items) ++ "]"
  | object members => "\x7b" ++ Text.joined "," (printMembers members) ++ "\x7d"

def printItems : List Json → List String
  | [] => []
  | item :: items => item.print :: printItems items

def printMembers : List (String × Json) → List String
  | [] => []
  | (name, value) :: members => (quoted name ++ ":" ++ value.print) :: printMembers members

end

end Startup.Json
