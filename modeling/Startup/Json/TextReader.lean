import Startup.Json.Fault

/-!
# Texts in a document

Reads the characters of a text up to its closing quote. An escape stands for one character; four
hexadecimal digits give half of a pair where one character needs two of them.
-/

namespace Startup.Json

open Text

def hexadecimal? : List Char → Option Nat
  | digits => digits.foldlM (fun n c => (hexValue? c).map (16 * n + ·)) 0

/-- The number behind the mark of a numbered escape: four bytes, all of them digits. -/
def readFour (text : List Char) : Except Fault (Nat × List Char) :=
  if byteCount text < 4 then .error ⟨.endInText, text, byteCount text⟩
  else match hexadecimal? (text.take 4) with
    | some n => .ok (n, text.drop 4)
    | none => .error ⟨.invalidEscape, text, 4⟩

def isLeading (n : Nat) : Bool :=
  0xD800 ≤ n && n ≤ 0xDBFF

def isTrailing (n : Nat) : Bool :=
  0xDC00 ≤ n && n ≤ 0xDFFF

def expectByte (c : Char) : List Char → Except Fault (List Char)
  | [] => .error (.here .endInText [])
  | d :: rest => if d = c then .ok rest else .error ⟨.endOfEscape, d :: rest, 1⟩

def readNumbered (text : List Char) : Except Fault (Char × List Char) := do
  let (first, rest) ← readFour text
  if isTrailing first then throw (.here .loneSurrogate rest)
  if isLeading first then
    let rest ← expectByte '\\' rest
    let rest ← expectByte 'u' rest
    let (second, rest) ← readFour rest
    if isTrailing second then
      return (Char.ofNat (0x10000 + (first - 0xD800) * 0x400 + (second - 0xDC00)), rest)
    else throw (.here .loneSurrogate rest)
  else return (Char.ofNat first, rest)

def readEscape : List Char → Except Fault (Char × List Char)
  | [] => .error (.here .endInText [])
  | c :: rest =>
    match c with
    | '"' => .ok ('"', rest)
    | '\\' => .ok ('\\', rest)
    | '/' => .ok ('/', rest)
    | 'b' => .ok ('\x08', rest)
    | 'f' => .ok ('\x0c', rest)
    | 'n' => .ok ('\n', rest)
    | 'r' => .ok ('\r', rest)
    | 't' => .ok ('\t', rest)
    | 'u' => readNumbered rest
    | _ => .error ⟨.invalidEscape, c :: rest, 1⟩

/-- Reads behind the opening quote. Every step takes a character, so as many steps as characters
and one for the end are enough. -/
def readCharacters : Nat → List Char → List Char → Except Fault (List Char × List Char)
  | 0, _, rest => .error (.here .endInText rest)
  | _ + 1, _, [] => .error (.here .endInText [])
  | steps + 1, done, c :: rest =>
    if c = '"' then .ok (done.reverse, rest)
    else if c = '\\' then
      match readEscape rest with
      | .ok (d, rest) => readCharacters steps (d :: done) rest
      | .error fault => .error fault
    else if c.toNat < 0x20 then .error (.here .controlCharacter rest)
    else readCharacters steps (c :: done) rest

def readText (text : List Char) : Except Fault (String × List Char) :=
  (readCharacters (text.length + 1) [] text).map fun (characters, rest) =>
    (String.ofList characters, rest)

end Startup.Json
