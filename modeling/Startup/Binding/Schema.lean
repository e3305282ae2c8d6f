import Startup.Json.Basic

/-!
# Schemas

What a group of properties can be bound to, and the values that come out. A record names its
fields; a field without a property takes its default, and is missing if it has none.
-/

namespace Startup

/-- How an integer is called that has so many bits. -/
def integerName (isSigned : Bool) (bits : Nat) : String :=
  (if isSigned then "i" else "u") ++ Text.decimal bits

/-- The integers that a text can be bound to have 8, 16, 32 or 64 bits. -/
structure Width where
  isSigned : Bool
  bits : Nat
  supported : bits ∈ [8, 16, 32, 64]
  deriving DecidableEq, Repr

namespace Width

def least (w : Width) : Int :=
  if w.isSigned then -(Nat.pow 2 (w.bits - 1) : Nat) else 0

def greatest (w : Width) : Int :=
  (if w.isSigned then Nat.pow 2 (w.bits - 1) else Nat.pow 2 w.bits : Nat) - 1

def holds (w : Width) (n : Int) : Bool :=
  w.least ≤ n && n ≤ w.greatest

def name (w : Width) : String :=
  integerName w.isSigned w.bits

end Width

inductive Bound where
  | unit
  | bool (value : Bool)
  | integer (value : Int)
  | single (value : Float32)
  | double (value : Float)
  | char (value : Char)
  | text (value : String)
  | absent
  | present (value : Bound)
  | choice (name : String)
  | document (value : Json)
  | map (entries : List (String × Bound))
  | record (fields : List (String × Bound))
  deriving Inhabited

/-- A field of a record: its own name, the name of its property, what it is bound to, and its
value where there is no such property. -/
structure Field (σ : Type) where
  label : String
  property : String
  schema : σ
  default : Option Bound

structure Variant where
  name : String
  wrapsValue : Bool
  deriving DecidableEq, Repr

/-- What is asked for. Integers of 128 bits, which are `wide`, may be asked for but are never
found. -/
inductive Schema where
  | unit
  | bool
  | integer (width : Width)
  | wide (isSigned : Bool)
  | single
  | double
  | char
  | text
  | untyped
  | optional (inner : Schema)
  | sequence (inner : Schema)
  | map (inner : Schema)
  | wrapper (inner : Schema)
  | choice (name : String) (variants : List Variant)
  | record (name : String) (strict : Bool) (fields : List (Field Schema))
  deriving Inhabited

def Field.plain (label : String) (schema : Schema) : Field Schema :=
  ⟨label, label, schema, none⟩

def Field.optional (label : String) (schema : Schema) : Field Schema :=
  ⟨label, label, .optional schema, some .absent⟩

end Startup
