import Startup.Decimal.Style
import Startup.Keyed

/-!
# Documents

A document is a null, a boolean, an integer, a double, a text, a list or an object. The members of
an object stand in the order of their names, one for a name.
-/

namespace Startup

inductive Json where
  | null
  | bool (value : Bool)
  | integer (value : Int)
  | double (value : Float)
  | text (value : String)
  | list (items : List Json)
  | object (members : List (String × Json))
  deriving Inhabited

namespace Json

inductive Ordered : Json → Prop where
  | null : Ordered null
  | bool (value : Bool) : Ordered (bool value)
  | integer (value : Int) : Ordered (integer value)
  | double (value : Float) : Ordered (double value)
  | text (value : String) : Ordered (text value)
  | list {items : List Json} (each : ∀ item ∈ items, Ordered item) : Ordered (list items)
  | object {members : List (String × Json)} (names : Keyed.Ordered members)
      (each : ∀ member ∈ members, Ordered member.2) : Ordered (object members)

end Json

end Startup
