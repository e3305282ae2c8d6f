import Startup.Keyed
import Startup.Text.Blank
import Startup.Text.Split

/-!
# Properties

Texts under keys, in the order of the keys. A later assignment to a key replaces the earlier one.
-/

namespace Startup

structure Properties where
  entries : List (String × String)
  ordered : Keyed.Ordered entries

namespace Properties

def empty : Properties :=
  ⟨[], Keyed.ordered_nil⟩

instance : Inhabited Properties := ⟨empty⟩

def get? (properties : Properties) (key : String) : Option String :=
  Keyed.find? key properties.entries

def getD (properties : Properties) (key default : String) : String :=
  (properties.get? key).getD default

def set (properties : Properties) (key value : String) : Properties :=
  ⟨Keyed.insert key value properties.entries, properties.ordered.insert⟩

def setAll (properties : Properties) (pairs : List (String × String)) : Properties :=
  ⟨Keyed.insertAll pairs properties.entries, properties.ordered.insertAll⟩

def ofPairs (pairs : List (String × String)) : Properties :=
  empty.setAll pairs

def contains (properties : Properties) (key : String) : Bool :=
  (properties.get? key).isSome

def size (properties : Properties) : Nat :=
  properties.entries.length

@[ext] theorem ext {a b : Properties} (h : ∀ key, a.get? key = b.get? key) : a = b := by
  obtain ⟨as, ha⟩ := a
  obtain ⟨bs, hb⟩ := b
  have : as = bs := ha.ext hb h
  subst this
  rfl

@[simp] theorem get?_empty (key : String) : empty.get? key = none := rfl

theorem get?_set (properties : Properties) (key other value : String) :
    (properties.set key value).get? other =
      if other = key then some value else properties.get? other :=
  Keyed.find?_insert key other value properties.entries

@[simp] theorem setAll_nil (properties : Properties) : properties.setAll [] = properties := rfl

@[simp] theorem setAll_cons (properties : Properties) (key value : String)
    (pairs : List (String × String)) :
    properties.setAll ((key, value) :: pairs) = (properties.set key value).setAll pairs := rfl

theorem setAll_append (properties : Properties) (a b : List (String × String)) :
    properties.setAll (a ++ b) = (properties.setAll a).setAll b := by
  induction a generalizing properties with
  | nil => rfl
  | cons pair a ih => exact ih (properties.set pair.1 pair.2)

/-- The last assignment to a key counts, and a key without one keeps its value. -/
theorem get?_setAll (properties : Properties) (pairs : List (String × String)) (key : String) :
    (properties.setAll pairs).get? key =
      (Keyed.find? key pairs.reverse).or (properties.get? key) :=
  Keyed.find?_insertAll key pairs properties.entries

def profilesKey : String := "profiles.active"

/-- The names in a list with commas, without the blanks around them and without empty ones. -/
def profileNames (text : String) : List String :=
  ((Text.splitOn ',' text).map Text.trim).filter fun name => name ≠ ""

def profiles (properties : Properties) : List String :=
  ((properties.get? profilesKey).map profileNames).getD []

end Properties

end Startup
