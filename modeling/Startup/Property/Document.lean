import Startup.Failure
import Startup.Json.Parser
import Startup.Json.Printer
import Startup.Property.Store

/-!
# Properties from a document

Every leaf of an object becomes a property: its key is the path to it, a member's name behind a
point and an item's index between brackets. Nulls and empty containers leave nothing. A document
that cannot be read, or is no object, changes no property.
-/

namespace Startup

inductive Step where
  | member (name : String)
  | item (index : Nat)
  deriving DecidableEq, Repr

namespace Step

def text : Step → String
  | member name => "." ++ name
  | item index => "[" ++ Text.decimal index ++ "]"

def key (top : String) (path : List Step) : String :=
  path.foldl (fun key step => key ++ step.text) top

end Step

namespace Json

mutual

/-- The leaves that are not null with their paths, members in the order of their names and items
by index. -/
def leaves : Json → List (List Step × String)
  | null => []
  | text value => [([], value)]
  | list items => itemLeaves 0 items
  | object members => memberLeaves members
  | bool value => [([], (Json.bool value).print)]
  | integer value => [([], (Json.integer value).print)]
  | double value => [([], (Json.double value).print)]

def itemLeaves (index : Nat) : List Json → List (List Step × String)
  | [] => []
  | item :: items =>
    (item.leaves.map fun (path, value) => (Step.item index :: path, value)) ++
      itemLeaves (index + 1) items

def memberLeaves : List (String × Json) → List (List Step × String)
  | [] => []
  | (name, value) :: members =>
    (value.leaves.map fun (path, value) => (Step.member name :: path, value)) ++
      memberLeaves members

end

def flatten : List (String × Json) → List (String × String)
  | [] => []
  | (name, value) :: members =>
    (value.leaves.map fun (path, value) => (Step.key name path, value)) ++ flatten members

end Json

namespace Properties

def assignments (source text : String) : Except SetupError (List (String × String)) :=
  match Json.parse text with
  | .error problem => .error (.invalidPropertySource source problem)
  | .ok (.object members) => .ok (Json.flatten members)
  | .ok other =>
    .error (.invalidPropertySource source ("expected an object, found " ++ other.print))

def load (properties : Properties) (source text : String) : Except SetupError Properties :=
  (assignments source text).map properties.setAll

end Properties

end Startup
