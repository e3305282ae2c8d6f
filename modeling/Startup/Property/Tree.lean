import Startup.Property.Store
import Startup.Text.Layout

/-!
# Trees of properties

The properties below a group, by the segments of their keys. A place in the tree holds a text or
children, never both, and a segment may be empty.
-/

namespace Startup

inductive PropertyTree where
  | leaf (text : String)
  | group (children : List (String × PropertyTree))
  deriving Inhabited

inductive Conflict where
  | belowValue (path : String)
  | valueAndGroup (segment : String)
  deriving DecidableEq, Repr

def Conflict.message : Conflict → String
  | belowValue path => "cannot place '" ++ path ++ "' below a value"
  | valueAndGroup segment => "'" ++ segment ++ "' is both a value and a group"

namespace PropertyTree

def empty : PropertyTree :=
  group []

/-- Puts a text at the path `head`, `rest`. The result is the tree afterwards, also where the text
found no place, and the conflict if there was one. -/
def insert (head : String) (rest : List String) (text : String) :
    PropertyTree → PropertyTree × Option Conflict
  | leaf old => (leaf old, some (.belowValue (Text.joined "." (head :: rest))))
  | group children =>
    match rest with
    | [] =>
      match Keyed.find? head children with
      | some (group _) => (group children, some (.valueAndGroup head))
      | _ => (group (Keyed.insert head (leaf text) children), none)
    | next :: rest =>
      match (Keyed.find? head children).getD empty with
      | leaf _ => (group children, some (.valueAndGroup head))
      | group inner =>
        let (child, conflict) := insert next rest text (group inner)
        (group (Keyed.insert head child children), conflict)

def insertKey (key text : String) (tree : PropertyTree) : PropertyTree × Option Conflict :=
  match Text.splitOn '.' key with
  | [] => (tree, none)
  | head :: rest => tree.insert head rest text

/-- The tree of some keys and texts, in their order, up to the first conflict. -/
def extend (tree : PropertyTree) : List (String × String) → Except Conflict PropertyTree
  | [] => .ok tree
  | (key, text) :: entries =>
    match tree.insertKey key text with
    | (_, some conflict) => .error conflict
    | (tree, none) => extend tree entries

def ofEntries (entries : List (String × String)) : Except Conflict PropertyTree :=
  empty.extend entries

end PropertyTree

def Properties.below (properties : Properties) (group : String) : List (String × String) :=
  properties.entries.filterMap fun (key, text) =>
    (Text.stripLead (group ++ ".") key).map fun rest => (rest, text)

end Startup
