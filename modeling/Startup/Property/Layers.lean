import Startup.Property.Arguments
import Startup.Property.Document

/-!
# Layers of properties

The properties of a run come from four layers, each over the one before: defaults, the process
environment if it is wanted, the document under `APPLICATION_JSON` in the first two, and the
arguments.
-/

namespace Startup.Properties

def documentKey : String := "APPLICATION_JSON"

def base (defaults : List (String × String)) (system : Option (List (String × String))) :
    Properties :=
  (ofPairs defaults).setAll (system.getD [])

def documentAssignments (properties : Properties) : Except SetupError (List (String × String)) :=
  match properties.get? documentKey with
  | none => .ok []
  | some text => assignments documentKey text

def prepare (defaults : List (String × String)) (system : Option (List (String × String)))
    (arguments : List String) : Except SetupError Properties := do
  let base := base defaults system
  let document ← base.documentAssignments
  return (base.setAll document).setAll (Argument.assignments arguments)

end Startup.Properties
