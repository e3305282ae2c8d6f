import Startup.Property.Store

/-!
# Arguments of a run

An argument that begins with two hyphens, and is more than these, assigns a property; all others
are kept as they are.
-/

namespace Startup

inductive Argument where
  | option (key value : String)
  | plain (text : String)
  deriving DecidableEq, Repr

namespace Argument

def ofText (text : String) : Argument :=
  match Text.stripLead "--" text with
  | none => plain text
  | some body =>
    if body = "" then plain text
    else match Text.splitFirst '=' body with
      | some (key, value) => option key value
      | none => option body ""

def assignment? : Argument → Option (String × String)
  | option key value => some (key, value)
  | plain _ => none

def plain? : Argument → Option String
  | option _ _ => none
  | plain text => some text

def assignments (arguments : List String) : List (String × String) :=
  arguments.filterMap fun text => (ofText text).assignment?

def plains (arguments : List String) : List String :=
  arguments.filterMap fun text => (ofText text).plain?

end Argument

end Startup
