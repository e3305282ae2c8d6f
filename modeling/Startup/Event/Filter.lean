import Startup.Event.Kind
import Startup.Text.Layout

/-!
# Filters

Which kinds of events a listener wants.
-/

namespace Startup

inductive EventFilter where
  | all
  | run
  | context
  | kinds (wanted : List EventKind)
  deriving DecidableEq, Repr, Inhabited

namespace EventFilter

def only (kind : EventKind) : EventFilter :=
  kinds [kind]

def accepts : EventFilter → EventKind → Bool
  | all, _ => true
  | run, kind => kind.isPhase
  | context, kind => kind.isContextChange
  | kinds wanted, kind => wanted.contains kind

@[simp] theorem accepts_all (kind : EventKind) : all.accepts kind = true := rfl

@[simp] theorem accepts_kinds {wanted : List EventKind} {kind : EventKind} :
    (kinds wanted).accepts kind = true ↔ kind ∈ wanted := by
  simp [accepts]

def accepted (filter : EventFilter) : List EventKind :=
  EventKind.all.filter filter.accepts

def inspect : EventFilter → String
  | all => "All"
  | run => "Run"
  | context => "Context"
  | kinds wanted => "Kinds(" ++ Text.listing (wanted.map EventKind.name) ++ ")"

end EventFilter

end Startup
