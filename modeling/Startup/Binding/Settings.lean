import Startup.ApplicationKind
import Startup.Binding.Decode

/-!
# Settings of a run

The properties below `main` that a run itself looks at: the kind of its context, and whether it
reports the time it took. Both may be left out.
-/

namespace Startup

def ApplicationKind.schema : Schema :=
  .choice "ApplicationKind" (ApplicationKind.all.map fun kind => ⟨kind.name, false⟩)

structure MainSettings where
  kind : Option ApplicationKind
  logStartupInfo : Bool
  deriving DecidableEq, Repr

namespace MainSettings

instance : Inhabited MainSettings := ⟨⟨none, true⟩⟩

def group : String := "main"

def schema : Schema :=
  .record "MainSettings" false
    [⟨"kind", "kind", .optional ApplicationKind.schema, some .absent⟩,
      ⟨"log_startup_info", "log-startup-info", .bool, some (.bool true)⟩]

def kindOf? : Bound → Option ApplicationKind
  | .present (.choice name) => ApplicationKind.ofName? name
  | _ => none

def flagOf (default : Bool) : Bound → Bool
  | .bool value => value
  | _ => default

def ofBound : Bound → MainSettings
  | .record fields =>
    ⟨(Keyed.find? "kind" fields).bind kindOf?,
      ((Keyed.find? "log_startup_info" fields).map (flagOf true)).getD true⟩
  | _ => default

end MainSettings

def Properties.settings (properties : Properties) : Except SetupError MainSettings :=
  (properties.bind MainSettings.group MainSettings.schema).map MainSettings.ofBound

end Startup
