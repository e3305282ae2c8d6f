import Startup.Binding.Report
import Startup.Scenario.Script

/-!
# Views as documents

What scripts see and leave behind, as documents.
-/

namespace Startup.Scenario

def EnvironmentView.members (view : EnvironmentView) : List (String × Json) :=
  [("properties", .ofTextMap view.properties.entries),
    ("profiles", .ofTexts view.properties.profiles), ("args", .ofTexts view.arguments)]

def ContextView.members (view : ContextView) : List (String × Json) :=
  [("active", .bool view.isActive), ("listeners", .ofOption .ofTexts view.listeners),
    ("beans", .ofOption .ofTexts view.beans)]

def EventView.members : EventView → List (String × Json)
  | .run event environment place =>
    [("kind", .text event.payload.phase.name),
      ("run", .ofMembers [("payload", .text event.payload.phase.name),
        ("application", .text event.application), ("app_kind", .text event.kind.name),
        ("args", .ofTexts event.arguments),
        ("environment", .ofOption (fun view => .ofMembers view.members) environment),
        ("context",
          .ofOption (fun view => .ofMembers (("id", .text view.identity) :: view.members)) place),
        ("cause", .ofOption (fun cause => .text cause.text) event.payload.cause?),
        ("cause_chain", .ofOption (fun cause => .ofTexts cause.chain) event.payload.cause?)])]
  | .context event =>
    [("kind", .text event.kind.name),
      ("context", .ofMembers [("kind", .text event.kind.name), ("id", .text event.context),
        ("same_time", .bool true)])]

def EventView.report (view : EventView) : Json :=
  .ofMembers (("debug", .text view.inspect) :: view.members)

def settingsDocument (settings : MainSettings) : Json :=
  .ofMembers [("kind", optionDocument (settings.kind.map fun kind => .text kind.name)),
    ("log_startup_info", .bool settings.logStartupInfo)]

def beanDocument : Bean → Json
  | .u32 value => .ofNat value.toNat
  | .u64 value => .ofNat value.toNat
  | .i32 value => .integer value.toInt
  | .bool value => .bool value
  | .char value => .text value.toString
  | .text value => .text value
  | .texts value => .ofTexts value
  | .optionalU32 value => optionDocument (value.map fun value => .ofNat value.toNat)
  | .unit => .null
  | .environment _ => .null
  | .settings value => settingsDocument value
  | .foreign _ index => .ofNat index

def BeanView.report : BeanView → Json
  | .environment properties => .ofTextMap properties.entries
  | .value bean => beanDocument bean

def Observation.report : Observation → Json
  | .text line => .text line
  | .event view => view.report
  | .context view => .ofMembers (("ctx", .text view.identity) :: view.members)
  | .bean view => .ofMembers [("bean", view.report)]
  | .value found => .ofMembers [("get", .ofOption .text found)]
  | .bound result => .ofMembers [("bound", result.report)]
  | .caught message => .ofMembers [("caught", .text message)]

end Startup.Scenario
