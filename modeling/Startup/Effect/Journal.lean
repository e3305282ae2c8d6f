import Startup.Event.Basic
import Startup.Multicaster
import Startup.Bean

/-!
# The journal

What the library reports while it works, entry by entry, with the level and the text of each. An
entry keeps what it tells of, so that a history of deliveries can be read off it.
-/

namespace Startup

inductive Level where
  | trace
  | debug
  | info
  | warn
  | error
  deriving DecidableEq, Repr

def Level.name : Level → String
  | trace => "TRACE"
  | debug => "DEBUG"
  | info => "INFO"
  | warn => "WARN"
  | error => "ERROR"

inductive Origin where
  | context (context : ContextId)
  | other
  deriving DecidableEq, Repr

inductive Entry where
  | registered (registration : Registration)
  | broadcasting (origin : Origin) (kind : EventKind) (count : Nat)
  | invoking (origin : Origin) (listener : ListenerId) (name : String) (kind : EventKind)
  | listenerFailed (name : String) (kind : EventKind) (cause : Cause)
  | listenerIgnored (name : String) (kind : EventKind) (cause : Cause)
  | startingApplication (name : String)
  | publishing (phase : Phase) (application : String)
  | preparedEnvironment (count : Nat) (profiles : List String)
  | createdContext (kind : ApplicationKind) (identity : String)
  | supplyingContext (identity : String) (listener : ListenerId) (name : String)
  | handedOver (count : Nat) (identity : String)
  | refreshed (context : ContextId) (displayName : String) (beans : Nat)
  | refreshFailed (context : ContextId) (displayName : String) (error : DeliveryError)
  | closed (context : ContextId) (displayName : String)
  | failedThroughContext (identity : String)
  | cannotEnumerate (identity : String) (count : Nat)
  | copiedListeners (count : Nat) (identity : String)
  | replacedBean (type : BeanType)
  | startedApplication (name : String)
  | failedToStart (name : String) (cause : Cause)
  | reportFailed (name : String) (error : RunError)
  | closeFailed (name : String) (error : DeliveryError)

/-- How the seconds of a run are shown, which no two runs share. -/
def secondsText : String :=
  "<secs>"

namespace Entry

def level : Entry → Level
  | registered _ => .trace
  | broadcasting _ _ _ => .debug
  | invoking _ _ _ _ => .debug
  | listenerFailed _ _ _ => .error
  | listenerIgnored _ _ _ => .warn
  | startingApplication _ => .info
  | publishing _ _ => .info
  | preparedEnvironment _ _ => .debug
  | createdContext _ _ => .debug
  | supplyingContext _ _ _ => .debug
  | handedOver _ _ => .info
  | refreshed _ _ _ => .info
  | refreshFailed _ _ _ => .warn
  | closed _ _ => .info
  | failedThroughContext _ => .debug
  | cannotEnumerate _ _ => .debug
  | copiedListeners _ _ => .debug
  | replacedBean _ => .debug
  | startedApplication _ => .info
  | failedToStart _ _ => .error
  | reportFailed _ _ => .warn
  | closeFailed _ _ => .warn

def text : Entry → String
  | registered r =>
    "Registered listener " ++ r.name ++ " (order " ++ Text.decimal r.order ++ ", filter " ++
      r.filter.inspect ++ ")"
  | broadcasting _ kind count =>
    "Broadcasting " ++ kind.name ++ " to " ++ Text.decimal count ++ " listener(s)"
  | invoking _ _ name kind => "Invoking " ++ name ++ " for " ++ kind.name
  | listenerFailed name kind cause =>
    "Listener " ++ name ++ " failed handling " ++ kind.name ++ ": " ++ cause.text
  | listenerIgnored name kind cause =>
    "Error calling application listener " ++ name ++ " for " ++ kind.name ++ ": " ++ cause.text
  | startingApplication name => "Starting application " ++ name
  | publishing phase application => "Publishing " ++ phase.name ++ " for " ++ application
  | preparedEnvironment count profiles =>
    "Prepared environment with " ++ Text.decimal count ++ " properties, profiles " ++
      Text.quotedListing profiles
  | createdContext kind identity => "Created " ++ kind.name ++ " context " ++ identity
  | supplyingContext identity _ name => "Supplying context " ++ identity ++ " to " ++ name
  | handedOver count identity =>
    "Handed " ++ Text.decimal count ++ " listener(s) over to context " ++ identity
  | refreshed _ displayName beans =>
    "Refreshed context " ++ displayName ++ " (" ++ Text.decimal beans ++ " beans)"
  | refreshFailed _ displayName error =>
    "Refresh of context " ++ displayName ++ " failed: " ++ error.message
  | closed _ displayName => "Closed context " ++ displayName
  | failedThroughContext identity =>
    "Publishing " ++ Phase.failed.name ++ " through context " ++ identity
  | cannotEnumerate identity count =>
    "Context " ++ identity ++ " cannot enumerate its listeners; failing over with " ++
      Text.decimal count ++ " bootstrap listener(s)"
  | copiedListeners count identity =>
    "Copied " ++ Text.decimal count ++ " listener(s) from inactive context " ++ identity
  | replacedBean type => "Replaced bean " ++ type.name
  | startedApplication name => "Started " ++ name ++ " in " ++ secondsText ++ "s"
  | failedToStart name cause =>
    "Application " ++ name ++ " failed to start: " ++ cause.text
  | reportFailed name error =>
    "Error handling failed start of " ++ name ++ ": " ++ error.message
  | closeFailed name error =>
    "Error closing context of " ++ name ++ " after failed start: " ++ error.message

def line (entry : Entry) : String :=
  entry.level.name ++ " " ++ entry.text

end Entry

end Startup
