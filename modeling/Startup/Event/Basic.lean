import Startup.ApplicationKind
import Startup.Failure
import Startup.Reference

/-!
# Events

An event of a run tells of its application, its arguments and what the phase brings along; an
event of a context names the context.
-/

namespace Startup

inductive RunPayload where
  | starting
  | environmentPrepared (environment : Environment)
  | contextInitialized (context : ContextRef)
  | contextLoaded (context : ContextRef)
  | started (context : ContextRef)
  | running (context : ContextRef)
  | failed (context : Option ContextRef) (cause : Cause)
  deriving Inhabited

namespace RunPayload

def phase : RunPayload → Phase
  | starting => .starting
  | environmentPrepared _ => .environmentPrepared
  | contextInitialized _ => .contextInitialized
  | contextLoaded _ => .contextLoaded
  | started _ => .started
  | running _ => .running
  | failed _ _ => .failed

def environment? : RunPayload → Option Environment
  | environmentPrepared environment => some environment
  | _ => none

def context? : RunPayload → Option ContextRef
  | starting => none
  | environmentPrepared _ => none
  | contextInitialized context => some context
  | contextLoaded context => some context
  | started context => some context
  | running context => some context
  | failed context _ => context

def cause? : RunPayload → Option Cause
  | failed _ cause => some cause
  | _ => none

end RunPayload

structure RunEvent where
  application : String
  kind : ApplicationKind
  arguments : List String
  payload : RunPayload
  deriving Inhabited

structure ContextEvent where
  change : ContextChange
  context : String
  deriving DecidableEq, Repr, Inhabited

inductive Event where
  | run (event : RunEvent)
  | context (event : ContextEvent)
  deriving Inhabited

def momentText : String :=
  "<time>"

namespace RunEvent

def inspect (event : RunEvent) (context : Option String) : String :=
  Text.record "RunEvent"
    [("kind", event.payload.phase.name), ("application", Text.quoted event.application),
      ("args", Text.quotedListing event.arguments), ("timestamp", momentText),
      ("context", Text.optional (context.map Text.quoted))]

end RunEvent

namespace ContextEvent

def kind (event : ContextEvent) : EventKind :=
  .context event.change

def inspect (event : ContextEvent) : String :=
  Text.record "ContextEvent"
    [("kind", event.kind.name), ("context_id", Text.quoted event.context),
      ("timestamp", momentText)]

end ContextEvent

namespace Event

def kind : Event → EventKind
  | run event => .run event.payload.phase
  | context event => event.kind

def environment? : Event → Option Environment
  | run event => event.payload.environment?
  | context _ => none

def context? : Event → Option ContextRef
  | run event => event.payload.context?
  | context _ => none

end Event

end Startup
