import Startup.Lifecycle.Publisher
import Startup.Context.Builder
import Startup.Scenario.Play

/-!
# Captured events

An event for a script is the one that a publisher, or a context, delivers for it: a listener waits
for its kind and keeps it.
-/

namespace Startup.Scenario

def catcher : Listener Memory where
  name := "catcher"
  declare memory := (⟨.all, 0⟩, memory)
  onEvent event := do
    Program.modifyMemory fun memory =>
      if memory.awaited = some event.kind then
        { memory with awaited := none, caught := some event }
      else memory
    return .ok ()
  onContext := none

def directory (scripts : List Script) : Directory Memory where
  listener id :=
    match scripts[id.index]? with
    | some script => script.listener id
    | none => catcher
  foreign := stubContext

def announceAll (host : Host Memory) : List RunPayload → Publisher Memory → Act Memory Unit
  | [], _ => return ()
  | payload :: payloads, publisher => do
    let (_, publisher) ← publisher.announce host payload
    announceAll host payloads publisher

/-- Announces every phase up to `running` for an application of its own, through an active stub;
or a failure, first and alone. -/
def announcePhases (host : Host Memory) (catcher : ListenerId) (arguments : List String)
    (cause : Cause) (phase : Phase) : Act Memory Unit := do
  let application : Application Memory :=
    { Application.plain with name := "event-app", listeners := [catcher] }
  let publisher ← Publisher.create host application arguments
  if phase = .failed then announceAll host [.failed none cause] publisher
  else
    let (stub, memory) := (← Act.memory).addStub (Stub.create "event-ctx" true true)
    Act.remember memory
    let context := ContextRef.foreign stub
    let environment : Environment := ⟨← Act.addStore .empty, []⟩
    announceAll host
      [.starting, .environmentPrepared environment, .contextInitialized context,
        .contextLoaded context, .started context, .running context] publisher

def announceChanges (host : Host Memory) (catcher : ListenerId) : Act Memory Unit := do
  let context ← ContextId.build host [.listener catcher]
  discard (context.refresh host)
  discard (context.close host)

def capture (host : Host Memory) (catcher : ListenerId) (arguments : List String) (cause : Cause)
    (kind : EventKind) : Act Memory (Option Event) := do
  Act.remember { ← Act.memory with awaited := some kind, caught := none }
  match kind with
  | .run phase => announcePhases host catcher arguments cause phase
  | .context _ => announceChanges host catcher
  return (← Act.memory).caught

end Startup.Scenario
