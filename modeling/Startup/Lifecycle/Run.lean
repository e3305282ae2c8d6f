import Startup.Context.Builder
import Startup.Lifecycle.Publisher
import Startup.Property.Layers

/-!
# Runs

A run takes an application through its phases: it prepares the properties, reads its settings
from them, makes a context, lets the initializers work on it, refreshes it and announces every
phase on the way. The first error ends the run; after `starting` it is announced as a failure, and
the context is closed, whatever fails while that is done.
-/

namespace Startup

variable {σ : Type}

def Environment.prepare (defaults : List (String × String))
    (system : Option (List (String × String))) (arguments : List String) :
    Act σ (Except SetupError Environment) := do
  match Properties.prepare defaults system arguments with
  | .error error => return .error error
  | .ok properties =>
    let store ← Act.addStore properties
    Act.write (.preparedEnvironment properties.size properties.profiles)
    return .ok ⟨store, Argument.plains arguments⟩

/-- How far a run has come: its publisher, and its context once there is one. -/
structure Progress (σ : Type) where
  publisher : Publisher σ
  context : Option ContextId

/-- A part of a run, which an error ends. -/
abbrev Stage (σ : Type) : Type → Type :=
  ExceptT RunError (StateT (Progress σ) (Act σ))

namespace Stage

def attempt {ε α : Type} (wrap : ε → RunError) (act : Act σ (Except ε α)) : Stage σ α :=
  ExceptT.mk do
    let outcome ← (act : StateT (Progress σ) (Act σ) (Except ε α))
    return outcome.mapError wrap

def announce (host : Host σ) (payload : RunPayload) : Stage σ Unit :=
  ExceptT.mk do
    let progress ← get
    let (outcome, publisher) ← (progress.publisher.announce host payload : Act σ _)
    set { progress with publisher := publisher }
    return outcome

def createContext (host : Host σ) (application : Application σ) (settings : MainSettings)
    (environment : Environment) : Stage σ ContextId :=
  ExceptT.mk do
    let kind := settings.kind.getD application.kind
    let id ← (ContextId.build host [.kind kind, .displayName application.name] : Act σ _)
    (id.register (.environment environment) : Act σ _)
    modify fun progress => { progress with context := some id }
    let context ← (Act.context id : Act σ _)
    (Act.write (.createdContext kind context.identity.full) : Act σ _)
    return .ok id

end Stage

namespace Application

/-- Everything between `starting` and the end of a successful run. -/
def launch (host : Host σ) (application : Application σ) (system : List (String × String))
    (arguments : List String) : Stage σ (ContextId × MainSettings) := do
  let system := if application.includesSystem then some system else none
  let environment ← Stage.attempt .setup
    (Environment.prepare application.defaults system arguments)
  Stage.announce host (.environmentPrepared environment)
  let settings ← Stage.attempt .setup do
    return (← Act.properties environment.store).settings
  let context ← Stage.createContext host application settings environment
  application.initializers.forM fun initializer =>
    Stage.attempt .startupFailed (host.perform (initializer context))
  Stage.announce host (.contextInitialized (.managed context))
  Stage.announce host (.contextLoaded (.managed context))
  Stage.attempt .delivery (context.refresh host)
  Stage.announce host (.started (.managed context))
  Stage.announce host (.running (.managed context))
  return (context, settings)

/-- Announces the failure of a run. What fails on the way is written down and changes nothing. -/
def announceFailure (host : Host σ) (application : Application σ) (progress : Progress σ)
    (cause : Cause) : Act σ Unit := do
  let (reported, _) ←
    progress.publisher.announce host (.failed (progress.context.map .managed) cause)
  match reported with
  | .error error => Act.write (.reportFailed application.name error)
  | .ok () => pure ()

def closeContext (host : Host σ) (application : Application σ) (progress : Progress σ) :
    Act σ Unit := do
  match progress.context with
  | none => pure ()
  | some context =>
    match ← context.close host with
    | .error error => Act.write (.closeFailed application.name error)
    | .ok () => pure ()

def reportFailure (host : Host σ) (application : Application σ) (progress : Progress σ)
    (error : RunError) : Act σ RunError := do
  let cause := error.toCause
  Act.write (.failedToStart application.name cause)
  announceFailure host application progress cause
  closeContext host application progress
  return .startupFailed cause

def start (host : Host σ) (application : Application σ) (arguments : List String) :
    Act σ (Except RunError Unit × Publisher σ) := do
  let publisher ← Publisher.create host application arguments
  Act.write (.startingApplication application.name)
  publisher.announce host .starting

/-- Runs an application in a process environment with some arguments. The answer is the context,
active, or the error that ended the run. -/
def run (host : Host σ) (application : Application σ) (system : List (String × String))
    (arguments : List String) : Act σ (Except RunError ContextId) := do
  let (started, publisher) ← application.start host arguments
  match started with
  | .error error => return .error error
  | .ok () =>
    let start : Progress σ := ⟨publisher, none⟩
    let (outcome, progress) ← (application.launch host system arguments).run.run start
    match outcome with
    | .ok (context, settings) =>
      if settings.logStartupInfo then Act.write (.startedApplication application.name)
      return .ok context
    | .error error => return .error (← reportFailure host application progress error)

end Application

end Startup
