import Startup.Effect.Program

/-!
# Applications

What a run starts from: a name and a kind, listeners in the order they were given, default
properties, initializers, and whether the process environment counts.
-/

namespace Startup

structure Application (σ : Type) where
  name : String
  kind : ApplicationKind
  listeners : List ListenerId
  defaults : List (String × String)
  initializers : List (ContextId → Program σ (Except Cause Unit))
  includesSystem : Bool

namespace Application

variable {σ : Type}

def plain : Application σ :=
  ⟨"application", default, [], [], [], true⟩

instance : Inhabited (Application σ) := ⟨plain⟩

def addListener (application : Application σ) (listener : ListenerId) : Application σ :=
  { application with listeners := application.listeners ++ [listener] }

def addListeners (application : Application σ) (listeners : List ListenerId) : Application σ :=
  { application with listeners := application.listeners ++ listeners }

def addDefault (application : Application σ) (key value : String) : Application σ :=
  { application with defaults := application.defaults ++ [(key, value)] }

def addInitializer (application : Application σ)
    (initializer : ContextId → Program σ (Except Cause Unit)) : Application σ :=
  { application with initializers := application.initializers ++ [initializer] }

def inspect (application : Application σ) (names : List String) : String :=
  Text.record "Application"
    [("name", Text.quoted application.name), ("kind", application.kind.inspect),
      ("listeners", Text.quotedListing names),
      ("initializers", Text.decimal application.initializers.length)]

end Application

end Startup
