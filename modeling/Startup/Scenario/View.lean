import Startup.Effect.Program

/-!
# Views

What a listener sees of an environment, a context, a bean or an event at the moment it looks: the
references in them are followed, and what they lead to is kept.
-/

namespace Startup.Scenario

variable {σ : Type}

structure EnvironmentView where
  properties : Properties
  arguments : List String

def EnvironmentView.inspect (view : EnvironmentView) : String :=
  Text.record "Environment"
    [("properties", Text.decimal view.properties.size),
      ("profiles", Text.quotedListing view.properties.profiles),
      ("non_option_args", Text.quotedListing view.arguments)]

structure ContextView where
  identity : String
  isActive : Bool
  listeners : Option (List String)
  beans : Option (List String)

inductive BeanView where
  | value (bean : Bean)
  | environment (properties : Properties)

inductive EventView where
  | run (event : RunEvent) (environment : Option EnvironmentView) (context : Option ContextView)
  | context (event : ContextEvent)

def EventView.inspect : EventView → String
  | .run event _ seen => event.inspect (seen.map ContextView.identity)
  | .context event => event.inspect

def listenerNames : List ListenerId → Program σ (List String)
  | [] => return []
  | id :: ids => do
    let name : String ← Program.request (.listenerName id)
    return name :: (← listenerNames ids)

def viewEnvironment (environment : Environment) : Program σ EnvironmentView := do
  return ⟨← Program.request (.properties environment.store), environment.arguments⟩

def viewContext (context : ContextRef) : Program σ ContextView := do
  let identity : String ← Program.request (.identity context)
  let isActive : Bool ← Program.request (.isActive context)
  let listeners : Option (List ListenerId) ← Program.request (.listeners context)
  let names ← match listeners with
    | none => pure none
    | some ids => some <$> listenerNames ids
  let beans : Option (List String) ← Program.request (.beanTypes context)
  return ⟨identity, isActive, names, beans⟩

def viewBean : Bean → Program σ BeanView
  | .environment environment => do
    return .environment (← Program.request (.properties environment.store))
  | bean => return .value bean

def viewEvent : Event → Program σ EventView
  | .context event => return .context event
  | .run event => do
    let environment ← match event.payload.environment? with
      | none => pure none
      | some environment => some <$> viewEnvironment environment
    let context ← match event.payload.context? with
      | none => pure none
      | some context => some <$> viewContext context
    return .run event environment context

end Startup.Scenario
