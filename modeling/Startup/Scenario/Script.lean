import Startup.Effect.Listener
import Startup.Scenario.View

/-!
# Scripts

Listeners and initializers that are described instead of programmed: rules say which actions an
event sets off, and how often. Actions speak of contexts, environments and events by slots, which
are looked up in a memory that all scripts share.
-/

namespace Startup.Scenario

inductive BeanSource where
  | bean (bean : Bean)
  | environment (pairs : List (String × String))

structure EnvironmentPlace where
  slot : Option String
  context : Option String
  deriving DecidableEq, Repr

inductive Action where
  | log (text : String)
  | see
  | fail (cause : Cause)
  | add (context : Option String) (listener : ListenerId)
  | publish (context event : Option String)
  | refresh (context : Option String)
  | close (context : Option String)
  | context (context : Option String)
  | bean (context : Option String) (source : BeanSource)
  | resolve (context : Option String) (type : BeanType)
  | assign (place : EnvironmentPlace) (key value : String)
  | get (place : EnvironmentPlace) (key : String)
  | load (place : EnvironmentPlace) (source text : String)
  | bind (place : EnvironmentPlace) (group : String) (schema : Schema)
  | attempt (actions : List Action)

/-- Actions for events of some kinds, or of all, at most so many times. -/
structure Rule where
  kinds : Option (List EventKind)
  times : Option Nat
  actions : List Action

def Rule.applies (rule : Rule) (kind : EventKind) (fired : Nat) : Bool :=
  rule.kinds.all (·.contains kind) && rule.times.all (fired < ·)

/-- A described listener. Its terms are declared in turn, the last ones again and again. -/
structure Script where
  name : String
  label : String
  filters : List EventFilter
  orders : List Int
  isAware : Bool
  rules : List Rule

inductive Observation where
  | text (text : String)
  | event (view : EventView)
  | context (view : ContextView)
  | bean (view : BeanView)
  | value (value : Option String)
  | bound (value : Bound)
  | caught (text : String)

structure Handled where
  listener : String
  kind : EventKind
  text : String
  deriving DecidableEq, Repr

structure Stub where
  name : String
  isActive : Bool
  isEnumerable : Bool
  multicaster : Multicaster
  published : List EventKind
  deriving DecidableEq, Repr

structure Memory where
  observations : List Observation
  handled : List Handled
  contexts : List (String × ContextRef)
  environments : List (String × Environment)
  events : List (String × Event)
  stubs : List Stub
  declared : ListenerId → Nat
  fired : ListenerId → Nat → Nat
  kept : ListenerId → Option ContextRef
  awaited : Option EventKind
  caught : Option Event

namespace Memory

def empty : Memory :=
  ⟨[], [], [], [], [], [], fun _ => 0, fun _ _ => 0, fun _ => none, none, none⟩

instance : Inhabited Memory := ⟨empty⟩

def observe (memory : Memory) (observation : Observation) : Memory :=
  { memory with observations := memory.observations ++ [observation] }

def countDeclared (memory : Memory) (id : ListenerId) : Memory :=
  { memory with
    declared := fun other => memory.declared other + if other = id then 1 else 0 }

def countFired (memory : Memory) (id : ListenerId) (rule : Nat) : Memory :=
  { memory with
    fired := fun other index =>
      memory.fired other index + if other = id ∧ index = rule then 1 else 0 }

def keep (memory : Memory) (id : ListenerId) (context : ContextRef) : Memory :=
  { memory with
    kept := fun other => (memory.kept other).or (if other = id then some context else none) }

end Memory

end Startup.Scenario
