import Startup.Effect.Delivery
import Startup.Effect.Environment
import Startup.Scenario.Stub

/-!
# Played scripts

What the actions of a script do. An action that fails ends the rules of an event with its cause,
unless it was only attempted.
-/

namespace Startup.Scenario

abbrev Play : Type → Type :=
  ExceptT Cause (Program Memory)

structure Scene where
  listener : Option ListenerId
  event : Option Event
  initializing : Option ContextId

namespace Play

def ask (q : Request Memory) : Play q.Answer :=
  ExceptT.lift (Program.request q)

def fail {α : Type} (text : String) : Play α :=
  throw (.plain text)

def memory : Play Memory :=
  ask .memory

def observe (observation : Observation) : Play Unit :=
  ExceptT.lift (Program.modifyMemory fun memory => memory.observe observation)

def orFail {ε α : Type} (wrap : ε → Cause) : Except ε α → Play α
  | .ok value => return value
  | .error error => throw (wrap error)

end Play

namespace Scene

open Play

/-- The context of an action: the one in a slot, that of the initializer, that of the event, or
the one that the listener keeps. -/
def contextFor (scene : Scene) : Option String → Play ContextRef
  | some slot => do
    match Keyed.find? slot (← memory).contexts with
    | some context => return context
    | none => fail "no context"
  | none => do
    let memory ← memory
    let own := scene.initializing.map ContextRef.managed
    let given := scene.event.bind Event.context?
    let kept := scene.listener.bind memory.kept
    match (own.or given).or kept with
    | some context => return context
    | none => fail "no context"

def applicationContext (scene : Scene) : Option String → Play ContextId
  | some slot => do
    match Keyed.find? slot (← memory).contexts with
    | some (.managed id) => return id
    | _ => fail "no application context"
  | none =>
    match scene.initializing with
    | some id => return id
    | none => fail "no application context"

def noBeans {α : Type} (context : ContextRef) : Play α := do
  let identity : String ← ask (.identity context)
  fail ("context " ++ identity ++ " has no beans")

def resolve (context : ContextRef) (type : BeanType) : Play Bean := do
  let found : Option (Except SetupError Bean) ← ask (.resolve context type)
  match found with
  | none => noBeans context
  | some result => orFail .setup result

def environmentFor (scene : Scene) (place : EnvironmentPlace) : Play Environment := do
  match place.slot with
  | some slot =>
    match Keyed.find? slot (← memory).environments with
    | some environment => return environment
    | none => fail "no environment"
  | none =>
    match scene.event.bind Event.environment? with
    | some environment => return environment
    | none =>
      match ← resolve (← scene.contextFor place.context) .environment with
      | .environment environment => return environment
      | _ => fail "no environment"

def eventFor (scene : Scene) : Option String → Play Event
  | some slot => do
    match Keyed.find? slot (← memory).events with
    | some event => return event
    | none => fail "no event"
  | none =>
    match scene.event with
    | some event => return event
    | none => fail "no event"

end Scene

open Play

def BeanSource.make : BeanSource → Play Bean
  | .bean value => return value
  | .environment pairs => do
    let store : StoreId ← ask (.createStore (Properties.ofPairs pairs))
    return .environment ⟨store, []⟩

mutual

def Action.play (scene : Scene) : Action → Play Unit
  | .log text => observe (.text text)
  | .see => do
    let view ← ExceptT.lift (viewEvent (← scene.eventFor none))
    observe (.event view)
  | .fail cause => throw cause
  | .add place listener => do
    let context ← scene.contextFor place
    ask (.subscribe context listener)
  | .publish place slot => do
    let event ← scene.eventFor slot
    let context ← scene.contextFor place
    let outcome : Except DeliveryError Unit ← ask (.publish context event)
    orFail .delivery outcome
  | .refresh place => do
    let id ← scene.applicationContext place
    let outcome : Except DeliveryError Unit ← ask (.refresh id)
    orFail .delivery outcome
  | .close place => do
    let id ← scene.applicationContext place
    let outcome : Except DeliveryError Unit ← ask (.close id)
    orFail .delivery outcome
  | .context place => do
    let view ← ExceptT.lift (viewContext (← scene.contextFor place))
    observe (.context view)
  | .bean place source => do
    let context ← scene.contextFor place
    let bean ← source.make
    let outcome : Option Unit ← ask (.register context bean)
    match outcome with
    | none => Scene.noBeans context
    | some () => return ()
  | .resolve place type => do
    let bean ← Scene.resolve (← scene.contextFor place) type
    observe (.bean (← ExceptT.lift (viewBean bean)))
  | .assign place key value => do
    let environment ← scene.environmentFor place
    ask (.assign environment.store [(key, value)])
  | .get place key => do
    let environment ← scene.environmentFor place
    let properties : Properties ← ask (.properties environment.store)
    observe (.value (properties.get? key))
  | .load place source text => do
    let environment ← scene.environmentFor place
    orFail .setup (← ExceptT.lift (environment.load source text))
  | .bind place group schema => do
    let environment ← scene.environmentFor place
    let properties : Properties ← ask (.properties environment.store)
    observe (.bound (← orFail .setup (properties.bind group schema)))
  | .attempt actions =>
    tryCatch (Action.playAll scene actions) fun cause => observe (.caught cause.text)

def Action.playAll (scene : Scene) : List Action → Play Unit
  | [] => return ()
  | action :: actions => do
    action.play scene
    Action.playAll scene actions

end

def playRules (id : ListenerId) (event : Event) : Nat → List Rule → Play Unit
  | _, [] => return ()
  | index, rule :: rules => do
    if rule.applies event.kind ((← memory).fired id index) then
      ExceptT.lift (Program.modifyMemory fun memory => memory.countFired id index)
      Action.playAll ⟨some id, some event, none⟩ rule.actions
    playRules id event (index + 1) rules

namespace Script

def nthOrLast {α : Type} (default : α) (items : List α) (n : Nat) : α :=
  (items[n]?.or items.getLast?).getD default

def terms (script : Script) (n : Nat) : Terms :=
  ⟨nthOrLast .all script.filters n, nthOrLast 0 script.orders n⟩

def listener (script : Script) (id : ListenerId) : Listener Memory where
  name := script.name
  declare memory := (script.terms (memory.declared id), memory.countDeclared id)
  onEvent event := ExceptT.run do
    observe (.text (script.label ++ ":" ++ event.kind.name))
    playRules id event 0 script.rules
  onContext :=
    if script.isAware then
      some fun context => do
        let identity : String ← Program.request (.identity context)
        Program.modifyMemory fun memory =>
          (memory.observe (.text (script.label ++ ":set_context:" ++ identity))).keep id context
    else none

def inspect (script : Script) : String :=
  let terms := script.terms 0
  Text.record "FnListener"
    [("name", Text.quoted script.name), ("filter", terms.filter.inspect),
      ("order", Text.decimal terms.order)]

end Script

def initializer (actions : List Action) : ContextId → Program Memory (Except Cause Unit) :=
  fun context => (Action.playAll ⟨none, none, some context⟩ actions).run

/-- A strategy that notes every failure, and ends the delivery at the one after `limit`. -/
def limitStrategy (limit : Nat) : Strategy Memory := fun listener kind cause => do
  let memory ← Act.memory
  Act.remember { memory with handled := memory.handled ++ [⟨listener, kind, cause.text⟩] }
  if memory.handled.length < limit then return .ok ()
  else
    return .error (.listenerFailed "limit" kind (.within ("after " ++ Text.decimal limit) cause))

end Startup.Scenario
