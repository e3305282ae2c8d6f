import Startup.Json.Access
import Startup.Json.Parser
import Startup.Scenario.Script

/-!
# Scripts in documents

A script is written as an object: its form, name, filter and order, and its rules with their
actions. Listeners are spoken of by slots, in the order of their names.
-/

namespace Startup

open Json

def EventKind.ofDocument (value : Json) : Result EventKind := do
  match EventKind.ofName? (← value.asText) with
  | some kind => return kind
  | none => throw "kind expected"

def ApplicationKind.ofDocument (value : Json) : Result ApplicationKind := do
  match ApplicationKind.ofName? (← value.asText) with
  | some kind => return kind
  | none => throw "application kind expected"

def EventFilter.ofDocument : Json → Result EventFilter
  | .null => return .all
  | .text "All" => return .all
  | .text "Run" => return .run
  | .text "Context" => return .context
  | .list items => return .kinds (← items.mapM EventKind.ofDocument)
  | value => return .only (← EventKind.ofDocument value)

def Cause.ofDocument (value : Json) : Result Cause := do
  match value with
  | .null => return .ofTexts "" []
  | value =>
    match ← value.asTexts with
    | [] => return .ofTexts "" []
    | root :: contexts => return .ofTexts root contexts

def BeanType.ofDocument (value : Json) : Result BeanType := do
  match ← value.asText with
  | "u32" => return .u32
  | "u64" => return .u64
  | "i32" => return .i32
  | "bool" => return .bool
  | "char" => return .char
  | "String" => return .text
  | "Vec<String>" => return .texts
  | "Option<u32>" => return .optionalU32
  | "()" => return .unit
  | "Environment" => return .environment
  | "MainSettings" => return .settings
  | other => throw ("unknown bean type " ++ other)

def MainSettings.ofDocument (value : Json) : Result MainSettings := do
  let kind ← value.optional ApplicationKind.ofDocument "kind"
  let flag ← value.optional asBool "log-startup-info"
  return ⟨kind, flag.getD true⟩

namespace Scenario

def asWord (value : Json) : Result UInt32 := do
  return UInt32.ofNat (← value.asInteger).toNat

def BeanSource.ofDocument (type : BeanType) (value : Json) : Result BeanSource := do
  match type with
  | .u32 => return .bean (.u32 (← asWord value))
  | .u64 => return .bean (.u64 (UInt64.ofNat (← value.asInteger).toNat))
  | .i32 => return .bean (.i32 (Int32.ofInt (← value.asInteger)))
  | .bool => return .bean (.bool (← value.asBool))
  | .char =>
    match (← value.asText).toList with
    | [c] => return .bean (.char c)
    | _ => throw "character expected"
  | .text => return .bean (.text (← value.asText))
  | .texts => return .bean (.texts (← value.asTexts))
  | .optionalU32 =>
    match value with
    | .null => return .bean (.optionalU32 none)
    | value => return .bean (.optionalU32 (some (← asWord value)))
  | .unit => return .bean .unit
  | .environment => return .environment (← value.asTextMap)
  | .settings => return .bean (.settings (← MainSettings.ofDocument value))
  | .foreign type => return .bean (.foreign type (← value.asInteger).toNat)

def BeanSource.ofFields (value : Json) : Result BeanSource := do
  BeanSource.ofDocument (← value.required BeanType.ofDocument "type") (value.member "value")

abbrev Slots := List (String × ListenerId)

def Slots.listener (slots : Slots) (value : Json) : Result ListenerId := do
  let slot ← value.asText
  match Keyed.find? slot slots with
  | some id => return id
  | none => throw ("no listener " ++ slot)

def Action.ofDocument (schema : Json → Result Schema) (slots : Slots) :
    Nat → Json → Result Action
  | 0, _ => throw "actions nest too deep"
  | depth + 1, value => do
    let context ← value.optional asText "ctx"
    let place : EnvironmentPlace := ⟨← value.optional asText "env", context⟩
    match ← value.textField "a" with
    | "log" => return .log (← value.textField "text")
    | "see" => return .see
    | "fail" => return .fail (← Cause.ofDocument (value.member "chain"))
    | "add" => return .add context (← value.required slots.listener "listener")
    | "publish" => return .publish context (← value.optional asText "event")
    | "refresh" => return .refresh context
    | "close" => return .close context
    | "ctx" => return .context context
    | "bean" => return .bean context (← BeanSource.ofFields value)
    | "resolve" => return .resolve context (← value.required BeanType.ofDocument "type")
    | "env_set" =>
      return .assign place (← value.textField "key") (← value.textField "value")
    | "env_get" => return .get place (← value.textField "key")
    | "env_load" =>
      return .load place (← value.textField "source") (← value.textField "json")
    | "env_bind" =>
      return .bind place (← value.textField "prefix") (← value.required schema "type")
    | "try" => return .attempt (← value.each (Action.ofDocument schema slots depth) "acts")
    | other => throw ("unknown action " ++ other)

def actionDepth : Nat := Json.depthLimit

def Action.read (schema : Json → Result Schema) (slots : Slots) : Json → Result Action :=
  Action.ofDocument schema slots actionDepth

def Rule.ofDocument (schema : Json → Result Schema) (slots : Slots) (value : Json) :
    Result Rule := do
  let kinds ← match value.field? "on" with
    | none => pure none
    | some _ => some <$> value.each EventKind.ofDocument "on"
  let times ← value.optional asInteger "times"
  return ⟨kinds, times.map Int.toNat, ← value.each (Action.read schema slots) "do"⟩

inductive Form where
  | function
  | scripted
  | plain
  deriving DecidableEq, Repr

def Form.ofDocument (value : Json) : Result Form := do
  match ← value.optional asText "type" with
  | none => return .function
  | some "fn" => return .function
  | some "scripted" => return .scripted
  | some "plain" => return .plain
  | some other => throw ("unknown listener type " ++ other)

def Script.ofDocument (schema : Json → Result Schema) (unnamed : String) (slots : Slots)
    (slot : String) (value : Json) : Result Script := do
  let label := (← value.optional asText "name").getD slot
  let rules ← value.each (Rule.ofDocument schema slots) "rules"
  let filter ← EventFilter.ofDocument (value.member "filter")
  let order := (← value.optional asInteger "order").getD 0
  match ← Form.ofDocument value with
  | .plain => return ⟨unnamed, label, [.all], [0], false, rules⟩
  | .function => return ⟨label, label, [filter], [order], false, rules⟩
  | .scripted =>
    let filters ← value.each EventFilter.ofDocument "filters"
    let orders ← value.each asInteger "orders"
    let aware := (← value.optional asBool "aware").getD false
    return ⟨label, label, if filters.isEmpty then [filter] else filters,
      if orders.isEmpty then [order] else orders, aware, rules⟩

end Scenario

end Startup
