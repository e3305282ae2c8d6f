import Startup.Event.Kind
import Startup.Text.Layout

/-!
# Failures

What can go wrong when an event is delivered, when an application is set up and when its phases
are published, with the text of each. A cause is the report of a listener or an initializer: a
text, a text put around another cause, or one of the failures of this library taken as one link.
-/

namespace Startup

inductive SetupError where
  | beanNotFound (typeName : String)
  | downcastFailed (typeName : String)
  | bindingFailed (group : String) (problem : String)
  | invalidPropertySource (source : String) (problem : String)
  deriving DecidableEq, Repr, Inhabited

mutual

/-- Why something failed: a chain of texts, outermost first, that ends in a text or a failure. -/
inductive Cause where
  | plain (text : String)
  | within (context : String) (inner : Cause)
  | delivery (error : DeliveryError)
  | setup (error : SetupError)
  | run (error : RunError)

inductive DeliveryError where
  | listenerFailed (listener : String) (event : EventKind) (cause : Cause)
  | contextInactive (context : String) (event : EventKind)
  | invalidState (context : String) (operation : String) (state : String)

inductive RunError where
  | invalidTransition (previous : Option EventKind) (attempted : EventKind)
  | delivery (error : DeliveryError)
  | setup (error : SetupError)
  | startupFailed (cause : Cause)

end

instance : Inhabited Cause := ⟨.plain ""⟩
instance : Inhabited DeliveryError := ⟨.contextInactive "" default⟩
instance : Inhabited RunError := ⟨.setup default⟩

def SetupError.message : SetupError → String
  | beanNotFound typeName => "Bean not found: " ++ typeName
  | downcastFailed typeName => "Failed to downcast bean: " ++ typeName
  | bindingFailed group problem =>
    "Failed to bind properties under '" ++ group ++ "': " ++ problem
  | invalidPropertySource source problem =>
    "Invalid JSON property source in " ++ source ++ ": " ++ problem

def RunError.previousName : Option EventKind → String
  | none => "construction"
  | some kind => kind.name

mutual

/-- The links of a cause, outermost first. A failure of this library is one link, whatever it
encloses. -/
def Cause.chain : Cause → List String
  | .plain text => [text]
  | .within context inner => context :: inner.chain
  | .delivery error => [error.message]
  | .setup error => [error.message]
  | .run error => [error.message]

def DeliveryError.message : DeliveryError → String
  | .listenerFailed listener event cause =>
    "Listener '" ++ listener ++ "' failed handling " ++ event.name ++ ": " ++
      Text.joined ": " cause.chain
  | .contextInactive context event =>
    "Context " ++ context ++ " is not active; cannot publish " ++ event.name
  | .invalidState context operation state =>
    "Cannot " ++ operation ++ " context " ++ context ++ " in state " ++ state

def RunError.message : RunError → String
  | .invalidTransition previous attempted =>
    "Cannot publish " ++ attempted.name ++ " after " ++ RunError.previousName previous
  | .delivery error => error.message
  | .setup error => error.message
  | .startupFailed cause => "Application startup failed: " ++ Text.joined ": " cause.chain

end

namespace Cause

def text (cause : Cause) : String :=
  Text.joined ": " cause.chain

def ofTexts (root : String) (contexts : List String) : Cause :=
  contexts.foldl (fun inner context => .within context inner) (.plain root)

theorem chain_foldl_within (contexts : List String) (inner : Cause) :
    (contexts.foldl (fun inner context => .within context inner) inner).chain =
      contexts.reverse ++ inner.chain := by
  induction contexts generalizing inner with
  | nil => rfl
  | cons context contexts ih => simp [ih, chain]

theorem chain_ofTexts (root : String) (contexts : List String) :
    (ofTexts root contexts).chain = contexts.reverse ++ [root] := by
  simp [ofTexts, chain_foldl_within, chain]

theorem chain_ne_nil (cause : Cause) : cause.chain ≠ [] := by
  cases cause <;> simp [chain]

end Cause

/-- A startup failure stands for its cause; every other failure becomes a cause of one link. -/
def RunError.toCause : RunError → Cause
  | .startupFailed cause => cause
  | .invalidTransition previous attempted => .run (.invalidTransition previous attempted)
  | .delivery error => .run (.delivery error)
  | .setup error => .run (.setup error)

end Startup
