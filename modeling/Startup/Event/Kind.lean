/-!
# Kinds of events

A run announces phases; a context announces changes of its own. Phases form a chain of successes,
beside which a run may fail at any point.
-/

namespace Startup

/-- A phase of a run, in the order in which a successful run passes them; `failed` ends any run. -/
inductive Phase where
  | starting
  | environmentPrepared
  | contextInitialized
  | contextLoaded
  | started
  | running
  | failed
  deriving DecidableEq, Repr, Inhabited

namespace Phase

def all : List Phase :=
  [starting, environmentPrepared, contextInitialized, contextLoaded, started, running, failed]

theorem mem_all (p : Phase) : p ∈ all := by
  cases p <;> decide

/-- The phase that has to come immediately before; none for the first one and for a failure. -/
def predecessor? : Phase → Option Phase
  | starting => none
  | environmentPrepared => some starting
  | contextInitialized => some environmentPrepared
  | contextLoaded => some contextInitialized
  | started => some contextLoaded
  | running => some started
  | failed => none

def name : Phase → String
  | starting => "Starting"
  | environmentPrepared => "EnvironmentPrepared"
  | contextInitialized => "ContextInitialized"
  | contextLoaded => "ContextLoaded"
  | started => "Started"
  | running => "Running"
  | failed => "Failed"

end Phase

inductive ContextChange where
  | refreshed
  | closed
  deriving DecidableEq, Repr, Inhabited

inductive EventKind where
  | run (phase : Phase)
  | context (change : ContextChange)
  deriving DecidableEq, Repr, Inhabited

namespace EventKind

def all : List EventKind :=
  Phase.all.map run ++ [context .refreshed, context .closed]

theorem mem_all (k : EventKind) : k ∈ all := by
  cases k with
  | run p => cases p <;> decide
  | context c => cases c <;> decide

theorem nodup_all : all.Nodup := by
  decide

def isPhase : EventKind → Bool
  | run _ => true
  | context _ => false

def isContextChange : EventKind → Bool
  | run _ => false
  | context _ => true

def predecessor? : EventKind → Option EventKind
  | run phase => phase.predecessor?.map run
  | context _ => none

def rank (k : EventKind) : Nat :=
  all.idxOf k

def below (k : EventKind) : List EventKind :=
  all.filter fun other => other.rank < k.rank

def name : EventKind → String
  | run phase => phase.name
  | context .refreshed => "ContextRefreshed"
  | context .closed => "ContextClosed"

def ofName? (text : String) : Option EventKind :=
  all.find? fun k => k.name == text

theorem ofName?_name (k : EventKind) : ofName? k.name = some k := by
  cases k with
  | run p => cases p <;> decide +kernel
  | context c => cases c <;> decide +kernel

end EventKind

end Startup
