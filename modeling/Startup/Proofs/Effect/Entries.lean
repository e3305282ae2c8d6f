import Startup.Proofs.Effect.Act

/-!
# What entries tell

An entry may show the state of a context, and it belongs to a run or to the calls that listeners
and contexts make. A scope says which of these calls are left to do.
-/

namespace Startup

namespace Entry

/-- The state that a context has when an entry is written, for the entries that show it. -/
def sign : Entry → Option (ContextId × ContextState)
  | broadcasting (.context id) _ _ => some (id, .active)
  | refreshFailed id _ _ => some (id, .created)
  | closed id _ => some (id, .closed)
  | _ => none

def isOfRun : Entry → Bool
  | startingApplication _ => true
  | publishing _ _ => true
  | preparedEnvironment _ _ => true
  | createdContext _ _ => true
  | startedApplication _ => true
  | failedToStart _ _ => true
  | reportFailed _ _ => true
  | closeFailed _ _ => true
  | _ => false

/-- Entries that any call may bring about, whatever events it is about. -/
def isRoutine : Entry → Bool
  | broadcasting _ _ _ => false
  | invoking _ _ _ _ => false
  | listenerFailed _ _ _ => false
  | entry => !entry.isOfRun

def phase? : Entry → Option Phase
  | publishing phase _ => some phase
  | _ => none

def phases (entries : List Entry) : List Phase :=
  entries.filterMap phase?

theorem phases_append (a b : List Entry) : phases (a ++ b) = phases a ++ phases b :=
  List.filterMap_append

theorem phase?_eq_none {entry : Entry} (h : entry.isOfRun = false) : entry.phase? = none := by
  cases entry <;> first | rfl | cases h

theorem phases_eq_nil {entries : List Entry} (h : ∀ entry ∈ entries, entry.isOfRun = false) :
    phases entries = [] :=
  List.filterMap_eq_nil_iff.mpr fun entry hEntry => phase?_eq_none (h entry hEntry)

/-- The state of a context by the entries since it was in a state. -/
def told (id : ContextId) (state : ContextState) (entries : List Entry) : ContextState :=
  entries.foldl (fun state entry =>
    match entry.sign with
    | some (other, next) => if other = id then next else state
    | none => state) state

@[simp] theorem told_nil (id : ContextId) (state : ContextState) : told id state [] = state := rfl

theorem told_append (id : ContextId) (state : ContextState) (a b : List Entry) :
    told id state (a ++ b) = told id (told id state a) b :=
  List.foldl_append

theorem told_singleton (id : ContextId) (state : ContextState) (entry : Entry) :
    told id state [entry] =
      match entry.sign with
      | some (other, next) => if other = id then next else state
      | none => state := rfl

end Entry

/-- What is left to do: the contexts that may be refreshed and closed, and the entries that may be
written. Those of a run are left to the run. -/
structure Scope where
  governs : ContextId → Prop
  notes : Entry → Prop
  routine : ∀ entry, entry.isRoutine → notes entry
  modest : ∀ entry, notes entry → entry.isOfRun = false

namespace Scope

theorem isOfRun_of_isRoutine {entry : Entry} (h : entry.isRoutine) : entry.isOfRun = false := by
  cases entry <;> first | rfl | cases h

def full : Scope :=
  ⟨fun _ => True, fun entry => entry.isOfRun = false, fun _ => isOfRun_of_isRoutine, fun _ => id⟩

def opened (scope : Scope) : Scope :=
  { scope with governs := fun _ => True }

def sparing (scope : Scope) (id : ContextId) : Scope :=
  { scope with governs := fun other => other ≠ id }

structure Sends (scope : Scope) (kind : EventKind) : Prop where
  broadcasting : ∀ origin count, scope.notes (.broadcasting origin kind count)
  invoking : ∀ origin listener name, scope.notes (.invoking origin listener name kind)
  failed : ∀ name cause, scope.notes (.listenerFailed name kind cause)

theorem full_sends (kind : EventKind) : full.Sends kind :=
  ⟨fun _ _ => rfl, fun _ _ _ => rfl, fun _ _ => rfl⟩

theorem Sends.opened {scope : Scope} {kind : EventKind} (h : scope.Sends kind) :
    scope.opened.Sends kind :=
  ⟨h.broadcasting, h.invoking, h.failed⟩

theorem Sends.sparing {scope : Scope} {kind : EventKind} (h : scope.Sends kind) (id : ContextId) :
    (scope.sparing id).Sends kind :=
  ⟨h.broadcasting, h.invoking, h.failed⟩

end Scope

end Startup
