import Startup.Proofs.Lifecycle.Stages

/-!
# The plan of a launch

A launch carries out a list of steps, one after the other. Each may use what the steps before it
made, and the first that fails is the last that is carried out.
-/

namespace Startup

variable {σ α β : Type}

/-- What the steps of a launch have made. -/
structure Made where
  environment : Option Environment
  settings : Option MainSettings
  context : Option ContextId

inductive LaunchStep (σ : Type) where
  | prepare
  | announce (phase : Phase)
  | bind
  | create
  | initializer (program : ContextId → Program σ (Except Cause Unit))
  | refresh

namespace Application

/-- What is done until the context has what initializers give it. -/
def opening (application : Application σ) : List (LaunchStep σ) :=
  [.prepare, .announce .environmentPrepared, .bind, .create] ++
    application.initializers.map .initializer

def conclusion : List (LaunchStep σ) :=
  [.announce .contextInitialized, .announce .contextLoaded, .refresh, .announce .started,
    .announce .running]

def plan (application : Application σ) : List (LaunchStep σ) :=
  application.opening ++ conclusion

end Application

namespace Made

def none : Made :=
  ⟨.none, .none, .none⟩

def payload? (made : Made) : Phase → Option RunPayload
  | .starting => some .starting
  | .environmentPrepared => made.environment.map .environmentPrepared
  | .contextInitialized => made.context.map fun id => .contextInitialized (.managed id)
  | .contextLoaded => made.context.map fun id => .contextLoaded (.managed id)
  | .started => made.context.map fun id => .started (.managed id)
  | .running => made.context.map fun id => .running (.managed id)
  | .failed => .none

theorem phase_of_payload? {made : Made} {phase : Phase} {payload : RunPayload}
    (h : made.payload? phase = some payload) : payload.phase = phase := by
  cases phase with
  | starting =>
    cases h
    rfl
  | failed => cases h
  | _ =>
    obtain ⟨_, -, rfl⟩ := Option.map_eq_some_iff.mp h
    rfl

end Made

namespace Stage

variable {progress progress' : Progress σ} {w w' : World σ}

/-- Something that is there by the plan. -/
def need : Option α → Stage σ α
  | some a => pure a
  | none => ExceptT.mk (Act.stuck : Act σ (Except RunError α))

@[simp] theorem need_some (a : α) : (need (some a) : Stage σ α) = pure a := rfl

/-- Steps in a row fail with the first one that fails, and what comes after it is not done. -/
theorem foldlM_error {f : β → α → Stage σ β} {items : List α} {start : β} {error : RunError}
    (h : (items.foldlM f start).run.run progress w = some ((.error error, progress'), w')) :
    ∃ before item after made between v, items = before ++ item :: after ∧
      (before.foldlM f start).run.run progress w = some ((.ok made, between), v) ∧
      (f made item).run.run between v = some ((.error error, progress'), w') := by
  induction items generalizing start progress w with
  | nil => cases h
  | cons item rest ih =>
    rw [List.foldlM_cons] at h
    -- either this item is the one to blame, or it is the first of those before it
    rcases bind_inv h with ⟨_, hSame, hFirst⟩ | ⟨made, next, v, hFirst, hRest⟩
    · cases hSame
      exact ⟨[], item, rest, start, progress, w, rfl, rfl, hFirst⟩
    · obtain ⟨before, other, after, made', between, v', rfl, hBefore, hItem⟩ := ih hRest
      refine ⟨item :: before, other, after, made', between, v', rfl, ?_, hItem⟩
      rw [List.foldlM_cons, run_bind, Act.bind_apply hFirst]
      exact hBefore

theorem need_bind_inv {a? : Option α} {f : α → Stage σ β} {outcome : Except RunError β}
    (h : (need a? >>= f).run.run progress w = some ((outcome, progress'), w')) :
    ∃ a, a? = some a ∧ (f a).run.run progress w = some ((outcome, progress'), w') := by
  cases a? with
  | none => cases h
  | some a => exact ⟨a, rfl, h⟩

theorem Meets.foldlM {kept : β → Assertion σ} {failing : RunError → Assertion σ}
    {f : β → α → Stage σ β} (items : List α)
    (hEach : ∀ made, ∀ item ∈ items, Meets (kept made) (f made item) kept failing) (made : β) :
    Meets (kept made) (items.foldlM f made) kept failing := by
  induction items generalizing made with
  | nil => exact Meets.pure fun _ _ h => h
  | cons item rest ih =>
    rw [List.foldlM_cons]
    exact (hEach made item (List.mem_cons_self ..)).bind fun next =>
      ih (fun made other hOther => hEach made other (List.mem_cons_of_mem _ hOther)) next

/-- A stage whose answer is only put in place ends as the stage does. -/
theorem bind_pure_inv {stage : Stage σ α} {f : α → β} {outcome : Except RunError β}
    (h : (stage >>= fun a => pure (f a)).run.run progress w = some ((outcome, progress'), w')) :
    ∃ first, stage.run.run progress w = some ((first, progress'), w') ∧ outcome = first.map f := by
  rcases bind_inv h with ⟨error, rfl, hError⟩ | ⟨a, _, _, hFirst, hRest⟩
  · exact ⟨.error error, hError, rfl⟩
  · cases hRest
    exact ⟨.ok a, hFirst, rfl⟩

theorem bind_pure_error {stage : Stage σ α} {f : α → β} {error : RunError}
    (h : (stage >>= fun a => pure (f a)).run.run progress w =
      some ((.error error, progress'), w')) :
    stage.run.run progress w = some ((.error error, progress'), w') := by
  obtain ⟨first, hFirst, hError⟩ := bind_pure_inv h
  cases first with
  | ok a => cases hError
  | error _ =>
    cases hError
    exact hFirst

theorem bind_pure_ok {stage : Stage σ α} {f : α → β} {b : β}
    (h : (stage >>= fun a => pure (f a)).run.run progress w = some ((.ok b, progress'), w')) :
    ∃ a, stage.run.run progress w = some ((.ok a, progress'), w') ∧ b = f a := by
  obtain ⟨first, hFirst, hOk⟩ := bind_pure_inv h
  cases first with
  | error _ => cases hOk
  | ok a =>
    cases hOk
    exact ⟨a, hFirst, rfl⟩

theorem Meets.bind_pure {before : Assertion σ} {failing : RunError → Assertion σ}
    {stage : Stage σ α} {f : α → β} {after : β → Assertion σ}
    (h : Meets before stage (fun a => after (f a)) failing) :
    Meets before (do return f (← stage)) after failing := by
  apply h.bind
  intro a
  exact Meets.pure fun _ _ hAfter => hAfter

theorem Meets.of_exists {ι : Type} {fact : ι → Prop} {before : ι → Assertion σ}
    {failing : RunError → Assertion σ} {stage : Stage σ α} {after : α → Assertion σ}
    (h : ∀ i, fact i → Meets (before i) stage after failing) :
    Meets (fun progress w => ∃ i, fact i ∧ before i progress w) stage after failing := by
  rintro progress w outcome progress' w' ⟨i, hFact, hBefore⟩ hRun
  exact h i hFact hBefore hRun

theorem Meets.weaken {before : Assertion σ} {failing : RunError → Assertion σ}
    {stage : Stage σ α} {strong after : α → Assertion σ} (h : Meets before stage strong failing)
    (hAfter : ∀ a progress w, strong a progress w → after a progress w) :
    Meets before stage after failing := by
  intro progress w outcome progress' w' hBefore hRun
  have hStrong := h hBefore hRun
  cases outcome with
  | ok a => exact hAfter a _ _ hStrong
  | error error => exact hStrong

theorem Meets.need_bind {before : Assertion σ} {failing : RunError → Assertion σ} {a? : Option α}
    {f : α → Stage σ β} {after : β → Assertion σ}
    (h : ∀ a, a? = some a → Meets before (f a) after failing) :
    Meets before (need a? >>= f) after failing := by
  intro progress w outcome progress' w' hBefore hRun
  obtain ⟨a, hSome, hRest⟩ := need_bind_inv hRun
  exact h a hSome hBefore hRest

theorem attempt_error_inv {ε : Type} {wrap : ε → RunError} {act : Act σ (Except ε α)}
    {error : RunError}
    (h : (attempt wrap act).run.run progress w = some ((.error error, progress'), w')) :
    ∃ inner, error = wrap inner ∧ act w = some (.error inner, w') ∧ progress' = progress := by
  obtain ⟨answer, hAct, hOutcome, rfl⟩ := attempt_inv h
  cases answer with
  | ok a => cases hOutcome
  | error inner => exact ⟨inner, Except.error.inj hOutcome, hAct, rfl⟩

end Stage

namespace LaunchStep

variable (host : Host σ) (application : Application σ) (system : List (String × String))
  (arguments : List String)

def stage (made : Made) : LaunchStep σ → Stage σ Made
  | .prepare => do
    let system := if application.includesSystem then some system else none
    let environment ← Stage.attempt .setup
      (Environment.prepare application.defaults system arguments)
    return { made with environment := some environment }
  | .announce phase => do
    Stage.announce host (← Stage.need (made.payload? phase))
    return made
  | .bind => do
    let environment ← Stage.need made.environment
    let settings ← Stage.attempt .setup do
      return (← Act.properties environment.store).settings
    return { made with settings := some settings }
  | .create => do
    let settings ← Stage.need made.settings
    let environment ← Stage.need made.environment
    let context ← Stage.createContext host application settings environment
    return { made with context := some context }
  | .initializer program => do
    let context ← Stage.need made.context
    Stage.attempt .startupFailed (host.perform (program context))
    return made
  | .refresh => do
    let context ← Stage.need made.context
    Stage.attempt .delivery (context.refresh host)
    return made

/-- Carries out steps in a row. -/
def stages (steps : List (LaunchStep σ)) (made : Made) : Stage σ Made :=
  steps.foldlM (stage host application system arguments) made

theorem stages_cons_meets {step : LaunchStep σ} {rest : List (LaunchStep σ)} {made : Made}
    {before : Stage.Assertion σ} {between after : Made → Stage.Assertion σ}
    {failing : RunError → Stage.Assertion σ}
    (hStep : Stage.Meets before (step.stage host application system arguments made) between failing)
    (hRest : ∀ made, Stage.Meets (between made)
      (stages host application system arguments rest made) after failing) :
    Stage.Meets before (stages host application system arguments (step :: rest) made) after
      failing := by
  rw [stages, List.foldlM_cons]
  exact hStep.bind hRest

theorem stages_nil_meets {made : Made} {after : Made → Stage.Assertion σ}
    {failing : RunError → Stage.Assertion σ} :
    Stage.Meets (after made) (stages host application system arguments [] made) after failing :=
  Stage.Meets.pure fun _ _ h => h

theorem stages_append (first rest : List (LaunchStep σ)) (made : Made) :
    stages host application system arguments (first ++ rest) made = (do
      stages host application system arguments rest
        (← stages host application system arguments first made)) :=
  List.foldlM_append

theorem stages_initializers (made : Made) {context : ContextId} (h : made.context = some context)
    (initializers : List (ContextId → Program σ (Except Cause Unit))) :
    stages host application system arguments (initializers.map .initializer) made = (do
      initializers.forM fun initializer =>
        Stage.attempt .startupFailed (host.perform (initializer context))
      return made) := by
  induction initializers with
  | nil => rfl
  | cons program rest ih =>
    have hFirst : stage host application system arguments made (.initializer program) = (do
        Stage.attempt .startupFailed (host.perform (program context))
        return made) := by
      rw [stage, h, Stage.need_some, pure_bind]
    rw [List.map_cons, stages, List.foldlM_cons, hFirst]
    change (_ >>= fun _ => _) = ((_ >>= fun _ => _) >>= fun _ => _)
    simp only [bind_assoc, pure_bind]
    congr 1
    funext _
    exact ih

theorem stages_append_meets {first rest : List (LaunchStep σ)} {made : Made}
    {before : Stage.Assertion σ} {between after : Made → Stage.Assertion σ}
    {failing : RunError → Stage.Assertion σ}
    (hFirst : Stage.Meets before (stages host application system arguments first made) between
      failing)
    (hRest : ∀ made, Stage.Meets (between made)
      (stages host application system arguments rest made) after failing) :
    Stage.Meets before (stages host application system arguments (first ++ rest) made) after
      failing := by
  rw [stages_append]
  exact hFirst.bind hRest

/-- A launch is its plan carried out, and answers with what was made. -/
theorem launch_eq_plan : application.launch host system arguments = (do
    let made ← stages host application system arguments application.plan .none
    return (← Stage.need made.context, ← Stage.need made.settings)) := by
  have hInitializers (environment : Environment) (settings : MainSettings) (context : ContextId) :=
    stages_initializers host application system arguments
      ⟨some environment, some settings, some context⟩ rfl application.initializers
  rw [Application.plan, Application.opening, Application.conclusion, stages_append, stages_append]
  simp only [stages] at hInitializers ⊢
  simp only [List.foldlM_cons, List.foldlM_nil, bind_assoc, pure_bind, stage,
    Made.none, Made.payload?, Option.map_some, Stage.need_some, hInitializers]
  rfl

/-- How a step fails: with an error of its own kind, raised by the act that the step is about. -/
inductive Fails (made : Made) (progress : Progress σ) (w : World σ) :
    LaunchStep σ → RunError → World σ → Prop
  | prepare {error : SetupError} {w' : World σ}
      (hPrepare : Environment.prepare application.defaults
        (if application.includesSystem then some system else none) arguments w =
          some (.error error, w')) :
      Fails made progress w .prepare (.setup error) w'
  | announce {phase : Phase} {payload : RunPayload} {error : DeliveryError}
      {publisher : Publisher σ} {w' : World σ} (hPayload : made.payload? phase = some payload)
      (hAnnounce : progress.publisher.announce host payload w =
        some ((.error (.delivery error), publisher), w')) :
      Fails made progress w (.announce phase) (.delivery error) w'
  | bind {environment : Environment} {properties : Properties} {error : SetupError}
      (hEnvironment : made.environment = some environment)
      (hStore : w.stores[environment.store.index]? = some properties)
      (hSettings : properties.settings = .error error) :
      Fails made progress w .bind (.setup error) w
  | initializer {program : ContextId → Program σ (Except Cause Unit)} {context : ContextId}
      {cause : Cause} {w' : World σ} (hContext : made.context = some context)
      (hPerform : host.perform (program context) w = some (.error cause, w')) :
      Fails made progress w (.initializer program) (.startupFailed cause) w'
  | refresh {context : ContextId} {error : DeliveryError} {w' : World σ}
      (hContext : made.context = some context)
      (hRefresh : context.refresh host w = some (.error error, w')) :
      Fails made progress w .refresh (.delivery error) w'

variable {host application system arguments} {made : Made} {progress progress' : Progress σ}
  {w w' : World σ}

theorem fails_of_error {step : LaunchStep σ} {error : RunError}
    (hTurn : ∀ previous attempted, error ≠ .invalidTransition previous attempted)
    (h : (step.stage host application system arguments made).run.run progress w =
      some ((.error error, progress'), w')) :
    Fails host application system arguments made progress w step error w' ∧
      progress'.context = progress.context := by
  cases step with
  | prepare =>
    obtain ⟨inner, rfl, hPrepare, rfl⟩ := Stage.attempt_error_inv (Stage.bind_pure_error h)
    exact ⟨.prepare hPrepare, rfl⟩
  | announce phase =>
    obtain ⟨payload, hPayload, hRest⟩ := Stage.need_bind_inv h
    obtain ⟨publisher, hAnnounce, rfl⟩ := Stage.announce_inv (Stage.bind_pure_error hRest)
    refine ⟨?_, rfl⟩
    generalize hAnswer : (Except.error error, publisher) = answer at hAnnounce
    cases Publisher.announcing_of_announce hAnnounce with
    | refused hAdmits =>
      cases hAnswer
      exact absurd rfl (hTurn _ _)
    | @delivered outcome multicaster _ hAdmits hDeliver =>
      cases outcome with
      | ok _ => cases hAnswer
      | error error =>
        cases hAnswer
        exact .announce hPayload hAnnounce
  | bind =>
    obtain ⟨environment, hEnvironment, hRest⟩ := Stage.need_bind_inv h
    obtain ⟨inner, rfl, hAct, rfl⟩ := Stage.attempt_error_inv (Stage.bind_pure_error hRest)
    obtain ⟨properties, w₁, hRead, hPure⟩ := Act.bind_inv hAct
    obtain ⟨hStore, rfl⟩ := Act.properties_inv hRead
    obtain ⟨hSettings, rfl⟩ := Act.pure_inv hPure
    exact ⟨.bind hEnvironment hStore hSettings, rfl⟩
  | create =>
    obtain ⟨settings, hSettings, hRest⟩ := Stage.need_bind_inv h
    obtain ⟨environment, hEnvironment, hRest⟩ := Stage.need_bind_inv hRest
    obtain ⟨context, -, -, hCreate⟩ :=
      Stage.createContext_apply host application settings environment progress w
    cases hCreate.symm.trans (Stage.bind_pure_error hRest)
  | initializer program =>
    obtain ⟨context, hContext, hRest⟩ := Stage.need_bind_inv h
    obtain ⟨cause, rfl, hPerform, rfl⟩ :=
      Stage.attempt_error_inv (Stage.bind_pure_error hRest)
    exact ⟨.initializer hContext hPerform, rfl⟩
  | refresh =>
    obtain ⟨context, hContext, hRest⟩ := Stage.need_bind_inv h
    obtain ⟨inner, rfl, hRefresh, rfl⟩ :=
      Stage.attempt_error_inv (Stage.bind_pure_error hRest)
    exact ⟨.refresh hContext hRefresh, rfl⟩

/-- The context of a run is the one that its steps made. -/
theorem stage_context {step : LaunchStep σ} {made' : Made}
    (h : (step.stage host application system arguments made).run.run progress w =
      some ((.ok made', progress'), w'))
    (hContext : progress.context = made.context) : progress'.context = made'.context := by
  cases step with
  | prepare =>
    obtain ⟨environment, hFirst, rfl⟩ := Stage.bind_pure_ok h
    obtain ⟨_, -, -, rfl⟩ := Stage.attempt_inv hFirst
    exact hContext
  | announce phase =>
    obtain ⟨payload, -, hRest⟩ := Stage.need_bind_inv h
    obtain ⟨_, hFirst, rfl⟩ := Stage.bind_pure_ok hRest
    obtain ⟨publisher, -, rfl⟩ := Stage.announce_inv hFirst
    exact hContext
  | bind =>
    obtain ⟨environment, -, hRest⟩ := Stage.need_bind_inv h
    obtain ⟨settings, hFirst, rfl⟩ := Stage.bind_pure_ok hRest
    obtain ⟨_, -, -, rfl⟩ := Stage.attempt_inv hFirst
    exact hContext
  | create =>
    obtain ⟨settings, -, hRest⟩ := Stage.need_bind_inv h
    obtain ⟨environment, -, hRest⟩ := Stage.need_bind_inv hRest
    obtain ⟨id, hFirst, rfl⟩ := Stage.bind_pure_ok hRest
    obtain ⟨context, -, -, hCreate⟩ :=
      Stage.createContext_apply host application settings environment progress w
    cases hCreate.symm.trans hFirst
    rfl
  | initializer program =>
    obtain ⟨context, -, hRest⟩ := Stage.need_bind_inv h
    obtain ⟨_, hFirst, rfl⟩ := Stage.bind_pure_ok hRest
    obtain ⟨_, -, -, rfl⟩ := Stage.attempt_inv hFirst
    exact hContext
  | refresh =>
    obtain ⟨context, -, hRest⟩ := Stage.need_bind_inv h
    obtain ⟨_, hFirst, rfl⟩ := Stage.bind_pure_ok hRest
    obtain ⟨_, -, -, rfl⟩ := Stage.attempt_inv hFirst
    exact hContext

theorem stages_context {steps : List (LaunchStep σ)} {made' : Made}
    (h : (stages host application system arguments steps made).run.run progress w =
      some ((.ok made', progress'), w'))
    (hContext : progress.context = made.context) : progress'.context = made'.context := by
  induction steps generalizing made progress w with
  | nil =>
    cases h
    exact hContext
  | cons step rest ih =>
    rw [stages, List.foldlM_cons] at h
    obtain ⟨between, _, _, hFirst, hRest⟩ := Stage.bind_ok_inv h
    exact ih hRest (stage_context hFirst hContext)

end LaunchStep

end Startup
