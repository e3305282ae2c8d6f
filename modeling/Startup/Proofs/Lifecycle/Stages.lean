import Startup.Lifecycle.Run
import Startup.Proofs.Context.Building
import Startup.Proofs.Lifecycle.Announcing

/-!
# Stages and runs taken apart

A stage meets a contract if what holds before it leads to what is promised, both where the stage
succeeds and where its error ends the run. Contracts compose along a sequence of stages. A run is
unstarted, completed or failed; of a failed run all moments between its parts can be spoken of.
-/

namespace Startup

variable {σ α β ε : Type}

namespace Stage

abbrev Assertion (σ : Type) : Type := Progress σ → World σ → Prop

def Meets (before : Assertion σ) (stage : Stage σ α) (after : α → Assertion σ)
    (failing : RunError → Assertion σ) : Prop :=
  ∀ ⦃progress w outcome progress' w'⦄, before progress w →
    stage.run.run progress w = some ((outcome, progress'), w') →
    match outcome with
    | .ok a => after a progress' w'
    | .error error => failing error progress' w'

variable {before : Assertion σ} {failing : RunError → Assertion σ} {progress progress' : Progress σ}
  {w w' : World σ}

theorem run_bind (stage : Stage σ α) (f : α → Stage σ β) :
    (stage >>= f).run.run progress = stage.run.run progress >>= fun result =>
      match result.1 with
      | .ok a => (f a).run.run result.2
      | .error error => pure (.error error, result.2) := by
  rw [ExceptT.run_bind, StateT.run_bind]
  congr 1
  funext ⟨outcome, next⟩
  cases outcome <;> rfl

/-- Of two stages in a row the first ends them with its error, or the second has its turn. -/
theorem bind_inv {stage : Stage σ α} {f : α → Stage σ β} {outcome : Except RunError β}
    (h : (stage >>= f).run.run progress w = some ((outcome, progress'), w')) :
    (∃ error, outcome = .error error ∧
      stage.run.run progress w = some ((.error error, progress'), w')) ∨
    ∃ a next v, stage.run.run progress w = some ((.ok a, next), v) ∧
      (f a).run.run next v = some ((outcome, progress'), w') := by
  rw [run_bind] at h
  obtain ⟨⟨first, next⟩, v, hFirst, hRest⟩ := Act.bind_inv h
  cases first with
  | error error =>
    cases hRest
    exact .inl ⟨error, rfl, hFirst⟩
  | ok a => exact .inr ⟨a, next, v, hFirst, hRest⟩

theorem bind_ok_inv {stage : Stage σ α} {f : α → Stage σ β} {b : β}
    (h : (stage >>= f).run.run progress w = some ((.ok b, progress'), w')) :
    ∃ a next v, stage.run.run progress w = some ((.ok a, next), v) ∧
      (f a).run.run next v = some ((.ok b, progress'), w') := by
  rcases bind_inv h with ⟨_, hError, -⟩ | hRest
  · cases hError
  · exact hRest

theorem Meets.bind {stage : Stage σ α} {f : α → Stage σ β} {between : α → Assertion σ}
    {after : β → Assertion σ} (hStage : Meets before stage between failing)
    (hRest : ∀ a, Meets (between a) (f a) after failing) :
    Meets before (stage >>= f) after failing := by
  intro progress w outcome progress' w' hBefore hRun
  rcases bind_inv hRun with ⟨error, rfl, hError⟩ | ⟨a, next, v, hFirst, hLast⟩
  · exact hStage hBefore hError
  · exact hRest a (hStage hBefore hFirst) hLast

theorem Meets.pure {after : α → Assertion σ} {a : α}
    (h : ∀ progress w, before progress w → after a progress w) :
    Meets before (pure a : Stage σ α) after failing := by
  intro progress w outcome progress' w' hBefore hRun
  cases hRun
  exact h progress w hBefore

theorem Meets.of_fact {fact : Prop} {stage : Stage σ α} {after : α → Assertion σ}
    (h : fact → Meets before stage after failing) :
    Meets (fun progress w => fact ∧ before progress w) stage after failing := by
  rintro progress w outcome progress' w' ⟨hFact, hBefore⟩ hRun
  exact h hFact hBefore hRun

theorem Meets.forM {kept : Assertion σ} {f : α → Stage σ Unit} (items : List α)
    (hEach : ∀ item ∈ items, Meets kept (f item) (fun _ => kept) failing) :
    Meets kept (items.forM f) (fun _ => kept) failing := by
  induction items with
  | nil => exact Meets.pure fun _ _ h => h
  | cons item rest ih =>
    exact (hEach item (List.mem_cons_self ..)).bind fun _ =>
      ih fun other hOther => hEach other (List.mem_cons_of_mem _ hOther)

theorem attempt_run {wrap : ε → RunError} {act : Act σ (Except ε α)} :
    (attempt wrap act).run.run progress = (do return ((← act).mapError wrap, progress)) := by
  simp [attempt]

theorem attempt_inv {wrap : ε → RunError} {act : Act σ (Except ε α)}
    {outcome : Except RunError α}
    (h : (attempt wrap act).run.run progress w = some ((outcome, progress'), w')) :
    ∃ answer, act w = some (answer, w') ∧ outcome = answer.mapError wrap ∧
      progress' = progress := by
  rw [attempt_run] at h
  obtain ⟨answer, w₁, hAct, hPure⟩ := Act.bind_inv h
  cases hPure
  exact ⟨answer, hAct, rfl, rfl⟩

theorem attempt_ok_inv {wrap : ε → RunError} {act : Act σ (Except ε α)} {a : α}
    (h : (attempt wrap act).run.run progress w = some ((.ok a, progress'), w')) :
    act w = some (.ok a, w') ∧ progress' = progress := by
  obtain ⟨answer, hAct, hOk, hSame⟩ := attempt_inv h
  cases answer with
  | error error => cases hOk
  | ok b =>
    cases hOk
    exact ⟨hAct, hSame⟩

theorem Meets.attempt {wrap : ε → RunError} {act : Act σ (Except ε α)}
    {after : α → Assertion σ}
    (hOk : ∀ progress w a w', before progress w → act w = some (.ok a, w') →
      after a progress w')
    (hError : ∀ progress w error w', before progress w → act w = some (.error error, w') →
      failing (wrap error) progress w') :
    Meets before (Stage.attempt wrap act) after failing := by
  intro progress w outcome progress' w' hBefore hRun
  obtain ⟨answer, hAct, rfl, rfl⟩ := attempt_inv hRun
  cases answer with
  | ok a => exact hOk _ w a w' hBefore hAct
  | error error => exact hError _ w error w' hBefore hAct

theorem announce_run {host : Host σ} {payload : RunPayload} :
    (announce host payload).run.run progress = (do
      let (outcome, publisher) ← progress.publisher.announce host payload
      return (outcome, { progress with publisher := publisher })) := by
  simp [announce]

theorem announce_inv {host : Host σ} {payload : RunPayload} {outcome : Except RunError Unit}
    (h : (announce host payload).run.run progress w = some ((outcome, progress'), w')) :
    ∃ publisher, progress.publisher.announce host payload w = some ((outcome, publisher), w') ∧
      progress' = { progress with publisher := publisher } := by
  rw [announce_run] at h
  obtain ⟨⟨answer, publisher⟩, w₁, hAnnounce, hPure⟩ := Act.bind_inv h
  cases hPure
  exact ⟨publisher, hAnnounce, rfl⟩

theorem createContext_run (host : Host σ) (application : Application σ) (settings : MainSettings)
    (environment : Environment) :
    (createContext host application settings environment).run.run progress = (do
      let kind := settings.kind.getD application.kind
      let id ← ContextId.build host [.kind kind, .displayName application.name]
      id.register (.environment environment)
      let context ← Act.context id
      Act.write (.createdContext kind context.identity.full)
      return (.ok id, { progress with context := some id })) := by
  simp [createContext]

/-- The context that a run makes: created, without listeners, and with the environment as its only
bean. -/
def madeContext (application : Application σ) (settings : MainSettings) (environment : Environment)
    (w : World σ) : Context :=
  let built : Context :=
    { Context.new (w.identities w.contexts.length) .standalone with
      kind := settings.kind.getD application.kind, displayName := application.name }
  { built with beans := built.beans.register (.environment environment) }

theorem createContext_eq (host : Host σ) (application : Application σ) (settings : MainSettings)
    (environment : Environment) (progress : Progress σ) (w : World σ) :
    (createContext host application settings environment).run.run progress w =
      some ((.ok ⟨w.contexts.length⟩, { progress with context := some ⟨w.contexts.length⟩ }),
        (w.adding (madeContext application settings environment w)).note (.createdContext
          (settings.kind.getD application.kind)
          (madeContext application settings environment w).identity.full)) := by
  let steps : List BuildStep :=
    [.kind (settings.kind.getD application.kind), .displayName application.name]
  let made : Context := madeContext application settings environment w
  let built : Context := (ContextId.built host steps w).1
  have hBuild : ContextId.build host steps w = some (w.next, w.adding built) :=
    ContextId.build_eq host steps w
  -- the context has no bean yet that could be replaced
  have hRegister : ContextId.register w.next (.environment environment) (w.adding built) =
      some ((), w.adding made) :=
    BuildStep.apply_adding host built w (.bean (.environment environment))
  have hRead : Act.context w.next (w.adding made) = some (made, w.adding made) :=
    Act.context_apply (w.context?_adding made)
  rw [createContext_run]
  rw [Act.bind_apply hBuild, Act.bind_apply hRegister, Act.bind_apply hRead]
  rfl

/-- The context of a run is made behind all others, created and without listeners. -/
theorem createContext_apply (host : Host σ) (application : Application σ) (settings : MainSettings)
    (environment : Environment) (progress : Progress σ) (w : World σ) :
    ∃ context : Context, context.state = .created ∧ context.multicaster = .empty ∧
      (createContext host application settings environment).run.run progress w =
        some ((.ok ⟨w.contexts.length⟩, { progress with context := some ⟨w.contexts.length⟩ }),
          (w.adding context).note (.createdContext
            (settings.kind.getD application.kind) context.identity.full)) :=
  ⟨madeContext application settings environment w, rfl, rfl,
    createContext_eq host application settings environment progress w⟩

end Stage

end Startup
