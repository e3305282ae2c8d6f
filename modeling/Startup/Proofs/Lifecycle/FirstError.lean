import Startup.Proofs.Lifecycle.Phases
import Startup.Proofs.Lifecycle.Plan

/-!
# The first error of a run

What a failed run answers, and what it announces, is the error of the first step that failed.
What fails while this is reported leaves a warning each and nothing else.
-/

namespace Startup

variable {σ ε α : Type} {host : Host σ} {application : Application σ} {directory : Directory σ}
  {depth : Nat} {system : List (String × String)} {arguments : List String} {w w' : World σ}

namespace Entry

def isWarning : Entry → Bool
  | reportFailed _ _ => true
  | closeFailed _ _ => true
  | _ => false

theorem isOfRun_of_isWarning {entry : Entry} (h : entry.isWarning) : entry.isOfRun := by
  cases entry <;> first | rfl | cases h

def warnings (warning : ε → Entry) : Except ε α → List Entry
  | .ok _ => []
  | .error error => [warning error]

theorem filter_warnings (warning : ε → Entry) (hWarning : ∀ error, (warning error).isWarning)
    (outcome : Except ε α) : (warnings warning outcome).filter isWarning =
      warnings warning outcome := by
  cases outcome with
  | ok _ => rfl
  | error error => rw [warnings, List.filter_cons_of_pos (hWarning error), List.filter_nil]

end Entry

namespace World

theorem journal_warned (w : World σ) (warning : ε → Entry) (outcome : Except ε α) :
    (w.warned warning outcome).journal = w.journal ++ Entry.warnings warning outcome := by
  cases outcome with
  | ok _ => exact (List.append_nil _).symm
  | error error => rfl

/-- Calls of listeners write no warnings. -/
theorem Path.filter_isWarning {scope : Scope} (h : Path scope w w') :
    (w'.since w).filter Entry.isWarning = [] := by
  apply List.filter_eq_nil_iff.mpr
  intro entry hEntry hWarning
  have hModest := scope.modest entry (h.notes_of_mem_since hEntry)
  rw [Entry.isOfRun_of_isWarning hWarning] at hModest
  cases hModest

end World

namespace LaunchStep

/-- An error of an initializer is the cause itself, and any other error becomes one. -/
theorem Fails.toCause {made : Made} {progress : Progress σ} {step : LaunchStep σ}
    {error : RunError} (h : Fails host application system arguments made progress w step error w') :
    (∃ program context, step = .initializer program ∧ made.context = some context ∧
      host.perform (program context) w = some (.error error.toCause, w')) ∨
    (∀ program, step ≠ .initializer program) ∧ error.toCause = .run error := by
  cases h with
  | initializer hContext hPerform => exact .inl ⟨_, _, rfl, hContext, hPerform⟩
  | _ => exact .inr ⟨nofun, rfl⟩

end LaunchStep

namespace Application.FailedRun

/-- The step at which a run failed, after all steps before it succeeded. -/
structure Blame (f : FailedRun host application system arguments w) where
  before : List (LaunchStep σ)
  step : LaunchStep σ
  after : List (LaunchStep σ)
  plan_eq : application.plan = before ++ step :: after
  made : Made
  progress : Progress σ
  reached : World σ
  before_eq : (LaunchStep.stages host application system arguments before .none).run.run
    ⟨f.publisher, none⟩ f.started = some ((.ok made, progress), reached)
  fails : step.Fails host application system arguments made progress reached f.error f.launched
  context_eq : f.progress.context = made.context

/-- What follows the failure: it is announced once, and the context closed if there is one. -/
structure Aftermath (f : FailedRun host application system arguments w) where
  delivery : Except DeliveryError Unit
  multicaster : Multicaster
  delivered : World σ
  deliver_eq : Publisher.deliverFailure host (f.progress.context.map .managed)
    f.progress.publisher.multicaster f.event f.announced = some ((delivery, multicaster), delivered)
  reported_eq : f.reported = delivered.warned (undelivered application) delivery
  closing : Except DeliveryError Unit
  closed : World σ
  close_eq : match f.progress.context with
    | none => closing = .ok () ∧ closed = f.reported
    | some id => id.close host f.reported = some (closing, closed)
  ended_eq : f.ended = closed.warned (.closeFailed application.name) closing

theorem blame (f : FailedRun host application system arguments w)
    (hTurn : ∀ previous attempted, f.error ≠ .invalidTransition previous attempted) :
    Nonempty f.Blame := by
  have hLaunch := f.launch_eq
  rw [LaunchStep.launch_eq_plan, Stage.run_bind] at hLaunch
  obtain ⟨⟨outcome, next⟩, v, hSteps, hRest⟩ := Act.bind_inv hLaunch
  cases outcome with
  | ok made =>
    -- after all steps the answer is put together, which cannot fail
    obtain ⟨context, -, hRest⟩ := Stage.need_bind_inv hRest
    obtain ⟨settings, -, hRest⟩ := Stage.need_bind_inv hRest
    cases hRest
  | error error =>
    cases hRest
    obtain ⟨before, step, after, made, progress, reached, hPlan, hBefore, hStep⟩ :=
      Stage.foldlM_error hSteps
    obtain ⟨hFails, hContext⟩ := LaunchStep.fails_of_error hTurn hStep
    have hMade := LaunchStep.stages_context hBefore rfl
    exact ⟨⟨before, step, after, hPlan, made, progress, reached, hBefore, hFails,
      hContext.trans hMade⟩⟩

theorem aftermath (f : FailedRun host application system arguments w)
    (hLast : f.progress.publisher.last ≠ some .failed) : Nonempty f.Aftermath := by
  obtain ⟨delivery, multicaster, delivered, hDeliver, hReported⟩ := f.reporting hLast
  rcases f.closing with ⟨hNone, hEnded⟩ | ⟨id, closing, closed, hSome, hClose, hEnded⟩
  · refine ⟨⟨delivery, multicaster, delivered, hDeliver, hReported, .ok (), f.reported, ?_, hEnded⟩⟩
    rw [hNone]
    exact ⟨rfl, rfl⟩
  · refine ⟨⟨delivery, multicaster, delivered, hDeliver, hReported, closing, closed, ?_, hEnded⟩⟩
    rw [hSome]
    exact hClose

namespace Aftermath

variable {f : FailedRun (Host.ofDepth directory depth) application system arguments w}

theorem path_delivered (a : f.Aftermath) : World.Path Scope.full f.announced a.delivered :=
  Publisher.deliverFailure_within (Host.ofDepth_within directory.within_full depth) _ _
    (Scope.full_sends _) a.deliver_eq

theorem path_closed (a : f.Aftermath) : World.Path Scope.full f.reported a.closed := by
  have hClose := a.close_eq
  split at hClose
  · rw [hClose.2]
  · exact ContextId.close_within (Host.ofDepth_within directory.within_full depth) trivial
      (Scope.full_sends _) hClose

/-- What is written after the failing step: the entries of the two attempts, with a warning after
each that failed. -/
theorem journal_ended (a : f.Aftermath) : f.ended.journal = f.launched.journal ++
    ([.failedToStart application.name f.error.toCause,
      .publishing .failed f.progress.publisher.application.name] ++
    a.delivered.since f.announced ++ Entry.warnings (undelivered application) a.delivery ++
    a.closed.since f.reported ++ Entry.warnings (.closeFailed application.name) a.closing) := by
  have hOpening : f.announced.journal = f.launched.journal ++
      [.failedToStart application.name f.error.toCause,
        .publishing .failed f.progress.publisher.application.name] := by
    rw [announced, World.journal_note, World.journal_note, List.append_assoc]
    rfl
  have hReported : f.reported.journal =
      a.delivered.journal ++ Entry.warnings (undelivered application) a.delivery := by
    rw [a.reported_eq, World.journal_warned]
  rw [a.ended_eq, World.journal_warned,
    World.journal_eq_append_since a.path_closed.journal_grows, hReported,
    World.journal_eq_append_since a.path_delivered.journal_grows, hOpening]
  simp only [List.append_assoc]

theorem filter_isWarning (a : f.Aftermath) :
    (f.ended.since f.launched).filter Entry.isWarning =
      Entry.warnings (undelivered application) a.delivery ++
        Entry.warnings (.closeFailed application.name) a.closing := by
  rw [World.since_eq a.journal_ended]
  simp only [List.filter_append, a.path_delivered.filter_isWarning, a.path_closed.filter_isWarning,
    Entry.filter_warnings (undelivered application) (fun _ => rfl),
    Entry.filter_warnings (.closeFailed application.name) (fun _ => rfl), List.append_nil]
  rfl

end Aftermath

/-- The first error wins. A run that fails after its start answers, and announces, the error of the
first step that failed, and what fails afterwards changes neither. -/
theorem first_error_wins {publisher : Publisher σ} {started : World σ} {error : RunError}
    (hStart : application.start (Host.ofDepth directory depth) arguments w =
      some ((.ok (), publisher), started))
    (h : application.run (Host.ofDepth directory depth) system arguments w =
      some (.error error, w')) :
    ∃ (f : FailedRun (Host.ofDepth directory depth) application system arguments w)
      (blame : f.Blame) (aftermath : f.Aftermath) (cause : Cause), f.ended = w' ∧
        error = .startupFailed cause ∧
        f.event =
          f.progress.publisher.event (.failed (f.progress.context.map .managed) cause) ∧
        ((∃ program context, blame.step = .initializer program ∧
            blame.made.context = some context ∧
            (Host.ofDepth directory depth).perform (program context) blame.reached =
              some (.error cause, f.launched)) ∨
          (∀ program, blame.step ≠ .initializer program) ∧ cause = .run f.error) ∧
        (w'.since f.launched).filter Entry.isWarning =
          Entry.warnings (undelivered application) aftermath.delivery ++
            Entry.warnings (.closeFailed application.name) aftermath.closing := by
  cases running_of_run h with
  | unstarted hUnstarted => cases hStart.symm.trans hUnstarted
  | failed f =>
    obtain ⟨hTurn, reached, -, hReached, hUnderway⟩ := f.breaking (within_full directory _)
    obtain ⟨blame⟩ := f.blame hTurn
    obtain ⟨aftermath⟩ := f.aftermath (hUnderway.last_ne_failed hReached)
    exact ⟨f, blame, aftermath, f.error.toCause, rfl, rfl, rfl, blame.fails.toCause,
      aftermath.filter_isWarning⟩

theorem first_error_wins_faulty :
    ∃ (f : FailedRun (Host.ofDepth default 2) faulty [] [] default) (cause : Cause),
      faulty.run (Host.ofDepth default 2) [] [] default =
        some (.error (.startupFailed cause), f.ended) ∧
      Nonempty f.Blame ∧ Nonempty f.Aftermath := by
  obtain ⟨⟨⟨started, publisher⟩, w₁⟩, hStart, hStarted⟩ := (Option.any_eq_true _ _).mp
    (show (faulty.start (Host.ofDepth default 2) [] default).any fun result =>
      result.1.1.isOk by decide +kernel)
  obtain ⟨⟨outcome, w'⟩, hRun, hFailed⟩ := (Option.any_eq_true _ _).mp
    (show (faulty.run (Host.ofDepth default 2) [] [] default).any fun result =>
      !result.1.isOk by decide +kernel)
  cases started with
  | error _ => cases hStarted
  | ok _ =>
    cases outcome with
    | ok _ => cases hFailed
    | error error =>
      obtain ⟨f, blame, aftermath, cause, rfl, rfl, -⟩ := first_error_wins hStart hRun
      exact ⟨f, cause, hRun, ⟨blame⟩, ⟨aftermath⟩⟩

end Application.FailedRun

end Startup
