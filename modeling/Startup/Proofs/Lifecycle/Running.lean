import Startup.Proofs.Lifecycle.Launch

/-!
# Runs by their ends

A run is unstarted, completed or failed. A failed run reports its error and closes its context,
and the moments between these steps can be spoken of.
-/

namespace Startup

variable {σ : Type} {host : Host σ} {application : Application σ} {progress : Progress σ}
  {w w' : World σ}

/-- The run wrote at most one entry of its own, which announces nothing. -/
def World.Remarks (w w' : World σ) : Prop :=
  w' = w ∨ ∃ entry : Entry, entry.isOfRun ∧ entry.phase? = none ∧ w' = w.note entry

theorem World.Remarks.journal_grows (h : w.Remarks w') : w.journal <+: w'.journal := by
  rcases h with rfl | ⟨entry, -, -, rfl⟩
  · exact List.prefix_rfl
  · exact List.prefix_append _ _

theorem World.Remarks.isOfRun (h : w.Remarks w') : ∀ entry ∈ w'.since w, entry.isOfRun := by
  rcases h with rfl | ⟨entry, hRun, -, rfl⟩
  · rw [since_self]
    exact nofun
  · rw [since_eq (journal_note w entry)]
    intro other hOther
    exact List.mem_singleton.mp hOther ▸ hRun

theorem World.Remarks.stateOf (h : w.Remarks w') (id : ContextId) :
    w'.stateOf id = w.stateOf id := by
  rcases h with rfl | ⟨entry, -, -, rfl⟩ <;> rfl

theorem World.Remarks.length_contexts (h : w.Remarks w') :
    w'.contexts.length = w.contexts.length := by
  rcases h with rfl | ⟨entry, -, -, rfl⟩ <;> rfl

/-- What is left of an outcome whose error is only written down. -/
def World.warned {ε α : Type} (w : World σ) (warning : ε → Entry) : Except ε α → World σ
  | .ok _ => w
  | .error error => w.note (warning error)

theorem World.remarks_warned {ε α : Type} (w : World σ) {warning : ε → Entry}
    (hRun : ∀ error, (warning error).isOfRun ∧ (warning error).phase? = none)
    (outcome : Except ε α) : w.Remarks (w.warned warning outcome) := by
  cases outcome with
  | ok _ => exact .inl rfl
  | error error => exact .inr ⟨_, (hRun error).1, (hRun error).2, rfl⟩

theorem Chronicle.remarks {scope : Scope} {origin : World σ} {reached : List Phase}
    (h : Chronicle scope origin reached w) (hRemarks : w.Remarks w') :
    Chronicle scope origin reached w' := by
  rcases hRemarks with rfl | ⟨entry, hRun, hPhase, rfl⟩
  · exact h
  · have hNote := h.note entry hRun
    rwa [Entry.phases, List.filterMap_cons_none hPhase, List.filterMap_nil, List.append_nil]
      at hNote

namespace Application

/-- A run that started and then failed, with the moments in between. -/
structure FailedRun (host : Host σ) (application : Application σ)
    (system : List (String × String)) (arguments : List String) (w : World σ) where
  publisher : Publisher σ
  started : World σ
  start_eq : application.start host arguments w = some ((.ok (), publisher), started)
  error : RunError
  progress : Progress σ
  launched : World σ
  launch_eq : (application.launch host system arguments).run.run ⟨publisher, none⟩ started =
    some ((.error error, progress), launched)
  reported : World σ
  report_eq : announceFailure host application progress error.toCause
    (launched.note (.failedToStart application.name error.toCause)) = some ((), reported)
  ended : World σ
  close_eq : closeContext host application progress reported = some ((), ended)

inductive Running (host : Host σ) (application : Application σ)
    (system : List (String × String)) (arguments : List String) (w : World σ) :
    Except RunError ContextId → World σ → Prop
  | unstarted {error : RunError} {publisher : Publisher σ} {w' : World σ}
      (hStart : application.start host arguments w = some ((.error error, publisher), w')) :
      Running host application system arguments w (.error error) w'
  | completed {publisher : Publisher σ} {started w₁ w' : World σ} {id : ContextId}
      {settings : MainSettings} {progress : Progress σ}
      (hStart : application.start host arguments w = some ((.ok (), publisher), started))
      (hLaunch : (application.launch host system arguments).run.run ⟨publisher, none⟩ started =
        some ((.ok (id, settings), progress), w₁))
      (hRemarks : w₁.Remarks w') : Running host application system arguments w (.ok id) w'
  | failed (f : FailedRun host application system arguments w) :
      Running host application system arguments w (.error (.startupFailed f.error.toCause)) f.ended

theorem running_of_run {system : List (String × String)} {arguments : List String}
    {outcome : Except RunError ContextId}
    (h : application.run host system arguments w = some (outcome, w')) :
    Running host application system arguments w outcome w' := by
  obtain ⟨⟨started, publisher⟩, w₁, hStart, hRest⟩ := Act.bind_inv h
  cases started with
  | error error =>
    cases hRest
    exact .unstarted hStart
  | ok _ =>
    obtain ⟨⟨result, progress⟩, w₂, hLaunch, hEnd⟩ := Act.bind_inv hRest
    cases result with
    | ok result =>
      obtain ⟨id, settings⟩ := result
      dsimp only at hEnd
      split at hEnd
      · cases hEnd
        exact .completed hStart hLaunch (.inr ⟨.startedApplication application.name, rfl, rfl, rfl⟩)
      · cases hEnd
        exact .completed hStart hLaunch (.inl rfl)
    | error error =>
      obtain ⟨answer, w₃, hReport, hPure⟩ := Act.bind_inv hEnd
      cases hPure
      obtain ⟨_, w₄, hWrite, hTail⟩ := Act.bind_inv hReport
      cases Act.write_inv hWrite
      obtain ⟨_, w₅, hAnnounce, hTail⟩ := Act.bind_inv hTail
      obtain ⟨_, w₆, hClose, hPure⟩ := Act.bind_inv hTail
      cases hPure
      exact .failed ⟨publisher, w₁, hStart, error, progress, w₂, hLaunch, w₅, hAnnounce, _, hClose⟩

section

variable {scope : Scope} {directory : Directory σ} {depth : Nat}
  {system : List (String × String)} {arguments : List String}

theorem underway_of_create {publisher : Publisher σ}
    (h : Publisher.create host application arguments w = some (publisher, w')) :
    Underway scope application w [] ⟨publisher, none⟩ w' := by
  obtain ⟨hApp, hLast, hKnown⟩ := Publisher.create_inv h
  have hPath : World.Path scope w w' := Publisher.create_within host _ _ h
  have hChronicle : Chronicle scope w [] w' := by
    refine ⟨hPath.journal_grows, ?_, ?_⟩
    · intro entry hEntry
      exact .inl (hPath.notes_of_mem_since hEntry)
    · apply Entry.phases_eq_nil
      intro entry hEntry
      exact scope.modest entry (hPath.notes_of_mem_since hEntry)
  have hMaking : Making w none w' := ⟨fun _ => hPath.length_contexts, nofun⟩
  exact ⟨hChronicle, hMaking, hLast, hApp, hKnown, nofun, nofun⟩

/-- After its start a run has announced `starting` and no more, and written of nothing else. Where
it fails, a listener of `starting` has failed. -/
theorem start_inv (hHost : host.Within scope) (hSends : scope.Sends (.run .starting))
    {outcome : Except RunError Unit} {publisher : Publisher σ}
    (h : application.start host arguments w = some ((outcome, publisher), w')) :
    At scope application w [.starting] none ⟨publisher, none⟩ w' ∧
      (∀ error, outcome = .error error → ∃ name cause,
        error = .delivery (.listenerFailed name (.run .starting) cause)) ∧
      ∀ entry ∈ w'.since w, entry.isOfRun → entry = .startingApplication application.name ∨
        entry = .publishing .starting application.name := by
  obtain ⟨first, w₁, hCreate, hRest⟩ := Act.bind_inv h
  obtain ⟨_, w₂, hWrite, hAnnounce⟩ := Act.bind_inv hRest
  cases Act.write_inv hWrite
  obtain ⟨hApp, hLast, -⟩ := Publisher.create_inv hCreate
  have hPath : World.Path scope w w₁ := Publisher.create_within host _ _ hCreate
  have hBegun : Underway scope application w [] ⟨first, none⟩ w₁ := underway_of_create hCreate
  obtain ⟨hUnderway, -⟩ :=
    (hBegun.note _ rfl rfl).announce hHost .starting hSends nofun rfl nofun nofun hAnnounce
  refine ⟨⟨hUnderway, rfl⟩, ?_⟩
  cases Publisher.announcing_of_announce hAnnounce with
  | refused hAdmits =>
    rw [hLast] at hAdmits
    cases hAdmits
  | @delivered delivery multicaster _ hAdmits hDeliver =>
    obtain ⟨answer, w₂, hBroadcast, hPure⟩ := Act.bind_inv hDeliver
    cases hPure
    have hSent : scope.Sends (first.event .starting).kind := hSends
    have hTail := Publisher.broadcast_within hHost hSent
      (Host.propagate_within hSent.failed) _ hBroadcast
    constructor
    · intro error hError
      cases delivery with
      | ok _ => cases hError
      | error inner =>
        cases hError
        obtain ⟨name, cause, rfl⟩ := Publisher.broadcast_error hHost hSent hBroadcast
        exact ⟨name, cause, rfl⟩
    · -- what comes before the two entries of the run and after them is within the scope
      intro entry hEntry hRun
      have hJournal := World.journal_eq_append_since hTail.journal_grows
      rw [World.journal_note, World.journal_note, List.append_assoc, List.append_assoc] at hJournal
      rw [World.since_append hPath.journal_grows hJournal, List.mem_append, List.mem_append,
        List.mem_append, List.mem_singleton, List.mem_singleton] at hEntry
      rcases hEntry with hCreated | rfl | rfl | hDelivered
      · rw [scope.modest entry (hPath.notes_of_mem_since hCreated)] at hRun
        cases hRun
      · exact .inl rfl
      · exact .inr (congrArg (Entry.publishing .starting) (congrArg Application.name hApp))
      · rw [scope.modest entry (hTail.notes_of_mem_since hDelivered)] at hRun
        cases hRun

end

namespace FailedRun

variable {scope : Scope} {directory : Directory σ} {depth : Nat}
  {system : List (String × String)} {arguments : List String}

theorem reportFailure_eq (f : FailedRun host application system arguments w) :
    reportFailure host application f.progress f.error f.launched =
      some (.startupFailed f.error.toCause, f.ended) := by
  have hWrite : (Act.write (.failedToStart application.name f.error.toCause)) f.launched =
      some ((), f.launched.note (.failedToStart application.name f.error.toCause)) := rfl
  rw [reportFailure, Act.bind_apply hWrite, Act.bind_apply f.report_eq, Act.bind_apply f.close_eq]
  rfl

theorem run_eq (f : FailedRun host application system arguments w) :
    application.run host system arguments w =
      some (.error (.startupFailed f.error.toCause), f.ended) := by
  rw [run, Act.bind_apply f.start_eq]
  dsimp only
  rw [Act.bind_apply f.launch_eq]
  dsimp only
  rw [Act.bind_apply f.reportFailure_eq]
  rfl

theorem breaking (hWithin : application.Within scope directory)
    (f : FailedRun (Host.ofDepth directory depth) application system arguments w) :
    Breaking scope application w f.error f.progress f.launched := by
  have hHost := Host.ofDepth_within hWithin.directory depth
  obtain ⟨hAt, -⟩ := start_inv hHost (hWithin.sends _ nofun) f.start_eq
  exact launch_meets hWithin system arguments hAt f.launch_eq

def event (f : FailedRun host application system arguments w) : Event :=
  f.progress.publisher.event (.failed (f.progress.context.map .managed) f.error.toCause)

def announced (f : FailedRun host application system arguments w) : World σ :=
  (f.launched.note (.failedToStart application.name f.error.toCause)).note
    (.publishing .failed f.progress.publisher.application.name)

/-- The warning about a failure that was not delivered. -/
def undelivered (application : Application σ) (error : DeliveryError) : Entry :=
  .reportFailed application.name (.delivery error)

theorem reporting (f : FailedRun host application system arguments w)
    (hLast : f.progress.publisher.last ≠ some .failed) :
    ∃ outcome multicaster v, Publisher.deliverFailure host (f.progress.context.map .managed)
        f.progress.publisher.multicaster f.event f.announced = some ((outcome, multicaster), v) ∧
      f.reported = v.warned (undelivered application) outcome := by
  obtain ⟨⟨reported, publisher⟩, v, hAnnounce, hRest⟩ := Act.bind_inv f.report_eq
  cases Publisher.announcing_of_announce hAnnounce with
  | refused hAdmits =>
    have hAdmitted := Publisher.admits_failed hLast
    exact absurd (hAdmitted.symm.trans hAdmits) nofun
  | @delivered outcome multicaster _ hAdmits hDeliver =>
    refine ⟨outcome, multicaster, v, hDeliver, ?_⟩
    cases outcome with
    | ok _ => exact (Act.pure_inv hRest).2.symm
    | error error => exact Act.write_inv hRest

theorem delivered (f : FailedRun host application system arguments w)
    (hLast : f.progress.publisher.last ≠ some .failed) :
    ∃ outcome multicaster v, Publisher.deliverFailure host (f.progress.context.map .managed)
        f.progress.publisher.multicaster f.event f.announced = some ((outcome, multicaster), v) ∧
      v.Remarks f.reported := by
  obtain ⟨outcome, multicaster, v, hDeliver, hReported⟩ := f.reporting hLast
  rw [hReported]
  exact ⟨outcome, multicaster, v, hDeliver, v.remarks_warned (fun _ => ⟨rfl, rfl⟩) outcome⟩

theorem closing (f : FailedRun host application system arguments w) :
    f.progress.context = none ∧ f.ended = f.reported ∨
      ∃ id outcome v, f.progress.context = some id ∧
        id.close host f.reported = some (outcome, v) ∧
        f.ended = v.warned (.closeFailed application.name) outcome := by
  have hClose := f.close_eq
  rw [closeContext] at hClose
  cases hContext : f.progress.context with
  | none =>
    rw [hContext] at hClose
    exact .inl ⟨rfl, (Act.pure_inv hClose).2.symm⟩
  | some id =>
    rw [hContext] at hClose
    obtain ⟨outcome, v, hAct, hRest⟩ := Act.bind_inv hClose
    refine .inr ⟨id, outcome, v, rfl, hAct, ?_⟩
    cases outcome with
    | ok _ => exact (Act.pure_inv hRest).2.symm
    | error error => exact Act.write_inv hRest

theorem closed (f : FailedRun host application system arguments w) :
    f.progress.context = none ∧ f.ended = f.reported ∨
      ∃ id outcome v, f.progress.context = some id ∧
        id.close host f.reported = some (outcome, v) ∧ v.Remarks f.ended := by
  rcases f.closing with hNone | ⟨id, outcome, v, hId, hClose, hEnded⟩
  · exact .inl hNone
  · rw [hEnded]
    exact .inr ⟨id, outcome, v, hId, hClose, v.remarks_warned (fun _ => ⟨rfl, rfl⟩) outcome⟩

end FailedRun

end Application

end Startup
