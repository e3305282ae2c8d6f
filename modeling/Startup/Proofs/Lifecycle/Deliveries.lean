import Startup.Proofs.Lifecycle.FirstError
import Startup.Proofs.Lifecycle.Returning
import Startup.Proofs.Lifecycle.Successful
import Startup.Proofs.Multicaster.Sequence

/-!
# Every listener hears once

A run whose listeners are quiet and do not fail, and whose initializers do no more than to prepare
the context, completes. Each of its events is heard by those that are registered for it, in order
and once, whether the publisher or the context delivers it.
-/

namespace Startup

variable {σ : Type} {directory : Directory σ} {depth : Nat} {application : Application σ}
  {system : List (String × String)} {arguments : List String} {origin w w' : World σ}
  {first registrations : List Registration} {progress : Progress σ}

namespace Call

/-- The calls of a run that completes. -/
def ofRun (sequence : Multicaster → EventKind → List Registration) (early late : Multicaster)
    (told : List Call) (id : ContextId) : List Call :=
  let direct (phase : Phase) := turns .other (.run phase) (sequence early (.run phase))
  concluding sequence early late told id (direct .starting ++ direct .environmentPrepared)

/-- Whether a listener is called with an event of a kind. -/
def tells (listener : ListenerId) (kind : EventKind) : Call → Bool
  | event _ other told => other == listener && told == kind
  | context _ => false

/-- Whose registrations are asked for an event of a kind in a run that completes. -/
def keeper (early late : Multicaster) : EventKind → Multicaster
  | .run .starting | .run .environmentPrepared => early
  | .run .contextInitialized | .run .contextLoaded => early
  | .context .refreshed | .run .started | .run .running => late
  | .run .failed | .context .closed => ⟨[]⟩

theorem countP_turns (origin : Origin) (told kind : EventKind) (listener : ListenerId)
    (registrations : List Registration) :
    (turns origin told registrations).countP (tells listener kind) =
      if told = kind then registrations.countP fun r => r.listener == listener else 0 := by
  rw [turns, List.countP_map]
  split
  next hSame => simp [Function.comp_def, tells, hSame]
  next hOther => simp [Function.comp_def, tells, hOther]

variable {sequence : Multicaster → EventKind → List Registration}

/-- An event goes to each registration that accepts it, in one of the two places, and once. -/
theorem countP_ofRun (hSequence : ∀ (m : Multicaster) kind, m.InSequence kind (sequence m kind))
    (early late : Multicaster) {told : List Call} (id : ContextId) (listener : ListenerId)
    (kind : EventKind) (hTold : told.countP (tells listener kind) = 0) :
    (ofRun sequence early late told id).countP (tells listener kind) =
      (keeper early late kind).registrations.countP fun r =>
        r.listener == listener && r.accepts kind := by
  have hTurns (origin : Origin) (m : Multicaster) (other : EventKind) :
      (turns origin other (sequence m other)).countP (tells listener kind) =
        if other = kind then
          m.registrations.countP fun r => r.listener == listener && r.accepts kind
        else 0 := by
    rw [countP_turns]
    split
    next hSame =>
      subst hSame
      rw [(hSequence m other).perm.countP_eq, List.countP_filter]
    next => rfl
  -- a kind stands in one of the parts only, and two kinds in none
  simp only [ofRun, concluding, List.countP_append, hTurns, hTold]
  cases kind with
  | run phase => cases phase <;> simp [keeper]
  | context change => cases change <;> simp [keeper]

end Call

theorem Publisher.countP_supplies (host : Host σ) (listeners : List ListenerId)
    (listener : ListenerId) (kind : EventKind) :
    (supplies host listeners).countP (Call.tells listener kind) = 0 := by
  rw [supplies, List.countP_map, List.countP_eq_zero]
  intro _ _
  exact Bool.false_ne_true

theorem World.Remarks.hears (h : w.Remarks w') : w.Hears none [] w' := by
  rcases h with rfl | ⟨entry, hRun, -, rfl⟩
  · exact .refl _
  · have hSilent : entry.call? = none := by cases entry <;> first | rfl | cases hRun
    have hNote : w.Hears none _ (w.note entry) := .note w entry
    rwa [Entry.calls, List.filterMap_cons_none hSilent] at hNote

/-- Whether a listener declares the same each time. -/
def Listener.Steady (listener : Listener σ) : Prop :=
  ∃ terms, ∀ memory, (listener.declare memory).1 = terms

theorem Host.captures_unique {host : Host σ} {ids : List ListenerId} {a b : List Registration}
    (hSteady : ∀ id ∈ ids, (host.listener id).Steady) (ha : List.Forall₂ host.Captures ids a)
    (hb : List.Forall₂ host.Captures ids b) : a = b := by
  induction ha generalizing b with
  | nil =>
    cases hb
    rfl
  | cons hFirst _ ih =>
    cases hb with
    | cons hOther hRest =>
      obtain ⟨⟨terms, hTerms⟩, hSteadyRest⟩ := List.forall_mem_cons.mp hSteady
      obtain ⟨_, rfl⟩ := hFirst
      obtain ⟨_, rfl⟩ := hOther
      rw [hTerms, hTerms, ih hSteadyRest hRest]

namespace Application

theorem start_delivers (hQuiet : directory.Quiet) {outcome : Except RunError Unit}
    {publisher : Publisher σ}
    (h : application.start (Host.ofDepth directory depth) arguments w =
      some ((outcome, publisher), w')) :
    ∃ first, List.Forall₂ (Host.ofDepth directory depth).Captures application.listeners first ∧
      publisher = ⟨application, arguments, ⟨first⟩, some .starting⟩ ∧
      w.Delivers (Call.turns .other (.run .starting)
        (Multicaster.matching ⟨first⟩ (.run .starting))) w' outcome := by
  obtain ⟨p, w₁, hCreate, hRest⟩ := Act.bind_inv h
  obtain ⟨_, _, hWrite, hAnnounce⟩ := Act.bind_inv hRest
  obtain ⟨multicaster, _, hEnlist, hPure⟩ := Act.bind_inv hCreate
  cases Act.write_inv hWrite
  cases hPure
  obtain ⟨first, rfl, hFirst, -⟩ := Host.enlistAll_inv hEnlist
  have hEarly : RunPayload.starting.phase ∈ [.starting, .environmentPrepared,
      .contextInitialized] := by decide
  obtain ⟨rfl, hDelivers⟩ := Publisher.announce_early hQuiet rfl hEarly hAnnounce
  have hEnlisted := Host.enlistAll_hushed _ _ _ (World.idle_none w) hEnlist
  exact ⟨first, hFirst, rfl, (hDelivers.note rfl).later hEnlisted⟩

/-- A launch completes, with all its calls, or it is troubled. -/
theorem launch_hears (hQuiet : directory.Quiet)
    (hInitializers : ∀ program ∈ application.initializers,
      (program origin.next).Quiet (some origin.next))
    {progress' : Progress σ} {outcome : Except RunError (ContextId × MainSettings)}
    (hStarted : Hearing application origin first (some .starting)
      (Call.turns .other (.run .starting) (Multicaster.matching ⟨first⟩ (.run .starting))) none
      .none progress w)
    (h : (application.launch (Host.ofDepth directory depth) system arguments).run.run progress w =
      some ((outcome, progress'), w')) :
    (∃ settings opened between v added handed made, outcome = .ok (origin.next, settings) ∧
      (LaunchStep.stages (Host.ofDepth directory depth) application system arguments
        application.opening .none).run.run progress w = some ((.ok opened, between), v) ∧
      v.multicasterOf origin.next = some ⟨added⟩ ∧
      List.Forall₂ (Host.ofDepth directory depth).Captures application.listeners handed ∧
      Hearing application origin first (some .running)
        (Call.ofRun Multicaster.matching ⟨first⟩ ⟨added ++ handed⟩
          (Publisher.supplies (Host.ofDepth directory depth) application.listeners) origin.next)
        (some (.active, added ++ handed)) made progress' w') ∨
    ∃ error, outcome = .error error ∧ Troubled origin error progress' w' := by
  rw [LaunchStep.launch_eq_plan, plan, LaunchStep.stages_append, bind_assoc, Stage.run_bind] at h
  obtain ⟨⟨opened, between⟩, v, hOpening, hRest⟩ := Act.bind_inv h
  have hOpened := LaunchStep.opening_hears hQuiet hInitializers hStarted hOpening
  cases opened with
  | error error =>
    cases hRest
    exact .inr ⟨error, rfl, hOpened⟩
  | ok opened =>
    obtain ⟨added, hAdded⟩ := hOpened
    dsimp only at hRest
    rw [Stage.run_bind] at hRest
    obtain ⟨⟨made, last⟩, u, hConclusion, hAnswer⟩ := Act.bind_inv hRest
    have hConcluded := LaunchStep.conclusion_hears hQuiet opened hAdded hConclusion
    cases made with
    | error error =>
      cases hAnswer
      exact .inr ⟨error, rfl, hConcluded⟩
    | ok made =>
      obtain ⟨handed, hHanded, hDone⟩ := hConcluded
      obtain ⟨id, hMade, hAnswer⟩ := Stage.need_bind_inv hAnswer
      obtain ⟨settings, -, hAnswer⟩ := Stage.need_bind_inv hAnswer
      cases hDone.standing.made_inv.1.symm.trans hMade
      cases hAnswer
      exact .inl ⟨settings, opened, between, v, added, handed, made, rfl, hOpening,
        hAdded.standing.made_inv.2.2, hHanded, hDone⟩

/-- Whether nothing goes wrong in a run but what the library itself might do wrong: preparation and
binding succeed, no initializer fails, and no listener does. -/
structure Untroubled (host : Host σ) (application : Application σ)
    (system : List (String × String)) (arguments : List String) (w : World σ) : Prop where
  setup : ∀ (f : FailedRun host application system arguments w) (error : SetupError),
    f.error ≠ .setup error
  initializers : ∀ (f : FailedRun host application system arguments w) (cause : Cause),
    f.error ≠ .startupFailed cause
  listeners : ∀ outcome w', application.run host system arguments w = some (outcome, w') →
    ∀ name kind cause, .listenerFailed name kind cause ∉ w'.since w

theorem Untroubled.of_run {host : Host σ} {id : ContextId}
    (h : application.run host system arguments w = some (.ok id, w'))
    (hListeners : ∀ name kind cause, .listenerFailed name kind cause ∉ w'.since w) :
    application.Untroubled host system arguments w where
  setup f := absurd (h.symm.trans f.run_eq) nofun
  initializers f := absurd (h.symm.trans f.run_eq) nofun
  listeners outcome other hOther := by
    cases h.symm.trans hOther
    exact hListeners

/-- The moment of a run when its initializers are done. -/
structure Midway (host : Host σ) (application : Application σ)
    (system : List (String × String)) (arguments : List String) (w : World σ) where
  publisher : Publisher σ
  started : World σ
  start_eq : application.start host arguments w = some ((.ok (), publisher), started)
  made : Made
  progress : Progress σ
  reached : World σ
  opening_eq : (LaunchStep.stages host application system arguments application.opening
    .none).run.run ⟨publisher, none⟩ started = some ((.ok made, progress), reached)

theorem hearing_of_start (hQuiet : directory.Quiet) {publisher : Publisher σ}
    (h : application.start (Host.ofDepth directory depth) arguments w =
      some ((.ok (), publisher), w')) :
    ∃ first, List.Forall₂ (Host.ofDepth directory depth).Captures application.listeners first ∧
      Hearing application w first (some .starting)
        (Call.turns .other (.run .starting) (Multicaster.matching ⟨first⟩ (.run .starting)))
        none .none ⟨publisher, none⟩ w' := by
  obtain ⟨first, hFirst, rfl, hHears⟩ := start_delivers hQuiet h
  refine ⟨first, hFirst, hHears.grown, hHears.calls_eq, rfl, rfl, rfl, ?_⟩
  exact .unmade rfl hHears.length

/-- A run does not fail for nothing. -/
theorem Untroubled.not_troubled
    (h : application.Untroubled (Host.ofDepth directory depth) system arguments w)
    (f : FailedRun (Host.ofDepth directory depth) application system arguments w) :
    ¬ Troubled w f.error f.progress f.launched := by
  rintro (⟨error, hError⟩ | ⟨cause, hError⟩ | hFailure)
  · exact h.setup f error hError
  · exact h.initializers f cause hError
  · obtain ⟨-, reached, -, hReached, hUnderway⟩ := f.breaking (within_full directory _)
    obtain ⟨aftermath⟩ := f.aftermath (hUnderway.last_ne_failed hReached)
    -- the listener that failed was written down before the failure was reported
    have hGrown : f.launched.journal <+: f.ended.journal :=
      ⟨_, aftermath.journal_ended.symm⟩
    obtain ⟨-, name, kind, cause, hMem⟩ := hFailure.before hGrown
    exact h.listeners _ f.ended f.run_eq name kind cause hMem

/-- What is heard in a run that completes. The listeners of the application are registered with the
publisher first, and handed over to the context when the initializers have added theirs. -/
structure Heard (host : Host σ) (application : Application σ) (system : List (String × String))
    (arguments : List String) (w w' : World σ) where
  midway : application.Midway host system arguments w
  first : List Registration
  added : List Registration
  handed : List Registration
  sequence : Multicaster → EventKind → List Registration
  first_captures : List.Forall₂ host.Captures application.listeners first
  handed_captures : List.Forall₂ host.Captures application.listeners handed
  handed_eq : (∀ id ∈ application.listeners, (host.listener id).Steady) → handed = first
  added_eq : midway.reached.multicasterOf w.next = some ⟨added⟩
  held_eq : w'.multicasterOf w.next = some ⟨added ++ handed⟩
  inSequence : ∀ (m : Multicaster) (kind : EventKind), m.InSequence kind (sequence m kind)
  calls_eq : Entry.calls (w'.since w) = Call.ofRun sequence ⟨first⟩ ⟨added ++ handed⟩
    (Publisher.supplies host application.listeners) w.next

theorem heard_of_run (hQuiet : directory.Quiet)
    (hInitializers : ∀ program ∈ application.initializers,
      (program w.next).Quiet (some w.next))
    (hUntroubled : application.Untroubled (Host.ofDepth directory depth) system arguments w)
    {outcome : Except RunError ContextId}
    (hRun : application.run (Host.ofDepth directory depth) system arguments w =
      some (outcome, w')) :
    outcome = .ok w.next ∧
      Nonempty (application.Heard (Host.ofDepth directory depth) system arguments w w') := by
  cases running_of_run hRun with
  | unstarted hStart =>
    obtain ⟨first, -, -, -, name, kind, cause, hMem⟩ := start_delivers hQuiet hStart
    exact absurd hMem (hUntroubled.listeners _ _ hRun name kind cause)
  | failed f =>
    obtain ⟨first, -, hStarted⟩ := hearing_of_start hQuiet f.start_eq
    rcases launch_hears hQuiet hInitializers hStarted f.launch_eq with
      ⟨_, _, _, _, _, _, _, hOk, -⟩ | ⟨error, hError, hTroubled⟩
    · cases hOk
    · cases hError
      exact absurd hTroubled (hUntroubled.not_troubled f)
  | @completed publisher started _ _ id _ _ hStart hLaunch hRemarks =>
    obtain ⟨first, hFirst, hStarted⟩ := hearing_of_start hQuiet hStart
    rcases launch_hears hQuiet hInitializers hStarted hLaunch with
      ⟨_, opened, between, reached, added, handed, _, hOk, hOpening, hAdded, hHanded, hDone⟩ |
      ⟨_, hError, -⟩
    · cases hOk
      have hEnded := hDone.hushed hRemarks.hears
      exact ⟨rfl, ⟨{
        midway := ⟨publisher, started, hStart, opened, between, reached, hOpening⟩
        first := first
        added := added
        handed := handed
        sequence := Multicaster.matching
        first_captures := hFirst
        handed_captures := hHanded
        handed_eq := fun hSteady => Host.captures_unique hSteady hHanded hFirst
        added_eq := hAdded
        held_eq := hEnded.standing.made_inv.2.2
        inSequence := Multicaster.inSequence_matching
        calls_eq := hEnded.calls_eq }⟩⟩
    · cases hError

/-- Where listeners are quiet and nothing goes wrong, a run completes, and every event is delivered
exactly once. The early phases are heard by the application's listeners, and the rest by those that
the context was given, first by the initializers and then by the hand-over. -/
theorem run_delivers_once (hQuiet : directory.Quiet)
    (hInitializers : ∀ program ∈ application.initializers,
      (program w.next).Quiet (some w.next))
    (hUntroubled : application.Untroubled (Host.ofDepth directory depth) system arguments w) :
    (∀ outcome w', application.run (Host.ofDepth directory depth) system arguments w =
        some (outcome, w') →
      outcome = .ok w.next ∧
        ∃ heard : application.Heard (Host.ofDepth directory depth) system arguments w w',
          ∀ listener kind, (Entry.calls (w'.since w)).countP (Call.tells listener kind) =
            (Call.keeper ⟨heard.first⟩ ⟨heard.added ++ heard.handed⟩ kind).registrations.countP
              fun r => r.listener == listener && r.accepts kind) ∧
    ∀ inv, application.Served (Host.ofDepth directory depth) inv → inv w →
      ∃ w', application.run (Host.ofDepth directory depth) system arguments w =
        some (.ok w.next, w') := by
  constructor
  · intro outcome w' hRun
    obtain ⟨hOk, ⟨heard⟩⟩ := heard_of_run hQuiet hInitializers hUntroubled hRun
    refine ⟨hOk, heard, ?_⟩
    intro listener kind
    rw [heard.calls_eq]
    exact Call.countP_ofRun heard.inSequence _ _ _ listener kind
      (Publisher.countP_supplies _ _ listener kind)
  · intro inv hServed hInv
    obtain ⟨outcome, w', hRun, -⟩ := run_returns hServed system arguments hInv
    obtain ⟨rfl, -⟩ := heard_of_run hQuiet hInitializers hUntroubled hRun
    exact ⟨w', hRun⟩

/-- An application with a listener, whose initializer adds another one to the context. -/
def attended : Application Unit :=
  ((plain : Application Unit).addListener ⟨0⟩).addInitializer fun id =>
    .ask (.subscribe (.managed id) ⟨1⟩) fun _ => .done (.ok ())

theorem served_attended : attended.Served (Host.ofDepth default 2) fun _ => True where
  grows _ _ _ _ _ := trivial
  declare _ _ _ := trivial
  onEvent w _ _ _ _ := ⟨_, w, rfl, trivial⟩
  onContext _ _ _ _ hSupply := nomatch hSupply
  initializer initializer hMem w _ _ _ := by
    cases List.mem_singleton.mp hMem
    exact ⟨_, _, rfl, trivial⟩

theorem run_delivers_once_attended :
    ∃ w', attended.run (Host.ofDepth default 2) [] [] default = some (.ok ⟨0⟩, w') ∧
      Nonempty (attended.Heard (Host.ofDepth default 2) [] [] default w') := by
  obtain ⟨⟨outcome, w'⟩, hRun, hFacts⟩ := (Option.any_eq_true _ _).mp
    (show (attended.run (Host.ofDepth default 2) [] [] default).any fun result =>
      result.1.isOk && (result.2.since default).all fun entry =>
        !(entry matches .listenerFailed ..) by decide +kernel)
  obtain ⟨hCompleted, hEntries⟩ := Bool.and_eq_true_iff.mp hFacts
  cases outcome with
  | error error => cases hCompleted
  | ok id =>
    have hQuiet : (default : Directory Unit).Quiet := ⟨fun _ _ => trivial, fun _ _ => nofun⟩
    have hInitializers : ∀ program ∈ attended.initializers,
        (program (default : World Unit).next).Quiet (some (default : World Unit).next) := by
      intro program hProgram
      cases List.mem_singleton.mp hProgram
      exact ⟨⟨nofun, _, rfl⟩, fun _ => trivial⟩
    have hUntroubled : attended.Untroubled (Host.ofDepth default 2) [] [] default := by
      apply Untroubled.of_run hRun
      intro name kind cause hMem
      exact absurd (List.all_eq_true.mp hEntries _ hMem) nofun
    obtain ⟨hDelivers, hReturns⟩ := run_delivers_once hQuiet hInitializers hUntroubled
    obtain ⟨ended, hEnded⟩ := hReturns _ served_attended trivial
    obtain ⟨-, heard, -⟩ := hDelivers _ _ hEnded
    exact ⟨ended, hEnded, ⟨heard⟩⟩

end Application

end Startup
