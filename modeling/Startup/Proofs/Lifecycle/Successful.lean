import Startup.Proofs.Lifecycle.Hearing
import Startup.Proofs.Lifecycle.Plan
import Startup.Proofs.Lifecycle.Underway

/-!
# The steps of a quiet launch

Where listeners are quiet, and initializers do no more than to prepare the context, each step of a
launch makes the calls that it is to make and leaves the context as the next step needs it, or it
is troubled by what is not the library's.
-/

namespace Startup

variable {σ : Type} {directory : Directory σ} {depth : Nat} {application : Application σ}
  {system : List (String × String)} {arguments : List String} {origin w w' : World σ}
  {held : Option (ContextState × List Registration)} {made : Made} {progress : Progress σ}
  {first registrations : List Registration} {last : Option Phase} {calls told : List Call}

namespace Call

/-- The calls from `contextInitialized` on: of those that the publisher knows for the early phases,
of those that want to be told of the context, and of those that the context holds for the rest. -/
def concluding (sequence : Multicaster → EventKind → List Registration)
    (early late : Multicaster) (told : List Call) (id : ContextId) (before : List Call) :
    List Call :=
  let direct (phase : Phase) := turns .other (.run phase) (sequence early (.run phase))
  let through (kind : EventKind) := turns (.context id) kind (sequence late kind)
  before ++ direct .contextInitialized ++ (told ++ direct .contextLoaded) ++
    through (.context .refreshed) ++ through (.run .started) ++ through (.run .running)

end Call

/-- Whether a run has its context, in a state and with some listeners. -/
inductive Standing (origin : World σ) (made : Made) (w : World σ) :
    Option (ContextState × List Registration) → Prop
  | unmade (hMade : made.context = none) (hLength : w.contexts.length = origin.contexts.length) :
      Standing origin made w none
  | made {state : ContextState} {registrations : List Registration}
      (hMade : made.context = some origin.next) (hState : w.stateOf origin.next = some state)
      (hHeld : w.multicasterOf origin.next = some ⟨registrations⟩) :
      Standing origin made w (some (state, registrations))

/-- How a run stands between two steps, with all calls so far. -/
structure Hearing (application : Application σ) (origin : World σ) (first : List Registration)
    (last : Option Phase) (calls : List Call) (held : Option (ContextState × List Registration))
    (made : Made) (progress : Progress σ) (w : World σ) : Prop where
  grown : origin.journal <+: w.journal
  calls_eq : Entry.calls (w.since origin) = calls
  last_eq : progress.publisher.last = last
  app : progress.publisher.application = application
  known : progress.publisher.multicaster = ⟨first⟩
  standing : Standing origin made w held

/-- A step has failed, and not because of what the library did. -/
def Troubled (origin : World σ) (error : RunError) : Stage.Assertion σ := fun _ w =>
  (∃ inner, error = .setup inner) ∨ (∃ cause, error = .startupFailed cause) ∨
    origin.HearsFailure w

theorem Standing.hears (h : Standing origin made w held) (hHears : w.Hears none calls w') :
    Standing origin made w' held := by
  cases h with
  | unmade hMade hLength => exact .unmade hMade (hHears.length.trans hLength)
  | made hMade hState hHeld =>
    exact .made hMade ((hHears.states _).trans hState) ((hHears.multicasters rfl _).trans hHeld)

theorem Standing.made_inv {state : ContextState}
    (h : Standing origin made w (some (state, registrations))) :
    made.context = some origin.next ∧ w.stateOf origin.next = some state ∧
      w.multicasterOf origin.next = some ⟨registrations⟩ := by
  cases h with
  | made hMade hState hHeld => exact ⟨hMade, hState, hHeld⟩

namespace Hearing

theorem calls_append (h : Hearing application origin first last calls held made progress w)
    (hGrown : w.journal <+: w'.journal) :
    Entry.calls (w'.since origin) = calls ++ Entry.calls (w'.since w) := by
  rw [World.since_trans h.grown hGrown, Entry.calls_append, h.calls_eq]

theorem hears (h : Hearing application origin first last calls held made progress w)
    (hHears : w.Hears none told w') :
    Hearing application origin first last (calls ++ told) held made progress w' where
  grown := h.grown.trans hHears.grown
  calls_eq := by rw [h.calls_append hHears.grown, hHears.calls_eq]
  last_eq := h.last_eq
  app := h.app
  known := h.known
  standing := h.standing.hears hHears

theorem hushed (h : Hearing application origin first last calls held made progress w)
    (hHears : w.Hears none [] w') :
    Hearing application origin first last calls held made progress w' := by
  have hNext := h.hears hHears
  rwa [List.append_nil] at hNext

theorem announced (h : Hearing application origin first last calls held made progress w)
    (phase : Phase) : Hearing application origin first (some phase) calls held made
      { progress with publisher := { progress.publisher with last := some phase } } w :=
  ⟨h.grown, h.calls_eq, rfl, h.app, h.known, h.standing⟩

/-- Things that are made beside the context change nothing in how a run stands. -/
theorem remade {made' : Made} (h : Hearing application origin first last calls held made progress w)
    (hContext : made'.context = made.context) :
    Hearing application origin first last calls held made' progress w := by
  refine ⟨h.grown, h.calls_eq, h.last_eq, h.app, h.known, ?_⟩
  cases h.standing with
  | unmade hMade hLength => exact .unmade (hContext.trans hMade) hLength
  | made hMade hState hHeld => exact .made (hContext.trans hMade) hState hHeld

end Hearing

theorem Environment.prepare_hushed {own : Option ContextId} (defaults : List (String × String))
    (system : Option (List (String × String))) (arguments : List String) :
    (Environment.prepare defaults system arguments : Act σ _).Hushed own := by
  rw [Environment.prepare]
  cases Properties.prepare defaults system arguments with
  | error error => exact Act.hushed_pure _
  | ok properties =>
    refine (Act.hushed_addStore properties).bind fun store => ?_
    exact (Act.hushed_write rfl).bind fun _ => Act.hushed_pure _

namespace LaunchStep

theorem prepare_hears (made : Made) :
    Stage.Meets (Hearing application origin first last calls held made)
      (prepare.stage (Host.ofDepth directory depth) application system arguments made)
      (Hearing application origin first last calls held) (Troubled origin) := by
  apply Stage.Meets.bind_pure
  apply Stage.Meets.attempt
  · intro progress w environment w' h hPrepare
    have hHears := Environment.prepare_hushed _ _ _ (World.idle_none w) hPrepare
    exact (h.hushed hHears).remade rfl
  · intro progress w error w' h hPrepare
    exact .inl ⟨error, rfl⟩

theorem bind_hears (made : Made) :
    Stage.Meets (Hearing application origin first last calls held made)
      (bind.stage (Host.ofDepth directory depth) application system arguments made)
      (Hearing application origin first last calls held) (Troubled origin) := by
  apply Stage.Meets.need_bind
  intro environment hEnvironment
  apply Stage.Meets.bind_pure
  apply Stage.Meets.attempt
  · intro progress w settings w' h hAct
    have hHears := ((Act.hushed_properties environment.store).bind fun _ => Act.hushed_pure _)
      (World.idle_none w) hAct
    exact (h.hushed hHears).remade rfl
  · intro progress w error w' h hAct
    exact .inl ⟨error, rfl⟩

theorem announce_early_hears (hQuiet : directory.Quiet) (phase : Phase)
    (hTurn : last = phase.predecessor?)
    (hEarly : phase ∈ [.starting, .environmentPrepared, .contextInitialized]) (made : Made) :
    Stage.Meets (Hearing application origin first last calls held made)
      ((announce phase).stage (Host.ofDepth directory depth) application system arguments made)
      (Hearing application origin first (some phase) (calls ++ Call.turns .other (.run phase)
        (Multicaster.matching ⟨first⟩ (.run phase))) held) (Troubled origin) := by
  apply Stage.Meets.need_bind
  intro payload hPayload
  apply Stage.Meets.bind_pure
  intro progress w outcome progress' w' h hRun
  obtain ⟨publisher, hAnnounce, rfl⟩ := Stage.announce_inv hRun
  obtain rfl := Made.phase_of_payload? hPayload
  obtain ⟨rfl, hDelivers⟩ :=
    Publisher.announce_early hQuiet (h.last_eq.trans hTurn) hEarly hAnnounce
  rw [h.known] at hDelivers
  cases outcome with
  | ok _ => exact (h.hears hDelivers).announced payload.phase
  | error error => exact .inr (.inr (hDelivers.after h.grown))

theorem create_hears (made : Made) :
    Stage.Meets (Hearing application origin first last calls none made)
      (create.stage (Host.ofDepth directory depth) application system arguments made)
      (Hearing application origin first last calls (some (.created, []))) (Troubled origin) := by
  apply Stage.Meets.need_bind
  intro settings _
  apply Stage.Meets.need_bind
  intro environment _
  apply Stage.Meets.bind_pure
  intro progress w outcome progress' w' h hRun
  obtain ⟨context, hState, hEmpty, hCreate⟩ := Stage.createContext_apply
    (Host.ofDepth directory depth) application settings environment progress w
  cases hCreate.symm.trans hRun
  cases h.standing with
  | unmade hMade hLength =>
    -- no context was added since the start, so the new one has the place behind the first ones
    have hNext : (⟨w.contexts.length⟩ : ContextId) = origin.next :=
      congrArg ContextId.mk hLength
    have hHere : (w.adding context).context? origin.next = some context := by
      rw [← hNext]
      exact w.context?_adding context
    have hSame : (w.adding context).since origin = w.since origin := rfl
    refine ⟨h.grown.trans (List.prefix_append _ _), ?_, h.last_eq, h.app, h.known, ?_⟩
    · rw [World.since_append (b := w.adding context) h.grown (World.journal_note _ _), hSame,
        Entry.calls_append, h.calls_eq]
      exact List.append_nil _
    · refine .made (congrArg some hNext) ?_ ?_
      · rw [World.stateOf_note, World.stateOf, hHere, Option.map_some, hState]
      · change Option.map _ ((w.adding context).context? origin.next) = _
        rw [hHere, Option.map_some, hEmpty]
        rfl

/-- The context is there, created, with some listeners. -/
def Gathering (application : Application σ) (origin : World σ) (first : List Registration)
    (last : Option Phase) (calls : List Call) (made : Made) : Stage.Assertion σ := fun progress w =>
  ∃ added, Hearing application origin first last calls (some (.created, added)) made progress w

theorem initializer_hears {program : ContextId → Program σ (Except Cause Unit)}
    (hProgram : (program origin.next).Quiet (some origin.next)) (made : Made) :
    Stage.Meets (Gathering application origin first last calls made)
      ((initializer program).stage (Host.ofDepth directory depth) application system arguments made)
      (Gathering application origin first last calls) (Troubled origin) := by
  apply Stage.Meets.need_bind
  intro context hContext
  apply Stage.Meets.bind_pure
  apply Stage.Meets.attempt
  · rintro progress w _ w' ⟨added, h⟩ hPerform
    obtain ⟨hMade, hState, -⟩ := h.standing.made_inv
    cases hMade.symm.trans hContext
    -- the context is not active yet, so it refuses whatever an initializer publishes through it
    have hIdle : w.Idle (some origin.next) := by
      rintro _ ⟨⟩
      rw [hState]
      decide
    have hHears := Host.perform_hushed directory depth hProgram hIdle hPerform
    have hLater := (hHears.states origin.next).trans hState
    obtain ⟨context, hHere, -⟩ := Option.map_eq_some_iff.mp hLater
    refine ⟨context.multicaster.registrations, h.grown.trans hHears.grown, ?_, h.last_eq, h.app,
      h.known, .made hMade hLater (ContextId.multicasterOf_of_context? hHere)⟩
    rw [h.calls_append hHears.grown, hHears.calls_eq, List.append_nil]
  · intro progress w cause w' _ _
    exact .inr (.inl ⟨cause, rfl⟩)

theorem initializers_hears
    (hInitializers : ∀ program ∈ application.initializers,
      (program origin.next).Quiet (some origin.next)) (made : Made) :
    Stage.Meets (Gathering application origin first last calls made)
      (stages (Host.ofDepth directory depth) application system arguments
        (application.initializers.map .initializer) made)
      (Gathering application origin first last calls) (Troubled origin) := by
  apply Stage.Meets.foldlM
  intro made step hStep
  obtain ⟨program, hProgram, rfl⟩ := List.mem_map.mp hStep
  exact initializer_hears (hInitializers program hProgram) made

theorem announce_contextLoaded_hears (hQuiet : directory.Quiet) (made : Made) :
    Stage.Meets (Hearing application origin first (some .contextInitialized) calls
        (some (.created, registrations)) made)
      ((announce .contextLoaded).stage (Host.ofDepth directory depth) application system arguments
        made)
      (fun made' progress w => ∃ handed,
        List.Forall₂ (Host.ofDepth directory depth).Captures application.listeners handed ∧
        Hearing application origin first (some .contextLoaded)
          (calls ++ (Publisher.supplies (Host.ofDepth directory depth) application.listeners ++
            Call.turns .other (.run .contextLoaded)
              (Multicaster.matching ⟨first⟩ (.run .contextLoaded))))
          (some (.created, registrations ++ handed)) made' progress w)
      (Troubled origin) := by
  apply Stage.Meets.need_bind
  intro payload hPayload
  apply Stage.Meets.bind_pure
  intro progress w outcome progress' w' h hRun
  obtain ⟨publisher, hAnnounce, rfl⟩ := Stage.announce_inv hRun
  obtain ⟨hMade, hState, hHeld⟩ := h.standing.made_inv
  obtain ⟨id, hContext, rfl⟩ := Option.map_eq_some_iff.mp hPayload
  cases hMade.symm.trans hContext
  have hIdle : w.Idle (some origin.next) := by
    rintro _ ⟨⟩
    rw [hState]
    decide
  obtain ⟨rfl, ⟨handed, rfl, hHanded, hHears, hAfter⟩ | ⟨error, rfl, hFailure⟩⟩ :=
    Publisher.announce_contextLoaded hQuiet h.last_eq hIdle hHeld hAnnounce
  · rw [h.app] at hHanded
    rw [h.app, h.known] at hHears
    refine ⟨handed, hHanded, h.grown.trans hHears.grown, ?_, rfl, h.app, h.known,
      .made hMade ((hHears.states _).trans hState) hAfter⟩
    rw [h.calls_append hHears.grown, hHears.calls_eq]
  · exact .inr (.inr (hFailure.after h.grown))

theorem refresh_hears (hQuiet : directory.Quiet) (made : Made) :
    Stage.Meets (Hearing application origin first last calls (some (.created, registrations)) made)
      (refresh.stage (Host.ofDepth directory depth) application system arguments made)
      (Hearing application origin first last
        (calls ++ Call.turns (.context origin.next) (.context .refreshed)
          (Multicaster.matching ⟨registrations⟩ (.context .refreshed)))
        (some (.active, registrations))) (Troubled origin) := by
  apply Stage.Meets.need_bind
  intro context hContext
  apply Stage.Meets.bind_pure
  apply Stage.Meets.attempt
  · intro progress w _ w' h hRefresh
    obtain ⟨hMade, hState, hHeld⟩ := h.standing.made_inv
    cases hMade.symm.trans hContext
    rcases ContextId.refresh_delivers hQuiet hState hHeld hRefresh with
      ⟨-, hGrown, hCalls, hActive, hKept⟩ | ⟨_, hError, -⟩
    · refine ⟨h.grown.trans hGrown, ?_, h.last_eq, h.app, h.known, .made hMade hActive hKept⟩
      rw [h.calls_append hGrown, hCalls]
    · cases hError
  · intro progress w error w' h hRefresh
    obtain ⟨hMade, hState, hHeld⟩ := h.standing.made_inv
    cases hMade.symm.trans hContext
    rcases ContextId.refresh_delivers hQuiet hState hHeld hRefresh with
      ⟨hOk, -⟩ | ⟨_, -, hFailure⟩
    · cases hOk
    · exact .inr (.inr (hFailure.after h.grown))

theorem announce_late_hears (hQuiet : directory.Quiet) (phase : Phase)
    (hTurn : last = phase.predecessor?) (hLate : phase = .started ∨ phase = .running)
    (made : Made) :
    Stage.Meets (Hearing application origin first last calls (some (.active, registrations)) made)
      ((announce phase).stage (Host.ofDepth directory depth) application system arguments made)
      (Hearing application origin first (some phase)
        (calls ++ Call.turns (.context origin.next) (.run phase)
          (Multicaster.matching ⟨registrations⟩ (.run phase)))
        (some (.active, registrations))) (Troubled origin) := by
  apply Stage.Meets.need_bind
  intro payload hPayload
  apply Stage.Meets.bind_pure
  intro progress w outcome progress' w' h hRun
  obtain ⟨publisher, hAnnounce, rfl⟩ := Stage.announce_inv hRun
  obtain ⟨hMade, hActive, hHeld⟩ := h.standing.made_inv
  obtain rfl := Made.phase_of_payload? hPayload
  have hThrough : payload = .started (.managed origin.next) ∨
      payload = .running (.managed origin.next) := by
    rcases hLate with hPhase | hPhase
    all_goals
      rw [hPhase, Made.payload?, hMade] at hPayload
      cases hPayload
      simp
  obtain ⟨rfl, hDelivers⟩ :=
    Publisher.announce_late hQuiet (h.last_eq.trans hTurn) hThrough hActive hHeld hAnnounce
  cases outcome with
  | ok _ => exact (h.hears hDelivers).announced payload.phase
  | error error => exact .inr (.inr (hDelivers.after h.grown))

theorem opening_hears (hQuiet : directory.Quiet)
    (hInitializers : ∀ program ∈ application.initializers,
      (program origin.next).Quiet (some origin.next)) :
    Stage.Meets (Hearing application origin first (some .starting) calls none .none)
      (stages (Host.ofDepth directory depth) application system arguments application.opening .none)
      (Gathering application origin first (some .environmentPrepared)
        (calls ++ Call.turns .other (.run .environmentPrepared)
          (Multicaster.matching ⟨first⟩ (.run .environmentPrepared)))) (Troubled origin) := by
  refine stages_append_meets _ _ _ _ ?_ (initializers_hears hInitializers)
  apply stages_cons_meets _ _ _ _ (prepare_hears .none)
  intro made
  apply stages_cons_meets _ _ _ _
    (announce_early_hears hQuiet .environmentPrepared rfl (by decide) made)
  intro made
  apply stages_cons_meets _ _ _ _ (bind_hears made)
  intro made
  apply stages_cons_meets _ _ _ _ (create_hears made)
  intro made
  exact Stage.Meets.pure fun _ _ h => ⟨[], h⟩

theorem conclusion_hears (hQuiet : directory.Quiet) (made : Made) :
    Stage.Meets (Hearing application origin first (some .environmentPrepared) calls
        (some (.created, registrations)) made)
      (stages (Host.ofDepth directory depth) application system arguments Application.conclusion
        made)
      (fun made' progress w => ∃ handed,
        List.Forall₂ (Host.ofDepth directory depth).Captures application.listeners handed ∧
        Hearing application origin first (some .running)
          (Call.concluding Multicaster.matching ⟨first⟩ ⟨registrations ++ handed⟩
            (Publisher.supplies (Host.ofDepth directory depth) application.listeners)
            origin.next calls)
          (some (.active, registrations ++ handed)) made' progress w)
      (Troubled origin) := by
  apply stages_cons_meets _ _ _ _
    (announce_early_hears hQuiet .contextInitialized rfl (by decide) made)
  intro made
  apply stages_cons_meets _ _ _ _ (announce_contextLoaded_hears hQuiet made)
  intro made
  apply Stage.Meets.of_exists
  intro handed hHanded
  refine Stage.Meets.weaken ?_ fun made' progress w h => ⟨handed, hHanded, h⟩
  apply stages_cons_meets _ _ _ _ (refresh_hears hQuiet made)
  intro made
  apply stages_cons_meets _ _ _ _ (announce_late_hears hQuiet .started rfl (.inl rfl) made)
  intro made
  apply stages_cons_meets _ _ _ _ (announce_late_hears hQuiet .running rfl (.inr rfl) made)
  intro made
  exact stages_nil_meets ..

end LaunchStep

end Startup
