import Startup.Proofs.Lifecycle.Underway

/-!
# The stages of a launch

Each stage of a launch leads from one set of announced phases to the next, and wherever a stage
fails, the phases so far are some of the successes.
-/

namespace Startup

variable {σ : Type}

section

variable (scope : Scope) (application : Application σ) (origin : World σ)

/-- The run has announced the phases, and has the context or none. -/
def At (reached : List Phase) (context : Option ContextId) : Stage.Assertion σ :=
  fun progress w =>
    Underway scope application origin reached progress w ∧ progress.context = context

/-- A stage has failed after some of the successes, and not because a phase was out of turn. -/
def Breaking (error : RunError) : Stage.Assertion σ :=
  fun progress w => (∀ previous attempted, error ≠ .invalidTransition previous attempted) ∧
    ∃ reached, reached ≠ [] ∧ reached <+: Phase.successes ∧
      Underway scope application origin reached progress w

end

/-- Whether all that a run calls is within a scope, except that initializers may refresh and close
what they like. -/
structure Application.Within (scope : Scope) (directory : Directory σ)
    (application : Application σ) : Prop where
  directory : directory.Within scope
  sends : ∀ kind, kind ≠ .run .failed → scope.Sends kind
  initializers : ∀ initializer ∈ application.initializers, ∀ id,
    (initializer id).Within scope.opened

theorem Application.within_full (directory : Directory σ) (application : Application σ) :
    application.Within .full directory :=
  ⟨directory.within_full, fun kind _ => Scope.full_sends kind,
    fun _ _ _ => (Program.within_full _).opened⟩

variable {scope : Scope} {application : Application σ} {origin : World σ} {reached : List Phase}
  {context : Option ContextId} {directory : Directory σ} {depth : Nat}

theorem Environment.prepare_inv (scope : Scope) {defaults : List (String × String)}
    {system : Option (List (String × String))} {arguments : List String} {w w' : World σ}
    {answer : Except SetupError Environment}
    (h : Environment.prepare defaults system arguments w = some (answer, w')) :
    (∃ error, answer = .error error ∧ w' = w) ∨
      ∃ environment count profiles w₁, answer = .ok environment ∧ World.Path scope w w₁ ∧
        w' = w₁.note (.preparedEnvironment count profiles) := by
  rw [Environment.prepare] at h
  cases hPrepared : Properties.prepare defaults system arguments with
  | error error =>
    rw [hPrepared] at h
    cases h
    exact .inl ⟨error, rfl, rfl⟩
  | ok properties =>
    rw [hPrepared] at h
    obtain ⟨store, w₁, hStore, hRest⟩ := Act.bind_inv h
    obtain ⟨_, w₂, hWrite, hPure⟩ := Act.bind_inv hRest
    cases Act.write_inv hWrite
    cases hPure
    exact .inr ⟨_, _, _, w₁, rfl, Act.within_addStore properties hStore, rfl⟩

theorem prepare_meets (hReached : reached ≠ [] ∧ reached <+: Phase.successes)
    (defaults : List (String × String)) (system : Option (List (String × String)))
    (arguments : List String) :
    Stage.Meets (At scope application origin reached context)
      (.attempt .setup (Environment.prepare defaults system arguments))
      (fun _ => At scope application origin reached context)
      (Breaking scope application origin) := by
  apply Stage.Meets.attempt
  · rintro progress w environment w' ⟨hUnderway, hContext⟩ hAct
    rcases Environment.prepare_inv scope hAct with ⟨_, hError, -⟩ | ⟨_, _, _, w₁, -, hPath, rfl⟩
    · cases hError
    · exact ⟨(hUnderway.within hPath).note _ rfl rfl, hContext⟩
  · rintro progress w error w' ⟨hUnderway, -⟩ hAct
    refine ⟨fun _ _ => nofun, reached, hReached.1, hReached.2, ?_⟩
    rcases Environment.prepare_inv scope hAct with ⟨_, -, rfl⟩ | ⟨_, _, _, _, hOk, -⟩
    · exact hUnderway
    · cases hOk

theorem settings_meets (hReached : reached ≠ [] ∧ reached <+: Phase.successes)
    (environment : Environment) :
    Stage.Meets (At scope application origin reached context)
      (.attempt .setup do return (← Act.properties environment.store).settings)
      (fun _ => At scope application origin reached context)
      (Breaking scope application origin) := by
  apply Stage.Meets.attempt
  · rintro progress w settings w' hAt hAct
    obtain ⟨properties, w₁, hRead, hPure⟩ := Act.bind_inv hAct
    obtain ⟨-, rfl⟩ := Act.properties_inv hRead
    obtain ⟨-, rfl⟩ := Act.pure_inv hPure
    exact hAt
  · rintro progress w error w' ⟨hUnderway, -⟩ hAct
    obtain ⟨properties, w₁, hRead, hPure⟩ := Act.bind_inv hAct
    obtain ⟨-, rfl⟩ := Act.properties_inv hRead
    obtain ⟨-, rfl⟩ := Act.pure_inv hPure
    exact ⟨fun _ _ => nofun, reached, hReached.1, hReached.2, hUnderway⟩

theorem createContext_meets (hLoaded : .contextLoaded ∉ reached) (hStarted : .started ∉ reached)
    (host : Host σ) (settings : MainSettings) (environment : Environment) :
    Stage.Meets (At scope application origin reached none)
      (.createContext host application settings environment)
      (fun id progress w => id = origin.next ∧
        At scope application origin reached (some origin.next) progress w)
      (Breaking scope application origin) := by
  rintro progress w outcome progress' w' ⟨hUnderway, hNone⟩ hRun
  obtain ⟨made, -, hEmpty, hMade⟩ :=
    Stage.createContext_apply host application settings environment progress w
  rw [hMade] at hRun
  cases hRun
  have hNext : (⟨w.contexts.length⟩ : ContextId) = origin.next :=
    congrArg ContextId.mk (hUnderway.unmade hNone)
  have hChronicle : Chronicle scope origin reached (w.adding made) :=
    ⟨hUnderway.grown, hUnderway.notes, hUnderway.phases⟩
  have hMaking : Making origin (some ⟨w.contexts.length⟩) (w.adding made) := by
    refine ⟨nofun, ?_⟩
    rintro id ⟨⟩
    refine ⟨hNext, made, w.context?_adding made, ?_⟩
    rw [hEmpty]
    exact nofun
  have hAdded : Underway scope application origin reached
      { progress with context := some ⟨w.contexts.length⟩ } (w.adding made) :=
    ⟨hChronicle, hMaking, hUnderway.last, hUnderway.app, hUnderway.known,
      fun h => absurd h hLoaded, fun h => absurd h hStarted⟩
  exact ⟨hNext, hAdded.note _ rfl rfl, congrArg some hNext⟩

section

variable (hDirectory : directory.Within scope)
include hDirectory

theorem initializer_meets (hReached : reached ≠ [] ∧ reached <+: Phase.successes)
    (hStarted : .started ∉ reached) {program : Program σ (Except Cause Unit)}
    (hProgram : program.Within scope.opened) :
    Stage.Meets (At scope application origin reached context)
      (.attempt .startupFailed ((Host.ofDepth directory depth).perform program))
      (fun _ => At scope application origin reached context)
      (Breaking scope application origin) := by
  have hHost := Host.ofDepth_within hDirectory.opened depth
  have hKeep {progress : Progress σ} {w w' : World σ}
      (hUnderway : Underway scope application origin reached progress w)
      (hPath : World.Path scope.opened w w') :
      Underway scope application origin reached progress w' :=
    hUnderway.path hPath (fun _ => id) fun h => absurd h hStarted
  apply Stage.Meets.attempt
  · rintro progress w _ w' ⟨hUnderway, hContext⟩ hAct
    exact ⟨hKeep hUnderway (hHost.perform _ hProgram hAct), hContext⟩
  · rintro progress w cause w' ⟨hUnderway, -⟩ hAct
    exact ⟨fun _ _ => nofun, reached, hReached.1, hReached.2,
      hKeep hUnderway (hHost.perform _ hProgram hAct)⟩

theorem refresh_meets (hReached : reached ≠ [] ∧ reached <+: Phase.successes)
    (hStarted : .started ∉ reached) (hSends : scope.Sends (.context .refreshed)) :
    Stage.Meets (At scope application origin reached (some origin.next))
      (.attempt .delivery (origin.next.refresh (Host.ofDepth directory depth)))
      (fun _ progress w =>
        At scope application origin reached (some origin.next) progress w ∧
          (¬ scope.governs origin.next → w.stateOf origin.next = some .active))
      (Breaking scope application origin) := by
  have hHost := Host.ofDepth_within hDirectory depth
  have hOpened := Host.ofDepth_within hDirectory.opened depth
  have hKeep {progress : Progress σ} {w w' : World σ} {outcome : Except DeliveryError Unit}
      (hUnderway : Underway scope application origin reached progress w)
      (hAct : origin.next.refresh (Host.ofDepth directory depth) w = some (outcome, w')) :
      Underway scope application origin reached progress w' :=
    hUnderway.path (ContextId.refresh_within hOpened trivial hSends.opened hAct) (fun _ => id)
      fun h => absurd h hStarted
  apply Stage.Meets.attempt
  · rintro progress w _ w' ⟨hUnderway, hContext⟩ hAct
    refine ⟨⟨hKeep hUnderway hAct, hContext⟩, ?_⟩
    intro hSpared
    cases ContextId.refreshing_of_refresh hAct with
    | @succeeded held after w₁ hHeld hState hPublish hAfter =>
      have hSent : scope.Sends (ContextId.refreshedEvent held).kind := hSends
      have hPath := ContextId.publish_within hHost origin.next hSent hPublish
      rw [World.stateOf_note, hPath.stateOf_eq hSpared, World.stateOf_setState, if_pos rfl,
        ContextId.stateOf_of_context? hHeld]
      rfl
  · rintro progress w error w' ⟨hUnderway, -⟩ hAct
    exact ⟨fun _ _ => nofun, reached, hReached.1, hReached.2, hKeep hUnderway hAct⟩

/-- A phase in its turn leads from one set of phases to the next. Before `started` the context has
to be active, unless listeners may close it. -/
theorem announce_meets (hSends : ∀ kind, kind ≠ .run .failed → scope.Sends kind)
    {before : Stage.Assertion σ} {payload : RunPayload} (phase : Phase)
    (hPayload : payload.phase = phase) (hNext : phase.Follows reached)
    (hLoaded : phase = .contextLoaded →
      payload = .contextLoaded (.managed origin.next) ∧ context = some origin.next)
    (hBefore : ∀ progress w, before progress w →
      At scope application origin reached context progress w ∧ (phase = .started →
        ¬ scope.governs origin.next → w.stateOf origin.next = some .active)) :
    Stage.Meets before (.announce (Host.ofDepth directory depth) payload)
      (fun _ => At scope application origin (reached ++ [phase]) context)
      (Breaking scope application origin) := by
  obtain ⟨hPrefix, hTurn, hPhase⟩ := hNext
  subst hPayload
  have hHost := Host.ofDepth_within hDirectory depth
  have hSent := hSends (.run payload.phase) fun h => hPhase (EventKind.run.inj h)
  intro progress w outcome progress' w' hHolds hRun
  obtain ⟨⟨hUnderway, hContext⟩, hStarted⟩ := hBefore progress w hHolds
  obtain ⟨publisher, hAnnounce, rfl⟩ := Stage.announce_inv hRun
  obtain ⟨hAnnounced, hError⟩ := hUnderway.announce hHost payload hSent hPhase hTurn
    (fun h => ⟨(hLoaded h).1, hContext.trans (hLoaded h).2⟩) hStarted hAnnounce
  cases outcome with
  | ok _ => exact ⟨hAnnounced, hContext⟩
  | error error =>
    obtain ⟨inner, rfl⟩ := hError error rfl
    exact ⟨fun _ _ => nofun, _, List.append_ne_nil_of_right_ne_nil _ (List.cons_ne_nil _ _),
      hPrefix, hAnnounced⟩

theorem announce_plain_meets (hSends : ∀ kind, kind ≠ .run .failed → scope.Sends kind)
    {payload : RunPayload} (phase : Phase) (hPayload : payload.phase = phase)
    (hNext : phase.Follows reached) (hPlain : phase ≠ .contextLoaded ∧ phase ≠ .started) :
    Stage.Meets (At scope application origin reached context)
      (.announce (Host.ofDepth directory depth) payload)
      (fun _ => At scope application origin (reached ++ [phase]) context)
      (Breaking scope application origin) :=
  announce_meets hDirectory hSends phase hPayload hNext (absurd · hPlain.1)
    fun _ _ h => ⟨h, (absurd · hPlain.2)⟩

end

theorem launch_meets (hWithin : application.Within scope directory)
    (system : List (String × String)) (arguments : List String) :
    Stage.Meets (At scope application origin [.starting] none)
      (application.launch (Host.ofDepth directory depth) system arguments)
      (fun result progress w => result.1 = origin.next ∧
        At scope application origin Phase.successes (some origin.next) progress w)
      (Breaking scope application origin) := by
  obtain ⟨hDirectory, hSends, hInitializers⟩ := hWithin
  refine (prepare_meets (by decide) _ _ _).bind fun environment => ?_
  refine (announce_plain_meets hDirectory hSends .environmentPrepared rfl (by decide)
    (by decide)).bind fun _ => ?_
  refine (settings_meets (by decide) environment).bind fun settings => ?_
  refine (createContext_meets (by decide) (by decide) _ settings environment).bind fun id => ?_
  refine Stage.Meets.of_fact ?_
  rintro rfl
  refine (Stage.Meets.forM application.initializers fun initializer hMem =>
    initializer_meets hDirectory (by decide) (by decide)
      (hInitializers initializer hMem _)).bind fun _ => ?_
  refine (announce_plain_meets hDirectory hSends .contextInitialized rfl (by decide)
    (by decide)).bind fun _ => ?_
  refine (announce_meets hDirectory hSends .contextLoaded rfl (by decide) (fun _ => ⟨rfl, rfl⟩)
    fun _ _ h => ⟨h, nofun⟩).bind fun _ => ?_
  refine (refresh_meets hDirectory (by decide) (by decide) (hSends _ nofun)).bind fun _ => ?_
  refine (announce_meets hDirectory hSends .started rfl (by decide) nofun
    fun _ _ h => ⟨h.1, fun _ => h.2⟩).bind fun _ => ?_
  refine (announce_plain_meets hDirectory hSends .running rfl (by decide)
    (by decide)).bind fun _ => ?_
  exact Stage.Meets.pure fun _ _ h => ⟨rfl, h⟩

end Startup
