import Startup.Proofs.Effect.Broadcast
import Startup.Proofs.Lifecycle.FirstError

/-!
# What the error of a run says

An error that encloses a cause says all of it: its text is its own words and then every link of the
cause, at any depth of errors in causes of errors. The error of a failed run says in this way what
the listener or the initializer reported that failed it, or what else the failing step ran into.
-/

namespace Startup

theorem Text.joined_cons {separator first : String} {rest : List String} (h : rest ≠ []) :
    joined separator (first :: rest) = first ++ separator ++ joined separator rest :=
  String.intercalate_cons_of_ne_nil h

mutual

/-- Everything that is said, outermost first, where an enclosed error is not one link but all that
it says itself. -/
def Cause.words : Cause → List String
  | .plain text => [text]
  | .within context inner => context :: inner.words
  | .delivery error => error.words
  | .setup error => [error.message]
  | .run error => error.words

def DeliveryError.words : DeliveryError → List String
  | .listenerFailed listener event cause =>
    ("Listener '" ++ listener ++ "' failed handling " ++ event.name) :: cause.words
  | .contextInactive context event => [(DeliveryError.contextInactive context event).message]
  | .invalidState context operation state =>
    [(DeliveryError.invalidState context operation state).message]

def RunError.words : RunError → List String
  | .invalidTransition previous attempted =>
    [(RunError.invalidTransition previous attempted).message]
  | .delivery error => error.words
  | .setup error => [error.message]
  | .startupFailed cause => "Application startup failed" :: cause.words

end

mutual

theorem Cause.words_ne_nil (cause : Cause) : cause.words ≠ [] := by
  cases cause with
  | plain text => exact List.cons_ne_nil _ _
  | within context inner => exact List.cons_ne_nil _ _
  | delivery error => exact error.words_ne_nil
  | setup error => exact List.cons_ne_nil _ _
  | run error => exact error.words_ne_nil

theorem DeliveryError.words_ne_nil (error : DeliveryError) : error.words ≠ [] := by
  cases error <;> exact List.cons_ne_nil _ _

theorem RunError.words_ne_nil (error : RunError) : error.words ≠ [] := by
  cases error with
  | delivery error => exact error.words_ne_nil
  | _ => exact List.cons_ne_nil _ _

end

mutual

theorem Cause.text_eq_words (cause : Cause) : cause.text = Text.joined ": " cause.words := by
  cases cause with
  | plain text => rfl
  | within context inner =>
    rw [Cause.text, Cause.chain, Cause.words, Text.joined_cons inner.chain_ne_nil,
      Text.joined_cons inner.words_ne_nil]
    exact congrArg _ inner.text_eq_words
  | delivery error =>
    rw [Cause.text, Cause.chain, Cause.words, ← error.message_eq_words]
    exact String.intercalate_singleton
  | setup error => rfl
  | run error =>
    rw [Cause.text, Cause.chain, Cause.words, ← error.message_eq_words]
    exact String.intercalate_singleton

theorem DeliveryError.message_eq_words (error : DeliveryError) :
    error.message = Text.joined ": " error.words := by
  cases error with
  | listenerFailed listener event cause =>
    rw [DeliveryError.message, DeliveryError.words, Text.joined_cons cause.words_ne_nil,
      ← cause.text_eq_words, Cause.text]
  | contextInactive context event => exact String.intercalate_singleton.symm
  | invalidState context operation state => exact String.intercalate_singleton.symm

theorem RunError.message_eq_words (error : RunError) :
    error.message = Text.joined ": " error.words := by
  cases error with
  | invalidTransition previous attempted => exact String.intercalate_singleton.symm
  | delivery error => exact error.message_eq_words
  | setup error => exact String.intercalate_singleton.symm
  | startupFailed cause =>
    have hLead : "Application startup failed: " = "Application startup failed" ++ ": " := by
      decide +kernel
    have hMessage : (RunError.startupFailed cause).message =
        "Application startup failed: " ++ cause.text := rfl
    rw [hMessage, RunError.words, Text.joined_cons cause.words_ne_nil, ← cause.text_eq_words]
    exact congrArg (fun lead => lead ++ cause.text) hLead

end

variable {σ : Type} {host : Host σ} {application : Application σ} {directory : Directory σ}
  {depth : Nat} {system : List (String × String)} {arguments : List String} {event : Event}
  {w w' : World σ}

namespace Host

/-- A listener fails an event between two worlds: what it was asked, in which world, and what it
answered. -/
structure Failure (host : Host σ) (event : Event) (w w' : World σ) where
  origin : Origin
  registration : Registration
  accepts : registration.accepts event.kind
  cause : Cause
  asked : World σ
  answered : World σ
  before : w.journal <+: asked.journal
  perform_eq : host.perform ((host.listener registration.listener).onEvent event)
    (asked.note (.invoking origin registration.listener registration.name event.kind)) =
      some (.error cause, answered)
  after : answered.journal <+: w'.journal

namespace Failure

def error (failure : host.Failure event w w') : DeliveryError :=
  .listenerFailed failure.registration.name event.kind failure.cause

def extend {v v' : World σ} (failure : host.Failure event v v')
    (hBefore : w.journal <+: v.journal) (hAfter : v'.journal <+: w'.journal) :
    host.Failure event w w' :=
  { failure with before := hBefore.trans failure.before, after := failure.after.trans hAfter }

end Failure

theorem failure_of_invokeAll (hHost : host.Within .full) {origin : Origin}
    {registrations : List Registration} {error : DeliveryError}
    (hAccepts : ∀ r ∈ registrations, r.accepts event.kind)
    (h : host.invokeAll origin .propagate event registrations 0 w = some (.error error, w')) :
    ∃ failure : host.Failure event w w', error = failure.error := by
  generalize hOutcome : Except.error error = outcome at h
  cases invokeAll_eq_some_iff.mp h with
  | complete hTurns => cases hOutcome
  | @ended before after r error _ v _ hTurns hTurn =>
    cases hOutcome
    have hPath : World.Path .full w v :=
      invokeAll_within hHost (propagate_within (Scope.full_sends event.kind).failed) before 0
        (fun _ _ => rfl) (invokeAll_ok_iff.mpr ⟨rfl, hTurns⟩)
    have hAccepted := hAccepts r (List.mem_append_right _ List.mem_cons_self)
    cases hTurn with
    | judged hPerform hStrategy =>
      cases hStrategy
      exact ⟨⟨origin, r, hAccepted, _, v, _, hPath.journal_grows, hPerform,
        List.prefix_append _ _⟩, rfl⟩

end Host

theorem Publisher.failure_of_broadcast (hHost : host.Within .full) {multicaster : Multicaster}
    {error : DeliveryError}
    (h : broadcast host .propagate multicaster event w = some (.error error, w')) :
    ∃ failure : host.Failure event w w', error = failure.error := by
  obtain ⟨answer, v, hBroadcast, hPure⟩ := Act.bind_inv h
  rw [Host.broadcast_apply] at hBroadcast
  cases answer with
  | ok count => cases hPure
  | error error =>
    cases hPure
    obtain ⟨failure, rfl⟩ := Host.failure_of_invokeAll hHost
      (fun r hr => (Multicaster.mem_matching.mp hr).2) hBroadcast
    exact ⟨failure.extend (List.prefix_append _ _) List.prefix_rfl, rfl⟩

namespace ContextId

variable {id : ContextId} {error : DeliveryError}

theorem failure_of_publish (hHost : host.Within .full)
    (h : id.publish host event w = some (.error error, w')) :
    (∃ context, w.context? id = some context ∧ context.state ≠ .active ∧
      error = .contextInactive context.identity.full event.kind) ∨
    ∃ failure : host.Failure event w w', error = failure.error := by
  generalize hOutcome : Except.error error = outcome at h
  cases publishing_of_publish h with
  | rejected hContext hState =>
    cases hOutcome
    exact .inl ⟨_, hContext, hState, rfl⟩
  | delivered hContext hState hDeliver =>
    subst hOutcome
    obtain ⟨answer, v, hInvoke, hPure⟩ := Act.bind_inv hDeliver
    cases answer with
    | ok count => cases hPure
    | error error =>
      cases hPure
      obtain ⟨failure, rfl⟩ := Host.failure_of_invokeAll hHost
        (fun r hr => (Multicaster.mem_matching.mp hr).2) hInvoke
      exact .inr ⟨failure.extend (List.prefix_append _ _) List.prefix_rfl, rfl⟩

theorem failure_of_refresh (hHost : host.Within .full)
    (h : id.refresh host w = some (.error error, w')) :
    ∃ context, w.context? id = some context ∧
      (context.state ≠ .created ∧
          error = .invalidState context.identity.full refreshOperation context.state.name ∨
        ∃ failure : host.Failure (refreshedEvent context) w w', error = failure.error) := by
  generalize hOutcome : Except.error error = outcome at h
  cases refreshing_of_refresh h with
  | rejected hContext hState =>
    cases hOutcome
    exact ⟨_, hContext, .inl ⟨hState, rfl⟩⟩
  | succeeded _ _ _ _ => cases hOutcome
  | @failed context _ w₁ hContext hState hPublish =>
    cases hOutcome
    refine ⟨context, hContext, .inr ?_⟩
    rcases failure_of_publish hHost hPublish with ⟨held, hHeld, hInactive, -⟩ | ⟨failure, rfl⟩
    · rw [World.setState, World.context?_modifyContext, if_pos rfl, hContext] at hHeld
      cases hHeld
      exact absurd rfl hInactive
    · exact ⟨failure.extend List.prefix_rfl (List.prefix_append _ _), rfl⟩

end ContextId

namespace LaunchStep

/-- The event that a step sends to listeners. -/
def kind? : LaunchStep σ → Option EventKind
  | .announce phase => some (.run phase)
  | .refresh => some (.context .refreshed)
  | _ => none

/-- Why a step fails. -/
inductive Reason (host : Host σ) (made : Made) (w w' : World σ) : LaunchStep σ → RunError → Prop
  | listener {step : LaunchStep σ} {event : Event} (hKind : step.kind? = some event.kind)
      (failure : host.Failure event w w') : Reason host made w w' step (.delivery failure.error)
  | initializer {program : ContextId → Program σ (Except Cause Unit)} {context : ContextId}
      {cause : Cause} (hContext : made.context = some context)
      (hPerform : host.perform (program context) w = some (.error cause, w')) :
      Reason host made w w' (.initializer program) (.startupFailed cause)
  | unprepared {error : SetupError} : Reason host made w w' .prepare (.setup error)
  | unbound {error : SetupError} : Reason host made w w' .bind (.setup error)
  | inactive {phase : Phase} {identity : String} :
      Reason host made w w' (.announce phase) (.delivery (.contextInactive identity (.run phase)))
  | refused {identity state : String} : Reason host made w w' .refresh
      (.delivery (.invalidState identity ContextId.refreshOperation state))

variable {made : Made} {progress : Progress σ} {step : LaunchStep σ} {error : RunError}

section

variable {phase : Phase} {payload : RunPayload} {p q : Publisher σ} {error : DeliveryError}
  {v : World σ}

theorem reason_of_failure (hPayload : made.payload? phase = some payload)
    (hBefore : w.journal <+: v.journal) (failure : host.Failure (p.event payload) v w') :
    Reason host made w w' (.announce phase) (.delivery failure.error) := by
  have hKind : (LaunchStep.announce phase : LaunchStep σ).kind? = some (p.event payload).kind :=
    congrArg (fun phase => some (EventKind.run phase)) (Made.phase_of_payload? hPayload).symm
  exact .listener hKind (failure.extend hBefore List.prefix_rfl)

theorem reason_of_broadcast (hHost : host.Within .full) {multicaster : Multicaster}
    (hPayload : made.payload? phase = some payload) (hBefore : w.journal <+: v.journal)
    (h : Publisher.broadcast host .propagate multicaster (p.event payload) v =
      some (.error error, w')) :
    Reason host made w w' (.announce phase) (.delivery error) := by
  obtain ⟨failure, rfl⟩ := Publisher.failure_of_broadcast hHost h
  exact reason_of_failure hPayload hBefore failure

theorem reason_of_publish (hHost : host.Within .full) {id : ContextId}
    (hPayload : made.payload? phase = some payload) (hBefore : w.journal <+: v.journal)
    (h : id.publish host (p.event payload) v = some (.error error, w')) :
    Reason host made w w' (.announce phase) (.delivery error) := by
  rcases ContextId.failure_of_publish hHost h with ⟨context, -, -, rfl⟩ | ⟨failure, rfl⟩
  · have hKind : (p.event payload).kind = .run phase :=
      congrArg EventKind.run (Made.phase_of_payload? hPayload)
    rw [hKind]
    exact .inactive
  · exact reason_of_failure hPayload hBefore failure

theorem reason_of_deliver (hHost : host.Within .full) {multicaster : Multicaster}
    (hPayload : made.payload? phase = some payload) (hBefore : w.journal <+: v.journal)
    (h : q.deliver host (p.event payload) payload v = some ((.error error, multicaster), w')) :
    Reason host made w w' (.announce phase) (.delivery error) := by
  cases phase with
  | failed => cases hPayload
  | starting =>
    cases hPayload
    obtain ⟨_, _, hBroadcast, hPure⟩ := Act.bind_inv h
    cases hPure
    exact reason_of_broadcast hHost rfl hBefore hBroadcast
  | environmentPrepared | contextInitialized =>
    obtain ⟨_, -, rfl⟩ := Option.map_eq_some_iff.mp hPayload
    obtain ⟨_, _, hBroadcast, hPure⟩ := Act.bind_inv h
    cases hPure
    exact reason_of_broadcast hHost hPayload hBefore hBroadcast
  | contextLoaded =>
    obtain ⟨id, -, rfl⟩ := Option.map_eq_some_iff.mp hPayload
    obtain ⟨_, _, hHandOver, hRest⟩ := Act.bind_inv h
    obtain ⟨_, _, hIdentity, hRest⟩ := Act.bind_inv hRest
    obtain ⟨_, _, hWrite, hRest⟩ := Act.bind_inv hRest
    cases Act.write_inv hWrite
    obtain ⟨_, _, hBroadcast, hPure⟩ := Act.bind_inv hRest
    cases hPure
    have hGiven : World.Path .full v _ := Publisher.handOver_within hHost _ _ hHandOver
    have hNamed : World.Path .full _ _ := (ContextRef.managed id).identity_within host hIdentity
    have hPrepared := hBefore.trans (hGiven.trans hNamed).journal_grows
    exact reason_of_broadcast hHost hPayload (hPrepared.trans (List.prefix_append _ _)) hBroadcast
  | started | running =>
    obtain ⟨id, -, rfl⟩ := Option.map_eq_some_iff.mp hPayload
    obtain ⟨_, _, hPublish, hPure⟩ := Act.bind_inv h
    cases hPure
    exact reason_of_publish hHost hPayload hBefore hPublish

end

theorem Fails.reason (hHost : host.Within .full)
    (h : Fails host application system arguments made progress w step error w') :
    Reason host made w w' step error := by
  cases h with
  | prepare hPrepare => exact .unprepared
  | bind hEnvironment hStore hSettings => exact .unbound
  | initializer hContext hPerform => exact .initializer hContext hPerform
  | refresh hContext hRefresh =>
    obtain ⟨context, -, ⟨-, rfl⟩ | ⟨failure, rfl⟩⟩ := ContextId.failure_of_refresh hHost hRefresh
    · exact .refused
    · exact .listener rfl failure
  | @announce phase payload error publisher _ hPayload hAnnounce =>
    generalize hAnswer : (Except.error (RunError.delivery error), publisher) = answer at hAnnounce
    cases Publisher.announcing_of_announce hAnnounce with
    | refused hAdmits => cases hAnswer
    | @delivered outcome multicaster _ hAdmits hDeliver =>
      cases outcome with
      | ok _ => cases hAnswer
      | error error =>
        cases hAnswer
        exact reason_of_deliver hHost hPayload (List.prefix_append _ _) hDeliver

end LaunchStep

namespace Application.FailedRun

/-- The error of a run that failed after its start says the lead of such a failure and then all
that failed it: of a listener its name, the event and every link of its report, which is what the
error of the step says, and of an initializer every link of its report alone. -/
theorem error_says_all {publisher : Publisher σ} {started : World σ} {error : RunError}
    (hStart : application.start (Host.ofDepth directory depth) arguments w =
      some ((.ok (), publisher), started))
    (h : application.run (Host.ofDepth directory depth) system arguments w =
      some (.error error, w')) :
    ∃ (f : FailedRun (Host.ofDepth directory depth) application system arguments w)
      (blame : f.Blame), f.ended = w' ∧ error = .startupFailed f.error.toCause ∧
        LaunchStep.Reason (Host.ofDepth directory depth) blame.made blame.reached f.launched
          blame.step f.error ∧
        error.message = Text.joined ": " ("Application startup failed" :: f.error.toCause.words) ∧
        (∀ name kind cause, f.error = .delivery (.listenerFailed name kind cause) →
          error.message = "Application startup failed: " ++ ("Listener '" ++ name ++
            "' failed handling " ++ kind.name ++ ": " ++ Text.joined ": " cause.chain) ∧
          error.message = "Application startup failed: " ++ f.error.message ∧
          f.error.toCause.chain = [f.error.message]) ∧
        (∀ cause, f.error = .startupFailed cause →
          error.message = "Application startup failed: " ++ Text.joined ": " cause.chain) ∧
        ∀ root contexts, f.error = .startupFailed (.ofTexts root contexts) →
          error.message =
            "Application startup failed: " ++ Text.joined ": " (contexts.reverse ++ [root]) := by
  cases running_of_run h with
  | unstarted hUnstarted => cases hStart.symm.trans hUnstarted
  | failed f =>
    have hHost := Host.ofDepth_within directory.within_full depth
    obtain ⟨hTurn, -⟩ := f.breaking (within_full directory _)
    obtain ⟨blame⟩ := f.blame hTurn
    have hInitializer : ∀ cause, f.error = .startupFailed cause →
        (RunError.startupFailed f.error.toCause).message =
          "Application startup failed: " ++ Text.joined ": " cause.chain := by
      intro cause hError
      rw [hError]
      rfl
    refine ⟨f, blame, rfl, rfl, blame.fails.reason hHost, RunError.message_eq_words _, ?_,
      hInitializer, ?_⟩
    · intro name kind cause hError
      -- the error of the step is the only link of its cause
      have hChain : f.error.toCause.chain = [f.error.message] := by
        rw [hError]
        rfl
      have hText : f.error.toCause.text = f.error.message := by
        rw [Cause.text, hChain]
        exact String.intercalate_singleton
      have hMessage : (RunError.startupFailed f.error.toCause).message =
          "Application startup failed: " ++ f.error.message :=
        congrArg (fun text => "Application startup failed: " ++ text) hText
      refine ⟨?_, hMessage, hChain⟩
      rw [hMessage, hError]
      rfl
    · intro root contexts hError
      rw [← Cause.chain_ofTexts]
      exact hInitializer _ hError

/-- A listener that reports a failure to initialize in three links. -/
def eloquent : Directory Unit :=
  { (default : Directory Unit) with
    listener := fun _ =>
      { (default : Listener Unit) with
        onEvent := fun event =>
          .done (if event.kind = .run .contextInitialized then
            .error (.ofTexts "root" ["inner", "outer"]) else .ok ()) } }

def fluent : Application Unit :=
  (plain : Application Unit).addListener ⟨0⟩

theorem error_says_all_eloquent :
    ∃ error w', fluent.run (Host.ofDepth eloquent 2) [] [] default = some (.error error, w') ∧
      error.message = "Application startup failed: " ++ ("Listener '" ++ "listener" ++
        "' failed handling " ++ "ContextInitialized" ++ ": " ++
          Text.joined ": " ["outer", "inner", "root"]) := by
  obtain ⟨⟨⟨outcome, publisher⟩, started⟩, hStart, hStarted⟩ := (Option.any_eq_true _ _).mp
    (show (fluent.start (Host.ofDepth eloquent 2) [] default).any fun result =>
      result.1.1.isOk by decide +kernel)
  obtain ⟨⟨answer, w'⟩, hRun, hFacts⟩ := (Option.any_eq_true _ _).mp
    (show (fluent.run (Host.ofDepth eloquent 2) [] [] default).any fun result =>
      match result.1 with
      | .error (.startupFailed (.run (.delivery (.listenerFailed name kind cause)))) =>
        decide (name = "listener" ∧ kind = .run .contextInitialized ∧
          cause.chain = ["outer", "inner", "root"])
      | _ => false by decide +kernel)
  cases outcome with
  | error _ => cases hStarted
  | ok _ =>
    dsimp only at hFacts
    split at hFacts
    · rename_i name kind cause
      obtain ⟨rfl, rfl, hChain⟩ := of_decide_eq_true hFacts
      obtain ⟨f, blame, rfl, hAnswer, hReason, -, hListener, -⟩ := error_says_all hStart hRun
      have hCause := RunError.startupFailed.inj hAnswer
      have hError : f.error = .delivery (.listenerFailed "listener" (.run .contextInitialized)
          cause) := by
        generalize f.error = failed at hCause hReason
        cases failed with
        | startupFailed inner =>
          -- the plan has no initializer that could have reported it
          generalize hStep : blame.step = step at hReason
          cases hReason
          have hMem : blame.step ∈ fluent.plan := by
            rw [blame.plan_eq]
            exact List.mem_append_right _ List.mem_cons_self
          simp [hStep, fluent, addListener, Application.plain, plan, opening, conclusion] at hMem
        | delivery error =>
          cases hCause
          rfl
        | _ => cases hCause
      refine ⟨_, _, hRun, ?_⟩
      rw [← hChain]
      exact (hListener _ _ _ hError).1
    · cases hFacts

end Application.FailedRun

end Startup
