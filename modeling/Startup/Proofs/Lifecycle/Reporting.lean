import Startup.Proofs.Lifecycle.Phases

/-!
# Who hears of a failure

A failure is delivered through the context if that is active, and the context holds the listeners
of the application only after `contextLoaded`. An initializer that activates the context before
that keeps the failure from them.
-/

namespace Startup

variable {σ : Type}

def Scope.hushed (listener : ListenerId) : Scope where
  governs _ := True
  notes entry := entry.isOfRun = false ∧
    ∀ origin name, entry ≠ .invoking origin listener name (.run .failed)
  routine entry h := ⟨isOfRun_of_isRoutine h, by rintro origin name rfl; cases h⟩
  modest _ h := h.1

theorem Scope.hushed_sends {listener : ListenerId} {kind : EventKind} (h : kind ≠ .run .failed) :
    (hushed listener).Sends kind where
  broadcasting _ _ := ⟨rfl, nofun⟩
  invoking _ _ _ := ⟨rfl, fun _ _ hEntry => h (Entry.invoking.inj hEntry).2.2.2⟩
  failed _ _ := ⟨rfl, nofun⟩

namespace Application

variable {application : Application σ} {directory : Directory σ} {depth : Nat}
  {system : List (String × String)} {arguments : List String} {w w' : World σ}

theorem within_hushed {listener : ListenerId} (hDirectory : directory.Within (.hushed listener))
    (hInitializers : ∀ initializer ∈ application.initializers, ∀ id,
      (initializer id).Within (.hushed listener)) :
    application.Within (.hushed listener) directory where
  directory := hDirectory
  sends _ hKind := Scope.hushed_sends hKind
  initializers := hInitializers

namespace FailedRun

/-- The context is active where the failure is announced, and does not have the listener. -/
def Misses {host : Host σ} (f : FailedRun host application system arguments w)
    (listener : ListenerId) : Prop :=
  ∃ id, f.progress.context = some id ∧ f.launched.stateOf id = some .active ∧
    ¬ f.launched.Holds id listener

variable {f : FailedRun (Host.ofDepth directory depth) application system arguments w}
  {listener : ListenerId}

theorem not_contextLoaded_of_misses (hListener : listener ∈ application.listeners)
    (hMisses : f.Misses listener) : .contextLoaded ∉ Entry.phases (f.ended.since w) := by
  obtain ⟨reached, -, -, hUnderway, hChronicle⟩ := f.chronicle_full
  obtain ⟨id, hContext, -, hHolds⟩ := hMisses
  obtain ⟨rfl, -⟩ := hUnderway.made id hContext
  rw [hChronicle.phases]
  intro hMem
  rcases List.mem_append.mp hMem with hLoaded | hFailed
  · exact hHolds (hUnderway.held hLoaded listener hListener)
  · cases List.mem_singleton.mp hFailed

theorem invoking_of_not_misses (hListener : listener ∈ application.listeners)
    (hWanted : ∀ r, .registered r ∈ f.ended.since w → r.listener = listener →
      r.accepts (.run .failed))
    (hFailed : ∀ name cause, .listenerFailed name (.run .failed) cause ∉ f.ended.since w)
    (hHeard : ¬ f.Misses listener) :
    ∃ origin name, .invoking origin listener name (.run .failed) ∈ f.ended.since w := by
  have hHost := Host.ofDepth_within directory.within_full depth
  have hSends : Scope.full.Sends f.event.kind := Scope.full_sends _
  obtain ⟨-, reached, -, -, hUnderway⟩ := f.breaking (within_full directory _)
  obtain ⟨outcome, multicaster, v, hDeliver, hRemarks⟩ := f.delivery
  obtain ⟨u, hClosed, hLast⟩ := f.ending directory.within_full (Scope.full_sends _)
  have hAnnounced : f.launched.journal <+: f.announced.journal :=
    (List.prefix_append _ _).trans (List.prefix_append _ _)
  have hPath := (Publisher.deliverFailure_within hHost _ _ hSends hDeliver).journal_grows
  have hEnd : v.journal <+: f.ended.journal :=
    hRemarks.journal_grows.trans (hClosed.journal_grows.trans hLast.journal_grows)
  have hLater {entry : Entry} : entry ∈ v.since f.announced → entry ∈ f.ended.since w :=
    World.mem_since_of_grows (hUnderway.grown.trans hAnnounced) hPath hEnd
  have hAccepts {r : Registration} (hr : .registered r ∈ f.launched.since w) :
      r.listener = listener → r.accepts (.run .failed) :=
    hWanted r (hUnderway.mem_since ((hAnnounced.trans hPath).trans hEnd) hr)
  rcases (Publisher.failureWay_of_deliverFailure hDeliver).invokes hHost hSends with
    ⟨id, held, hRef, hContext, hActive, hThrough⟩ | ⟨-, hDirect⟩
  · have hState : f.launched.stateOf id = some .active :=
      (ContextId.stateOf_of_context? hContext).trans (congrArg some hActive)
    obtain ⟨context, hSame, hHeld⟩ : f.launched.Holds id listener :=
      Classical.byContradiction fun hMissing => hHeard ⟨id, hRef, hState, hMissing⟩
    cases hContext.symm.trans hSame
    obtain ⟨r, hr, hEq⟩ := List.mem_map.mp hHeld
    obtain ⟨-, again, hAgain, hRegistered⟩ := hUnderway.made id hRef
    cases hContext.symm.trans hAgain
    -- through the context the first failure ends the delivery, but none is there
    rcases hThrough with ⟨name, cause, hMem⟩ | hAll
    · exact absurd (hLater hMem) (hFailed name cause)
    · have hInvoked := hAll r hr (hAccepts (hRegistered r hr) hEq)
      rw [hEq] at hInvoked
      exact ⟨_, _, hLater hInvoked⟩
  · obtain ⟨r, hr, hEq, hRegistered⟩ := hUnderway.known listener hListener
    have hInvoked := hDirect r hr (hAccepts hRegistered hEq)
    rw [hEq] at hInvoked
    exact ⟨_, _, hLater hInvoked⟩

/-- Who is missed does not hear of the failure from anyone, where only runs tell of failures. -/
theorem not_invoking_of_misses (hWithin : application.Within (.hushed listener) directory)
    (hMisses : f.Misses listener) (origin : Origin) (name : String) :
    .invoking origin listener name (.run .failed) ∉ f.ended.since w := by
  obtain ⟨id, hRef, hActive, hHolds⟩ := hMisses
  have hHost := Host.ofDepth_within hWithin.directory depth
  have hDelivered : ∀ answer v, Publisher.deliverFailure (Host.ofDepth directory depth)
      (f.progress.context.map .managed) f.progress.publisher.multicaster f.event f.announced =
        some (answer, v) → World.Path (.hushed listener) f.announced v := by
    rintro ⟨outcome, multicaster⟩ v hDeliver
    cases Publisher.failureWay_of_deliverFailure hDeliver with
    | @through other held _ _ hOther hContext _ hPublish =>
      cases hRef.symm.trans hOther
      -- only what the context has registered is invoked, and the listener is not among it
      have hNoted : World.Path (.hushed listener) f.announced
          (f.announced.note (.failedThroughContext held.identity.full)) :=
        .single_note _ (Scope.routine _ _ rfl) rfl
      refine hNoted.trans (ContextId.path_of_publish hHost ?_ ?_ ?_ hPublish)
      · exact fun _ => ⟨rfl, nofun⟩
      · exact fun _ _ => ⟨rfl, nofun⟩
      · intro context hHere r hr
        refine ⟨rfl, ?_⟩
        rintro origin name ⟨⟩
        exact hHolds ⟨context, hHere, List.mem_map_of_mem hr⟩
    | direct hInactive _ _ _ => exact absurd hActive (hInactive id hRef)
  obtain ⟨reached, -, -, -, hChronicle⟩ := f.chronicle hWithin hDelivered
  intro hMem
  rcases hChronicle.notes _ hMem with ⟨-, hOther⟩ | hRun
  · exact hOther origin name rfl
  · cases hRun

end FailedRun

/-- A failure reaches every listener of the application that accepts it, as long as no listener
fails on it, except the listeners that the context misses although it is active. No listener is
missed once `contextLoaded` was announced, and one that is missed hears nothing. -/
theorem failure_reaches_all_but_missed {cause : Cause}
    (h : application.run (Host.ofDepth directory depth) system arguments w =
      some (.error (.startupFailed cause), w')) :
    ∃ f : FailedRun (Host.ofDepth directory depth) application system arguments w,
      f.ended = w' ∧ ∀ listener ∈ application.listeners,
        (f.Misses listener → .contextLoaded ∉ Entry.phases (w'.since w)) ∧
        ((∀ r, .registered r ∈ w'.since w → r.listener = listener → r.accepts (.run .failed)) →
          (∀ name cause, .listenerFailed name (.run .failed) cause ∉ w'.since w) →
          ¬ f.Misses listener →
            ∃ origin name, .invoking origin listener name (.run .failed) ∈ w'.since w) ∧
        (directory.Within (.hushed listener) →
          (∀ initializer ∈ application.initializers, ∀ id,
            (initializer id).Within (.hushed listener)) →
          f.Misses listener →
            ∀ origin name, .invoking origin listener name (.run .failed) ∉ w'.since w) := by
  cases running_of_run h with
  | unstarted hStart =>
    have hHost := Host.ofDepth_within directory.within_full depth
    obtain ⟨-, hError, -⟩ := start_inv hHost (Scope.full_sends _) hStart
    obtain ⟨_, _, hDelivery⟩ := hError _ rfl
    cases hDelivery
  | failed f =>
    refine ⟨f, rfl, ?_⟩
    intro listener hListener
    refine ⟨?_, ?_, ?_⟩
    · exact FailedRun.not_contextLoaded_of_misses hListener
    · exact FailedRun.invoking_of_not_misses hListener
    · intro hDirectory hInitializers
      exact FailedRun.not_invoking_of_misses (within_hushed hDirectory hInitializers)

def expectsFailure : Entry → Bool
  | .registered r => r.accepts (.run .failed)
  | .listenerFailed _ kind _ => kind != .run .failed
  | _ => true

theorem expected {entries : List Entry} (h : entries.all expectsFailure) :
    (∀ r, .registered r ∈ entries → r.accepts (.run .failed)) ∧
      ∀ name cause, .listenerFailed name (.run .failed) cause ∉ entries := by
  rw [List.all_eq_true] at h
  exact ⟨fun r hr => h _ hr, fun name cause hMem => absurd (h _ hMem) Bool.false_ne_true⟩

def misconfigured : Application Unit :=
  ((plain : Application Unit).addListener ⟨0⟩).addDefault "main.kind" "bogus"

theorem failure_reaches_misconfigured :
    ∃ cause w', misconfigured.run (Host.ofDepth default 2) [] [] default =
        some (.error (.startupFailed cause), w') ∧
      ∃ origin name, .invoking origin ⟨0⟩ name (.run .failed) ∈ w'.since default := by
  obtain ⟨⟨outcome, w'⟩, hRun, hFacts⟩ := (Option.any_eq_true _ _).mp
    (show (misconfigured.run (Host.ofDepth default 2) [] [] default).any fun result =>
      (result.1 matches .error (.startupFailed _)) && result.2.contexts.isEmpty &&
        (result.2.since default).all expectsFailure by decide +kernel)
  obtain ⟨hFailed, hEntries⟩ := Bool.and_eq_true_iff.mp hFacts
  obtain ⟨hOutcome, hEmpty⟩ := Bool.and_eq_true_iff.mp hFailed
  obtain ⟨hWanted, hKind⟩ := expected hEntries
  cases outcome with
  | ok id => cases hOutcome
  | error error =>
    cases error with
    | startupFailed cause =>
      obtain ⟨f, rfl, hAll⟩ := failure_reaches_all_but_missed hRun
      obtain ⟨-, hHeard, -⟩ := hAll ⟨0⟩ (by decide)
      refine ⟨cause, f.ended, hRun, hHeard (fun r hr _ => hWanted r hr) hKind ?_⟩
      rintro ⟨id, hContext, -, -⟩
      obtain ⟨-, reached, -, -, hUnderway⟩ := f.breaking (within_full _ _)
      obtain ⟨-, context, hHere, -⟩ := hUnderway.made id hContext
      have hSome := (List.getElem?_eq_some_iff.mp hHere).1
      rw [← f.length_contexts, List.isEmpty_iff.mp hEmpty] at hSome
      exact absurd hSome (Nat.not_lt_zero _)
    | _ => cases hOutcome

/-- An application whose initializer refreshes the context before it is handed the listener, and
fails. -/
def hasty : Application Unit :=
  ((plain : Application Unit).addListener ⟨0⟩).addInitializer fun id =>
    .ask (.refresh id) fun _ => .done (.error (.plain "boom"))

/-- The listener accepts failures and none fails, and yet it does not hear of the failure. -/
theorem hasty_failure_unheard :
    ∃ cause w', hasty.run (Host.ofDepth default 3) [] [] default =
        some (.error (.startupFailed cause), w') ∧ ⟨0⟩ ∈ hasty.listeners ∧
      (∀ r, .registered r ∈ w'.since default → r.accepts (.run .failed)) ∧
      (∀ name cause, .listenerFailed name (.run .failed) cause ∉ w'.since default) ∧
      ∀ origin name, .invoking origin ⟨0⟩ name (.run .failed) ∉ w'.since default := by
  obtain ⟨⟨outcome, w'⟩, hRun, hFacts⟩ := (Option.any_eq_true _ _).mp
    (show (hasty.run (Host.ofDepth default 3) [] [] default).any fun result =>
      (result.1 matches .error (.startupFailed _)) && (result.2.since default).all expectsFailure &&
        (result.2.since default).all (!· matches .invoking _ _ _ (.run .failed)) by decide +kernel)
  obtain ⟨hFailed, hUnheard⟩ := Bool.and_eq_true_iff.mp hFacts
  obtain ⟨hOutcome, hEntries⟩ := Bool.and_eq_true_iff.mp hFailed
  obtain ⟨hWanted, hKind⟩ := expected hEntries
  cases outcome with
  | ok id => cases hOutcome
  | error error =>
    cases error with
    | startupFailed cause =>
      refine ⟨cause, w', hRun, by decide, hWanted, hKind, ?_⟩
      intro origin name hMem
      exact absurd (List.all_eq_true.mp hUnheard _ hMem) Bool.false_ne_true
    | _ => cases hOutcome

end Application

end Startup
