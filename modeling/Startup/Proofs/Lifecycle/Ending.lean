import Startup.Proofs.Context.Closing
import Startup.Proofs.Lifecycle.Phases

/-!
# The context at the end of a run

Where listeners leave it to others to refresh and close the context of a run, it is active after a
run that completes, and closed after a run that fails, whatever initializers did to it and whatever
fails while the failure is reported.
-/

namespace Startup.Application

variable {σ : Type} {application : Application σ} {directory : Directory σ} {depth : Nat}
  {system : List (String × String)} {arguments : List String} {w w' : World σ}

theorem within_sparing (application : Application σ) {id : ContextId}
    (hDirectory : directory.Within (Scope.full.sparing id)) :
    application.Within (Scope.full.sparing id) directory where
  directory := hDirectory
  sends kind _ := (Scope.full_sends kind).sparing id
  initializers _ _ _ := (Program.within_full _).opened

theorem stateOf_next_of_length (h : w'.contexts.length = w.contexts.length) :
    w'.stateOf w.next = none := by
  rw [World.stateOf, World.context?, World.next, List.getElem?_eq_none (Nat.le_of_eq h),
    Option.map_none]

namespace FailedRun

variable {f : FailedRun (Host.ofDepth directory depth) application system arguments w}

theorem made_of_stateOf {state : ContextState} (hState : f.ended.stateOf w.next = some state) :
    f.progress.context = some w.next := by
  obtain ⟨-, reached, -, -, hUnderway⟩ := f.breaking (within_full directory _)
  cases hContext : f.progress.context with
  | none =>
    have hLength := f.length_contexts.trans (hUnderway.unmade hContext)
    rw [stateOf_next_of_length hLength] at hState
    cases hState
  | some id => rw [(hUnderway.made id hContext).1]

theorem closed_of_made (hMade : f.progress.context = some w.next) :
    f.ended.stateOf w.next = some .closed ∧
      ((∃ count, .broadcasting (.context w.next) (.context .closed) count ∈
          f.ended.since f.reported) ↔ f.reported.stateOf w.next = some .active) := by
  have hHost := Host.ofDepth_within directory.within_full depth
  rcases f.closed with ⟨hNone, -⟩ | ⟨id, outcome, v, hId, hClose, hRemarks⟩
  · exact absurd (hMade.symm.trans hNone) nofun
  · cases hMade.symm.trans hId
    have hPath := ContextId.close_within hHost trivial (Scope.full_sends _) hClose
    constructor
    · rw [hRemarks.stateOf]
      exact ContextId.stateOf_close hHost (Scope.full_sends _) hClose
    · rw [← ContextId.close_announces hHost (Scope.full_sends _) hClose,
        World.since_trans hPath.journal_grows hRemarks.journal_grows]
      constructor
      · rintro ⟨count, hMem⟩
        rcases List.mem_append.mp hMem with hMem | hMem
        · exact ⟨count, hMem⟩
        · exact absurd (hRemarks.isOfRun _ hMem) nofun
      · rintro ⟨count, hMem⟩
        exact ⟨count, List.mem_append_left _ hMem⟩

end FailedRun

/-- No run leaves its context half started. It is active where the run completes and closed where
it fails; in the end it is closed with an announcement just if the report of the failure left it
active. -/
theorem run_settles_context (hDirectory : directory.Within (Scope.full.sparing w.next))
    {outcome : Except RunError ContextId}
    (h : application.run (Host.ofDepth directory depth) system arguments w =
      some (outcome, w')) :
    (∀ id, outcome = .ok id → id = w.next ∧ w'.stateOf id = some .active) ∧
      ∀ error state, outcome = .error error → w'.stateOf w.next = some state →
        state = .closed ∧
          ∃ f : FailedRun (Host.ofDepth directory depth) application system arguments w,
            f.ended = w' ∧
              ((∃ count, .broadcasting (.context w.next) (.context .closed) count ∈
                  w'.since f.reported) ↔ f.reported.stateOf w.next = some .active) := by
  have hWithin := within_sparing application hDirectory
  have hHost := Host.ofDepth_within hDirectory depth
  cases running_of_run h with
  | unstarted hStart =>
    -- no context was made, so the one that would come next is not there
    obtain ⟨⟨hUnderway, hNone⟩, -⟩ := start_inv hHost (hWithin.sends _ nofun) hStart
    refine ⟨nofun, ?_⟩
    intro error state _ hState
    rw [stateOf_next_of_length (hUnderway.unmade hNone)] at hState
    cases hState
  | completed hStart hLaunch hRemarks =>
    obtain ⟨hAt, -⟩ := start_inv hHost (hWithin.sends _ nofun) hStart
    obtain ⟨hId, hUnderway, -⟩ := launch_meets hWithin system arguments hAt hLaunch
    refine ⟨?_, nofun⟩
    rintro id ⟨⟩
    subst hId
    refine ⟨rfl, ?_⟩
    rw [hRemarks.stateOf]
    exact hUnderway.active (by decide) fun hGoverns => hGoverns rfl
  | failed f =>
    refine ⟨nofun, ?_⟩
    intro error state _ hState
    obtain ⟨hClosed, hAnnounced⟩ := FailedRun.closed_of_made (FailedRun.made_of_stateOf hState)
    rw [hClosed] at hState
    cases hState
    exact ⟨rfl, f, rfl, hAnnounced⟩

theorem run_settles_context_faulty :
    ∃ error w', faulty.run (Host.ofDepth default 2) [] [] default = some (.error error, w') ∧
      w'.stateOf ⟨0⟩ = some .closed := by
  obtain ⟨⟨outcome, w'⟩, hRun, hMade⟩ := (Option.any_eq_true _ _).mp
    (show (faulty.run (Host.ofDepth default 2) [] [] default).any fun result =>
      !result.1.isOk && (result.2.stateOf ⟨0⟩).isSome by decide +kernel)
  obtain ⟨hFailed, hState⟩ := Bool.and_eq_true_iff.mp hMade
  obtain ⟨state, hState⟩ := Option.isSome_iff_exists.mp hState
  cases outcome with
  | ok id => cases hFailed
  | error error =>
    obtain ⟨rfl, -⟩ := (run_settles_context Directory.within_default hRun).2 error state rfl hState
    exact ⟨error, w', hRun, hState⟩

end Startup.Application
