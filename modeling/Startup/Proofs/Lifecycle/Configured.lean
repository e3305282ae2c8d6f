import Startup.Proofs.Lifecycle.Ending
import Startup.Proofs.Lifecycle.Opening

/-!
# The environment that configures a run

What listeners make of the environment before its settings are bound decides of which kind the
context of a run is, and whether the run reports its start. Whatever they assign later changes
neither.
-/

namespace Startup.Application

variable {σ : Type} {host : Host σ} {directory : Directory σ} {depth : Nat}
  {application : Application σ} {system : List (String × String)} {arguments : List String}
  {w w' : World σ}

theorem run_ok_inv {id : ContextId}
    (h : application.run host system arguments w = some (.ok id, w')) :
    ∃ publisher started settings progress v,
      application.start host arguments w = some ((.ok (), publisher), started) ∧
      (application.launch host system arguments).run.run ⟨publisher, none⟩ started =
        some ((.ok (id, settings), progress), v) ∧
      w' = if settings.logStartupInfo then v.note (.startedApplication application.name) else v := by
  obtain ⟨⟨first, publisher⟩, started, hStart, hRest⟩ := Act.bind_inv h
  cases first with
  | error error => cases hRest
  | ok _ =>
    obtain ⟨⟨outcome, progress⟩, v, hLaunch, hEnd⟩ := Act.bind_inv hRest
    cases outcome with
    | error error =>
      obtain ⟨_, _, -, hPure⟩ := Act.bind_inv hEnd
      cases hPure
    | ok result =>
      obtain ⟨context, settings⟩ := result
      refine ⟨publisher, started, settings, progress, v, hStart, ?_⟩
      dsimp only at hEnd
      split at hEnd
      · rename_i hReports
        cases hEnd
        exact ⟨hLaunch, (if_pos hReports).symm⟩
      · rename_i hSilent
        cases hEnd
        exact ⟨hLaunch, (if_neg hSilent).symm⟩

/-- A run that fails tells of no start. -/
theorem advances_of_error {error : RunError}
    (h : application.run (Host.ofDepth directory depth) system arguments w =
      some (.error error, w')) : w.Advances w' := by
  have hHost := Host.ofDepth_within directory.within_full depth
  cases running_of_run h with
  | unstarted hStart => exact start_advances hHost _ hStart
  | failed f =>
    refine (start_advances hHost _ f.start_eq).trans ?_
    refine (launch_advances hHost _ _ _ f.launch_eq).trans ?_
    exact reportFailure_advances hHost _ _ f.reportFailure_eq

/-- A run that completes has come through its opening and all its phases, and then reports its start
if the settings say so. -/
theorem opening_of_ok {id : ContextId}
    (h : application.run (Host.ofDepth directory depth) system arguments w =
      some (.ok id, w')) :
    id = w.next ∧ ∃ (o : Opening (Host.ofDepth directory depth) application system arguments w)
      (p q : Publisher σ) (before v : World σ),
        o.created.Advances before ∧ o.created.Advances v ∧
        p.announce (Host.ofDepth directory depth) (.running (.managed w.next)) before =
          some ((.ok (), q), v) ∧
        w' = if o.settings.logStartupInfo then v.note (.startedApplication application.name)
          else v := by
  have hHost := Host.ofDepth_within directory.within_full depth
  obtain ⟨publisher, started, settings, progress, v, hStart, hLaunch, hw'⟩ := run_ok_inv h
  obtain ⟨hAt, -⟩ := start_inv hHost (Scope.full_sends _) hStart
  obtain ⟨hId, -, hMade⟩ :=
    launch_meets (within_full directory application) system arguments hAt hLaunch
  obtain ⟨o, rest, hRest, hOutcome⟩ :=
    opening_of_launch hStart hLaunch (by rw [hMade]; exact Option.some_ne_none _)
  cases rest with
  | error error => cases hOutcome
  | ok _ =>
    cases hOutcome
    obtain ⟨p, q, before, hBefore, hAnnounce⟩ := remainder_ok_inv hHost hRest
    rw [o.id_eq hHost] at hAnnounce
    exact ⟨hId, o, p, q, before, v, hBefore, remainder_advances hHost _ _ hRest, hAnnounce, hw'⟩

/-- A run that fails with a context has come through its opening as well. -/
theorem opening_of_error {error : RunError} {context : Context}
    (h : application.run (Host.ofDepth directory depth) system arguments w =
      some (.error error, w')) (hContext : w'.context? w.next = some context) :
    ∃ o : Opening (Host.ofDepth directory depth) application system arguments w,
      o.created.Advances w' := by
  have hHost := Host.ofDepth_within directory.within_full depth
  have hState : w'.stateOf w.next = some context.state := ContextId.stateOf_of_context? hContext
  cases running_of_run h with
  | unstarted hStart =>
    obtain ⟨⟨hUnderway, hNone⟩, -⟩ := start_inv hHost (Scope.full_sends _) hStart
    -- only a launch makes a context
    rw [stateOf_next_of_length (hUnderway.unmade hNone)] at hState
    cases hState
  | failed f =>
    have hMade : f.progress.context ≠ none := by
      rw [f.made_of_stateOf hState]
      exact Option.some_ne_none _
    obtain ⟨o, rest, hRest, -⟩ := opening_of_launch f.start_eq f.launch_eq hMade
    refine ⟨o, (remainder_advances hHost _ _ hRest).trans ?_⟩
    exact reportFailure_advances hHost _ _ f.reportFailure_eq

theorem reports_iff {v : World σ} {reports : Bool} {name : String} (h : w.Advances v)
    (hw' : w' = if reports then v.note (.startedApplication name) else v) :
    (∃ other, .startedApplication other ∈ w'.since w) ↔ reports = true := by
  cases reports with
  | false =>
    rw [hw']
    exact iff_of_false (fun ⟨other, hMem⟩ => h.untold other hMem) Bool.false_ne_true
  | true =>
    refine iff_of_true ⟨name, ?_⟩ rfl
    rw [hw', if_pos rfl, World.since_append h.grown (World.journal_note v _)]
    exact List.mem_append_right _ (List.mem_singleton_self _)

/-- A listener that names another kind when it is told of the environment, and yet another one later,
when it also wants no report any more. -/
def wilful : Directory Unit :=
  { (default : Directory Unit) with
    listener := fun _ =>
      { (default : Listener Unit) with
        onEvent := fun event =>
          match event with
          | .run ⟨_, _, _, .environmentPrepared environment⟩ =>
            .ask (.assign environment.store [("main.kind", "reactive")]) fun _ => .done (.ok ())
          | .run ⟨_, _, _, .contextInitialized _⟩ =>
            .ask (.assign ⟨0⟩ [("main.kind", "standalone"), ("main.log-startup-info", "false")])
              fun _ => .done (.ok ())
          | _ => .done (.ok ()) } }

def persuaded : Application Unit :=
  { Application.plain with listeners := [⟨0⟩], defaults := [("main.kind", "standalone")] }

end Startup.Application
