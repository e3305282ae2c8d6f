import Startup.Proofs.Lifecycle.Returning

/-!
# The phases of a run

A run announces all successes in their order, or only that it starts, or some of the successes and
then, once, that it failed. No phase is ever refused.
-/

namespace Startup

variable {σ : Type} {application : Application σ} {directory : Directory σ} {depth : Nat}
  {system : List (String × String)} {arguments : List String} {w w' : World σ}

theorem Phase.failed_not_mem_successes {reached : List Phase} (h : reached <+: successes) :
    failed ∉ reached := by
  intro hMem
  have hSuccess : failed ∈ successes := h.subset hMem
  revert hSuccess
  decide

theorem Underway.last_ne_failed {scope : Scope} {reached : List Phase} {progress : Progress σ}
    (h : Underway scope application w reached progress w')
    (hReached : reached <+: Phase.successes) : progress.publisher.last ≠ some .failed := by
  rw [h.last]
  intro hLast
  exact Phase.failed_not_mem_successes hReached (List.mem_of_getLast? hLast)

namespace Application

inductive Protocol (w w' : World σ) : Except RunError ContextId → Prop
  | completed (id : ContextId) (phases : Entry.phases (w'.since w) = Phase.successes) :
      Protocol w w' (.ok id)
  | unstarted (name : String) (cause : Cause) (phases : Entry.phases (w'.since w) = [.starting])
      (unprepared : ∀ count profiles, .preparedEnvironment count profiles ∉ w'.since w)
      (unmade : w'.contexts.length = w.contexts.length) :
      Protocol w w' (.error (.delivery (.listenerFailed name (.run .starting) cause)))
  | failed (cause : Cause) (reached : List Phase) (nonempty : reached ≠ [])
      (successes : reached <+: Phase.successes)
      (phases : Entry.phases (w'.since w) = reached ++ [.failed]) :
      Protocol w w' (.error (.startupFailed cause))

namespace FailedRun

theorem delivery
    (f : FailedRun (Host.ofDepth directory depth) application system arguments w) :
    ∃ outcome multicaster v, Publisher.deliverFailure (Host.ofDepth directory depth)
        (f.progress.context.map .managed) f.progress.publisher.multicaster f.event f.announced =
          some ((outcome, multicaster), v) ∧ v.Remarks f.reported := by
  obtain ⟨-, reached, -, hReached, hUnderway⟩ := f.breaking (within_full directory _)
  exact f.delivered (hUnderway.last_ne_failed hReached)

theorem ending {scope : Scope} (hDirectory : directory.Within scope)
    (hSends : scope.Sends (.context .closed))
    (f : FailedRun (Host.ofDepth directory depth) application system arguments w) :
    ∃ v, World.Path scope.opened f.reported v ∧ v.Remarks f.ended := by
  rcases f.closed with ⟨-, hEnded⟩ | ⟨id, outcome, v, -, hClose, hRemarks⟩
  · exact ⟨f.reported, .refl, .inl hEnded⟩
  · have hHost := Host.ofDepth_within hDirectory.opened depth
    exact ⟨v, ContextId.close_within hHost trivial hSends.opened hClose, hRemarks⟩

/-- What a failed run has announced, if its failure is delivered within the scope, too. -/
theorem chronicle {scope : Scope} (hWithin : application.Within scope directory)
    (f : FailedRun (Host.ofDepth directory depth) application system arguments w)
    (hDelivered : ∀ answer v, Publisher.deliverFailure (Host.ofDepth directory depth)
      (f.progress.context.map .managed) f.progress.publisher.multicaster f.event f.announced =
        some (answer, v) → World.Path scope f.announced v) :
    ∃ reached, reached ≠ [] ∧ reached <+: Phase.successes ∧
      Underway scope application w reached f.progress f.launched ∧
      Chronicle scope w (reached ++ [.failed]) f.ended := by
  obtain ⟨-, reached, hNonempty, hReached, hUnderway⟩ := f.breaking hWithin
  obtain ⟨outcome, multicaster, v, hDeliver, hRemarks⟩ := f.delivery
  obtain ⟨u, hPath, hLast⟩ := f.ending hWithin.directory (hWithin.sends _ nofun)
  -- `failed` is announced once, and nothing after it announces a phase
  have hAnnounced : Chronicle scope w (reached ++ [.failed]) f.announced :=
    (hUnderway.note _ rfl rfl).toChronicle.note (.publishing .failed _) rfl
  have hReported : Chronicle scope w (reached ++ [.failed]) f.reported :=
    (hAnnounced.path (hDelivered _ _ hDeliver) fun _ => id).remarks hRemarks
  refine ⟨reached, hNonempty, hReached, hUnderway, ?_⟩
  exact (hReported.path hPath fun _ => id).remarks hLast

theorem chronicle_full
    (f : FailedRun (Host.ofDepth directory depth) application system arguments w) :
    ∃ reached, reached ≠ [] ∧ reached <+: Phase.successes ∧
      Underway .full application w reached f.progress f.launched ∧
      Chronicle .full w (reached ++ [.failed]) f.ended :=
  f.chronicle (within_full directory application) fun _ _ hDeliver =>
    Publisher.deliverFailure_within (Host.ofDepth_within directory.within_full depth) _ _
      (Scope.full_sends _) hDeliver

theorem length_contexts
    (f : FailedRun (Host.ofDepth directory depth) application system arguments w) :
    f.ended.contexts.length = f.launched.contexts.length := by
  have hHost := Host.ofDepth_within directory.within_full depth
  obtain ⟨outcome, multicaster, v, hDeliver, hRemarks⟩ := f.delivery
  obtain ⟨u, hPath, hLast⟩ := f.ending directory.within_full (Scope.full_sends _)
  have hDelivered := Publisher.deliverFailure_within hHost _ _ (Scope.full_sends _) hDeliver
  calc f.ended.contexts.length
    _ = u.contexts.length := hLast.length_contexts
    _ = f.reported.contexts.length := hPath.length_contexts
    _ = v.contexts.length := hRemarks.length_contexts
    _ = f.launched.contexts.length := hDelivered.length_contexts

end FailedRun

theorem protocol_of_run {outcome : Except RunError ContextId}
    (h : application.run (Host.ofDepth directory depth) system arguments w =
      some (outcome, w')) : Protocol w w' outcome := by
  have hHost := Host.ofDepth_within directory.within_full depth
  cases running_of_run h with
  | unstarted hStart =>
    obtain ⟨⟨hUnderway, hNone⟩, hError, hOwn⟩ := start_inv hHost (Scope.full_sends _) hStart
    obtain ⟨name, cause, rfl⟩ := hError _ rfl
    apply Protocol.unstarted name cause hUnderway.phases
    · intro count profiles hMem
      rcases hOwn _ hMem rfl with hEntry | hEntry <;> cases hEntry
    · exact hUnderway.unmade hNone
  | completed hStart hLaunch hRemarks =>
    obtain ⟨hAt, -⟩ := start_inv hHost (Scope.full_sends _) hStart
    obtain ⟨-, hUnderway, -⟩ :=
      launch_meets (within_full directory application) system arguments hAt hLaunch
    exact .completed _ (hUnderway.toChronicle.remarks hRemarks).phases
  | failed f =>
    obtain ⟨reached, hNonempty, hReached, -, hChronicle⟩ := f.chronicle_full
    exact .failed _ reached hNonempty hReached hChronicle.phases

/-- Whatever listeners and initializers do, a run that comes back keeps to the protocol, and no
phase of it is refused. It comes back if all that it calls does. -/
theorem run_protocol (application : Application σ) (directory : Directory σ) (depth : Nat)
    (system : List (String × String)) (arguments : List String) (w : World σ) :
    (∀ outcome w', application.run (Host.ofDepth directory depth) system arguments w =
      some (outcome, w') → Protocol w w' outcome) ∧
    (∀ f : FailedRun (Host.ofDepth directory depth) application system arguments w,
      (∀ previous attempted, f.error ≠ .invalidTransition previous attempted) ∧
        Publisher.admits f.progress.publisher.last .failed = true) ∧
    ∀ inv, application.Served (Host.ofDepth directory depth) inv → inv w →
      ∃ outcome w', application.run (Host.ofDepth directory depth) system arguments w =
        some (outcome, w') := by
  refine ⟨?_, ?_, ?_⟩
  · intro outcome w' hRun
    exact protocol_of_run hRun
  · intro f
    obtain ⟨hError, reached, -, hReached, hUnderway⟩ := f.breaking (within_full directory _)
    exact ⟨hError, Publisher.admits_failed (hUnderway.last_ne_failed hReached)⟩
  · intro inv hServed hInv
    obtain ⟨outcome, w', hRun, -⟩ := run_returns hServed system arguments hInv
    exact ⟨outcome, w', hRun⟩

/-- An application whose only initializer fails. -/
def faulty : Application Unit :=
  (plain : Application Unit).addInitializer fun _ => .done (.error (.plain "boom"))

theorem served_faulty : faulty.Served (Host.ofDepth default 2) fun _ => True where
  grows _ _ _ _ _ := trivial
  declare _ _ _ := trivial
  onEvent w _ _ _ _ := ⟨_, w, rfl, trivial⟩
  onContext _ _ _ _ hSupply := nomatch hSupply
  initializer initializer hMem w _ _ _ := by
    cases List.mem_singleton.mp hMem
    exact ⟨_, w, rfl, trivial⟩

theorem run_protocol_faulty :
    ∃ outcome w', faulty.run (Host.ofDepth default 2) [] [] default = some (outcome, w') ∧
      Protocol default w' outcome := by
  obtain ⟨hProtocol, -, hReturns⟩ := run_protocol faulty default 2 [] [] default
  obtain ⟨outcome, w', hRun⟩ := hReturns _ served_faulty trivial
  exact ⟨outcome, w', hRun, hProtocol outcome w' hRun⟩

end Application

end Startup
