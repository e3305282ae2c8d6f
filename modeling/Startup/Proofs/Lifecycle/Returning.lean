import Startup.Proofs.Context.Serving
import Startup.Proofs.Lifecycle.Running

/-!
# Runs that come back

Where all calls of listeners and initializers come back, so does the run that makes them, whatever
they answer.
-/

namespace Startup

variable {σ α β ε : Type} {host : Host σ} {inv : World σ → Prop} {id : ContextId}

theorem ContextId.returns_identity (host : Host σ)
    (hHere : id.Lasts inv) :
    ((ContextRef.managed id).identity host).Returns inv :=
  (Act.returns_context hHere).bind fun _ => Act.returns_pure _

namespace Host.Serves

variable (h : host.Serves inv)
include h

theorem create (application : Application σ) (arguments : List String) :
    (Publisher.create host application arguments).Returns inv :=
  (h.enlistAll _ _).bind fun _ => Act.returns_pure _

theorem supply (hHere : id.Lasts inv) (listener : ListenerId) :
    (Publisher.supply host (.managed id) listener).Returns inv := by
  rw [Publisher.supply]
  cases hSupply : (host.listener listener).onContext with
  | none => exact Act.returns_pure ()
  | some program =>
    refine (ContextId.returns_identity host hHere).bind fun _ => (h.write _).bind fun _ => ?_
    intro w hInv
    obtain ⟨w', hPerform, hKept⟩ := h.onContext w listener program id hSupply hInv (hHere w hInv)
    exact ⟨(), w', hPerform, hKept⟩

theorem handOver (hHere : id.Lasts inv)
    (listeners : List ListenerId) :
    (Publisher.handOver host (.managed id) listeners).Returns inv := by
  induction listeners with
  | nil => exact Act.returns_pure ()
  | cons listener rest ih =>
    rw [Publisher.handOver_cons]
    refine (h.supply hHere listener).bind fun _ => ?_
    exact (h.subscribe id listener).bind fun _ => ih

theorem copyListeners (ids : List ListenerId) (multicaster : Multicaster) (copied : Nat) :
    (Publisher.copyListeners host ids multicaster copied).Returns inv := by
  rw [Publisher.copyListeners_eq]
  exact (h.enlistAll _ multicaster).bind fun _ => Act.returns_pure _

theorem joinContext (hHere : id.Lasts inv)
    (multicaster : Multicaster) :
    (Publisher.joinContext host (.managed id) multicaster).Returns inv := by
  have hListeners : ((ContextRef.managed id).listeners host).Returns inv :=
    (Act.returns_context hHere).bind fun _ => Act.returns_pure _
  refine hListeners.bind fun listeners => ?_
  cases listeners with
  | none =>
    refine (ContextId.returns_identity host hHere).bind fun _ => ?_
    exact (h.write _).bind fun _ => Act.returns_pure _
  | some ids =>
    refine (h.copyListeners ids multicaster 0).bind fun _ => ?_
    refine (ContextId.returns_identity host hHere).bind fun _ => ?_
    exact (h.write _).bind fun _ => Act.returns_pure _

theorem broadcastAll {strategy : Strategy σ} {event : Event}
    (hStrategy : ∀ name cause, (strategy name event.kind cause).Returns inv)
    (hKnows : ∀ w, inv w → w.Knows event) (multicaster : Multicaster) :
    (Publisher.broadcast host strategy multicaster event).Returns inv :=
  (h.broadcast .other hStrategy hKnows multicaster).bind fun _ => Act.returns_pure _

theorem deliverFailure {context : Option ContextId} {event : Event}
    (hHere : ∀ id, context = some id → id.Lasts inv)
    (hKnows : ∀ w, inv w → w.Knows event) (multicaster : Multicaster) :
    (Publisher.deliverFailure host (context.map .managed) multicaster event).Returns inv := by
  have hBroadcast := h.broadcastAll (fun name => h.ignore name event.kind) hKnows
  cases context with
  | none => exact (hBroadcast multicaster).bind fun _ => Act.returns_pure _
  | some id =>
    have hContext := hHere id rfl
    have hActive : ((ContextRef.managed id).isActive host).Returns inv :=
      (Act.returns_context hContext).bind fun _ => Act.returns_pure _
    refine hActive.bind fun active => ?_
    cases active with
    | true =>
      refine (ContextId.returns_identity host hContext).bind fun _ => (h.write _).bind fun _ => ?_
      exact (h.publish hContext hKnows).bind fun _ => Act.returns_pure _
    | false =>
      refine (h.joinContext hContext multicaster).bind fun joined => ?_
      exact (hBroadcast joined).bind fun _ => Act.returns_pure _

/-- What is announced tells of no context but one that is there. -/
theorem deliver {context : Option ContextId} {payload : RunPayload}
    (hTells : payload.context? = context.map .managed)
    (hHere : ∀ id, context = some id → id.Lasts inv)
    (p : Publisher σ) : (p.deliver host (p.event payload) payload).Returns inv := by
  have hKnows : ∀ w, inv w → w.Knows (p.event payload) := by
    intro w hInv ref hRef
    obtain ⟨id, hId, hManaged⟩ := Option.map_eq_some_iff.mp (hTells.symm.trans hRef)
    exact ⟨id, hManaged.symm, hHere id hId w hInv⟩
  have hBroadcast : (Publisher.broadcast host .propagate p.multicaster (p.event payload)).Returns
      inv := h.broadcastAll (fun name => h.propagate name _) hKnows _
  cases payload with
  | failed ref cause =>
    cases hTells
    exact h.deliverFailure hHere hKnows _
  | contextLoaded ref =>
    obtain ⟨id, hId, rfl⟩ := Option.map_eq_some_iff.mp hTells.symm
    have hContext := hHere id hId
    refine (h.handOver hContext _).bind fun _ => ?_
    refine (ContextId.returns_identity host hContext).bind fun _ => (h.write _).bind fun _ => ?_
    exact hBroadcast.bind fun _ => Act.returns_pure _
  | started ref =>
    obtain ⟨id, hId, rfl⟩ := Option.map_eq_some_iff.mp hTells.symm
    exact (h.publish (hHere id hId) hKnows).bind fun _ => Act.returns_pure _
  | running ref =>
    obtain ⟨id, hId, rfl⟩ := Option.map_eq_some_iff.mp hTells.symm
    exact (h.publish (hHere id hId) hKnows).bind fun _ => Act.returns_pure _
  | starting => exact hBroadcast.bind fun _ => Act.returns_pure _
  | environmentPrepared environment => exact hBroadcast.bind fun _ => Act.returns_pure _
  | contextInitialized ref => exact hBroadcast.bind fun _ => Act.returns_pure _

theorem announce {context : Option ContextId} {payload : RunPayload}
    (hTells : payload.context? = context.map .managed)
    (hHere : ∀ id, context = some id → id.Lasts inv)
    (p : Publisher σ) : (p.announce host payload).Returns inv := by
  rw [Publisher.announce]
  split
  · refine (h.write _).bind fun _ => ?_
    exact (h.deliver hTells hHere { p with last := some payload.phase }).bind fun _ =>
      Act.returns_pure _
  · exact Act.returns_pure _

end Host.Serves

namespace Stage

/-- A stage comes back from every world that it may start in, with what is promised, or with an
error in a world of the invariant. -/
def Returns (inv before : World σ → Prop) (stage : Stage σ α) (after : α → World σ → Prop) : Prop :=
  ∀ ⦃progress w⦄, before w → ∃ outcome progress' w',
    stage.run.run progress w = some ((outcome, progress'), w') ∧
      match outcome with
      | .ok a => after a w'
      | .error _ => inv w'

variable {before : World σ → Prop}

theorem Returns.bind {stage : Stage σ α} {f : α → Stage σ β} {between : α → World σ → Prop}
    {after : β → World σ → Prop} (hStage : Returns inv before stage between)
    (hRest : ∀ a, Returns inv (between a) (f a) after) :
    Returns inv before (stage >>= f) after := by
  intro progress w hBefore
  obtain ⟨first, next, v, hFirst, hBetween⟩ := @hStage progress w hBefore
  rw [run_bind, Act.bind_apply hFirst]
  cases first with
  | error error => exact ⟨.error error, next, v, rfl, hBetween⟩
  | ok a => exact hRest a hBetween

theorem Returns.mono {stage : Stage σ α} {kept start : World σ → Prop}
    {after : α → World σ → Prop} (h : Returns kept start stage after)
    (hBefore : ∀ w, before w → start w) (hKept : ∀ w, kept w → inv w) :
    Returns inv before stage after := by
  intro progress w hHolds
  obtain ⟨outcome, progress', w', hRun, hAfter⟩ := @h progress w (hBefore w hHolds)
  refine ⟨outcome, progress', w', hRun, ?_⟩
  cases outcome with
  | ok a => exact hAfter
  | error error => exact hKept w' hAfter

theorem returns_pure {after : α → World σ → Prop} {a : α} (h : ∀ w, before w → after a w) :
    Returns inv before (pure a : Stage σ α) after := by
  intro progress w hBefore
  exact ⟨.ok a, progress, w, rfl, h w hBefore⟩

theorem Returns.forM {f : α → Stage σ Unit} (items : List α)
    (hEach : ∀ item ∈ items, Returns inv before (f item) fun _ => before) :
    Returns inv before (items.forM f) fun _ => before := by
  induction items with
  | nil => exact returns_pure fun _ h => h
  | cons item rest ih =>
    refine (hEach item (List.mem_cons_self ..)).bind fun _ => ?_
    exact ih fun other hOther => hEach other (List.mem_cons_of_mem _ hOther)

theorem returns_attempt {wrap : ε → RunError} {act : Act σ (Except ε α)} (hAct : act.Returns inv) :
    Returns inv inv (attempt wrap act) fun _ => inv := by
  intro progress w hInv
  obtain ⟨answer, w', hRun, hKept⟩ := hAct hInv
  refine ⟨answer.mapError wrap, progress, w', ?_, ?_⟩
  · rw [attempt_run, Act.bind_apply hRun]
    rfl
  · cases answer <;> exact hKept

theorem returns_announce (h : host.Serves inv) {context : Option ContextId} {payload : RunPayload}
    (hTells : payload.context? = context.map .managed)
    (hHere : ∀ id, context = some id → id.Lasts inv) :
    Returns inv inv (announce host payload) fun _ => inv := by
  intro progress w hInv
  obtain ⟨⟨outcome, publisher⟩, w', hRun, hKept⟩ :=
    h.announce hTells hHere progress.publisher hInv
  refine ⟨outcome, { progress with publisher := publisher }, w', ?_, ?_⟩
  · rw [announce_run, Act.bind_apply hRun]
    rfl
  · cases outcome <;> exact hKept

theorem returns_prepare (h : host.Serves inv) (defaults : List (String × String))
    (system : Option (List (String × String))) (arguments : List String) :
    Returns inv inv (attempt .setup (Environment.prepare defaults system arguments))
      fun environment w => inv w ∧ w.Has 0 (environment.store.index + 1) := by
  intro progress w hInv
  rw [attempt_run, Environment.prepare]
  cases Properties.prepare defaults system arguments with
  | error error => exact ⟨.error (.setup error), progress, w, rfl, hInv⟩
  | ok properties =>
    have hLength : (w.stores ++ [properties]).length = w.stores.length + 1 := List.length_append
    refine ⟨.ok _, progress, _, rfl, ?_, Nat.zero_le _, ?_⟩
    · exact h.grows w _ hInv rfl ⟨Nat.le_refl _, hLength ▸ Nat.le_succ _⟩
    · exact Nat.le_of_eq hLength.symm

theorem returns_createContext (h : host.Serves inv) (application : Application σ)
    (settings : MainSettings) (environment : Environment) :
    Returns inv inv (createContext host application settings environment)
      fun id w => inv w ∧ w.Has (id.index + 1) 0 := by
  intro progress w hInv
  obtain ⟨context, -, -, hRun⟩ :=
    createContext_apply host application settings environment progress w
  have hLength := w.length_adding context
  refine ⟨_, _, _, hRun, ?_, ?_, Nat.zero_le _⟩
  · exact h.grows w _ hInv rfl ⟨hLength ▸ Nat.le_succ _, Nat.le_refl _⟩
  · exact Nat.le_of_eq hLength.symm

end Stage

/-- What listeners and initializers rely on, and the library keeps. -/
structure Application.Served (host : Host σ) (application : Application σ)
    (inv : World σ → Prop) : Prop extends host.Serves inv where
  initializer : ∀ initializer ∈ application.initializers, ∀ w context, inv w →
    context.index < w.contexts.length →
      ∃ answer w', host.perform (initializer context) w = some (answer, w') ∧ inv w'

namespace Application

variable {application : Application σ} {directory : Directory σ} {depth : Nat}

theorem returns_launch (h : application.Served (Host.ofDepth directory depth) inv)
    (system : List (String × String)) (arguments : List String) :
    Stage.Returns inv inv (application.launch (Host.ofDepth directory depth) system arguments)
      fun _ => inv := by
  have hHost := Host.ofDepth_within directory.within_full depth
  have hServes := h.toServes
  refine (Stage.returns_prepare hServes _ _ _).bind fun environment => ?_
  have hStored := hServes.having hHost 0 (environment.store.index + 1)
  have hNone : ∀ id : ContextId, none = some id →
      id.Lasts fun w => inv w ∧ w.Has 0 (environment.store.index + 1) := nofun
  refine ((Stage.returns_announce hStored rfl hNone).mono (fun _ h => h) fun _ h => h.1).bind
    fun _ => ?_
  have hSettings : (do return (← Act.properties environment.store).settings :
      Act σ (Except SetupError MainSettings)).Returns
        fun w => inv w ∧ w.Has 0 (environment.store.index + 1) :=
    (Act.returns_properties fun w h => h.2.stores).bind fun _ => Act.returns_pure _
  refine ((Stage.returns_attempt hSettings).mono (fun _ h => h) fun _ h => h.1).bind
    fun settings => ?_
  refine ((Stage.returns_createContext hServes application settings environment).mono
    (fun _ h => h.1) fun _ h => h).bind fun id => ?_
  have hMade := hServes.having hHost (id.index + 1) 0
  have hHere : id.Lasts fun w => inv w ∧ w.Has (id.index + 1) 0 := fun w h => h.2.contexts
  have hAnnounce (payload : RunPayload) (hTells : payload.context? = some (.managed id)) :
      Stage.Returns inv (fun w => inv w ∧ w.Has (id.index + 1) 0)
        (.announce (Host.ofDepth directory depth) payload)
        fun _ w => inv w ∧ w.Has (id.index + 1) 0 := by
    refine (Stage.returns_announce hMade (hTells.trans rfl : _ = (some id).map _) ?_).mono
      (fun _ h => h) fun _ h => h.1
    rintro other ⟨⟩
    exact hHere
  refine (Stage.Returns.forM application.initializers fun initializer hMem => ?_).bind fun _ => ?_
  · have hInitializer : ((Host.ofDepth directory depth).perform (initializer id)).Returns
        fun w => inv w ∧ w.Has (id.index + 1) 0 := by
      intro w hInv
      obtain ⟨answer, w', hPerform, hKept⟩ :=
        h.initializer initializer hMem w id hInv.1 (hHere w hInv)
      have hPath := hHost.perform _ (Program.within_full _) hPerform
      exact ⟨answer, w', hPerform, hKept, hPath.has hInv.2⟩
    exact (Stage.returns_attempt hInitializer).mono (fun _ h => h) fun _ h => h.1
  refine (hAnnounce _ rfl).bind fun _ => ?_
  refine (hAnnounce _ rfl).bind fun _ => ?_
  refine ((Stage.returns_attempt (hMade.refresh hHere)).mono (fun _ h => h) fun _ h => h.1).bind
    fun _ => ?_
  refine (hAnnounce _ rfl).bind fun _ => ?_
  refine (hAnnounce _ rfl).bind fun _ => ?_
  exact Stage.returns_pure fun _ h => h.1

theorem returns_start (h : host.Serves inv) (application : Application σ)
    (arguments : List String) : (application.start host arguments).Returns inv := by
  refine (h.create application arguments).bind fun publisher => (h.write _).bind fun _ => ?_
  have hNone : ∀ id : ContextId, none = some id → id.Lasts inv := nofun
  exact h.announce rfl hNone publisher

theorem returns_reportFailure (h : host.Serves inv) {progress : Progress σ}
    (hHere : ∀ id, progress.context = some id → id.Lasts inv)
    (error : RunError) : (application.reportFailure host progress error).Returns inv := by
  have hAnnounce : (announceFailure host application progress error.toCause).Returns inv := by
    refine (h.announce rfl hHere progress.publisher).bind fun answer => ?_
    obtain ⟨reported, publisher⟩ := answer
    cases reported with
    | ok _ => exact Act.returns_pure ()
    | error error => exact h.write _
  have hClose : (closeContext host application progress).Returns inv := by
    rw [closeContext]
    cases hContext : progress.context with
    | none => exact Act.returns_pure ()
    | some id =>
      refine (h.close (hHere id hContext)).bind fun outcome => ?_
      cases outcome with
      | ok _ => exact Act.returns_pure ()
      | error error => exact h.write _
  refine (h.write _).bind fun _ => hAnnounce.bind fun _ => ?_
  exact hClose.bind fun _ => Act.returns_pure _

/-- A run comes back wherever all that it calls comes back. -/
theorem run_returns (h : application.Served (Host.ofDepth directory depth) inv)
    (system : List (String × String)) (arguments : List String) :
    (application.run (Host.ofDepth directory depth) system arguments).Returns inv := by
  have hHost := Host.ofDepth_within directory.within_full depth
  have hServes := h.toServes
  intro w hInv
  obtain ⟨⟨started, publisher⟩, v, hStart, hKept⟩ :=
    returns_start hServes application arguments hInv
  rw [run, Act.bind_apply hStart]
  cases started with
  | error error => exact ⟨_, v, rfl, hKept⟩
  | ok _ =>
    obtain ⟨outcome, progress, w₁, hLaunch, hEnd⟩ :=
      @returns_launch _ _ _ _ _ h system arguments ⟨publisher, none⟩ v hKept
    dsimp only
    rw [Act.bind_apply hLaunch]
    cases outcome with
    | ok result =>
      obtain ⟨id, settings⟩ := result
      dsimp only
      cases settings.logStartupInfo with
      | true =>
        obtain ⟨_, w₂, hWrite, hLast⟩ := hServes.write (.startedApplication application.name) hEnd
        cases hWrite
        exact ⟨_, _, rfl, hLast⟩
      | false => exact ⟨_, w₁, rfl, hEnd⟩
    | error error =>
      obtain ⟨hAt, -⟩ := start_inv hHost (Scope.full_sends _) hStart
      obtain ⟨-, reached, -, -, hUnderway⟩ :=
        launch_meets (within_full directory application) system arguments hAt hLaunch
      -- the context that is to be closed is there, if the run came to have one
      have hHere : ∀ id, progress.context = some id →
          id.Lasts fun w => inv w ∧ w.Has w₁.contexts.length 0 := by
        intro id hContext w hHolds
        obtain ⟨-, context, hMade, -⟩ := hUnderway.made id hContext
        have hIndex : id.index < w₁.contexts.length := (List.getElem?_eq_some_iff.mp hMade).1
        exact Nat.lt_of_lt_of_le hIndex hHolds.2.contexts
      have hServed := hServes.having hHost w₁.contexts.length 0
      obtain ⟨reported, w', hReport, hLast, -⟩ := returns_reportFailure hServed hHere error
        ⟨hEnd, Nat.le_refl _, Nat.zero_le _⟩
      dsimp only
      rw [Act.bind_apply hReport]
      exact ⟨_, w', rfl, hLast⟩

end Application

end Startup
