import Startup.Proofs.Context.Quiet
import Startup.Proofs.Lifecycle.Mirroring
import Startup.Proofs.Lifecycle.Phases

/-!
# Runs with a silent listener

An application may be given a silent listener, anywhere among its listeners: the run ends as
it did, at the same error if there is one, and calls all others in the same sequence.
-/

namespace Startup

variable {σ α β ε : Type} {o : ListenerId} {host host' : Host σ}

def Progress.without (progress : Progress σ) (o : ListenerId) : Progress σ :=
  { progress with publisher := progress.publisher.without o }

section

variable (h : host.Mirrors o host')
include h

theorem BuildStep.apply_repeats (id : ContextId) (step : BuildStep) :
    (step.apply host id).Repeats o (step.apply host' id) := by
  cases step with
  | kind value => exact Act.mirrors_modifyContext_apart id fun _ _ => rfl
  | displayName value => exact Act.mirrors_modifyContext_apart id fun _ _ => rfl
  | bean value => exact id.register_repeats value
  | listener value => exact h.subscribe id value

theorem ContextId.build_repeats (steps : List BuildStep) :
    (build host steps).Repeats o (build host' steps) := by
  refine (Act.mirrors_addContext _).andThen fun id => ?_
  have hSteps : (steps.forM fun step => step.apply host id).Repeats o
      (steps.forM fun step => step.apply host' id) := by
    induction steps with
    | nil => exact Act.mirrors_pure rfl
    | cons step steps ih => exact (step.apply_repeats h id).andThen fun _ => ih
  exact hSteps.andThen fun _ => Act.mirrors_pure rfl

end

/-- Whether a call brings an event to a listener. -/
def Call.reaches (o : ListenerId) : Call → Bool
  | event _ listener _ => listener == o
  | context _ => false

theorem Entry.calls_without (o : ListenerId) (entries : List Entry) :
    calls (entries.filterMap (Entry.without? o)) =
      (calls entries).filter fun call => !call.reaches o := by
  rw [calls, calls, List.filterMap_filterMap, List.filter_filterMap]
  congr 1
  funext entry
  cases entry with
  | registered r => by_cases hOwn : r.listener = o <;> simp [without?, call?, hOwn]
  | invoking origin listener name kind =>
    by_cases hOwn : listener = o <;> simp [without?, call?, Call.reaches, Option.filter, hOwn]
  | _ => rfl

/-- In worlds that are alike all other listeners were called in the same sequence. -/
theorem World.Alike.calls {w v : World σ} (h : w.Alike o v) :
    (Entry.calls w.journal).filter (fun call => !call.reaches o) =
      (Entry.calls v.journal).filter fun call => !call.reaches o := by
  rw [← Entry.calls_without, ← Entry.calls_without, h.journal]

namespace Stage

/-- From the same progress, but for a listener, two stages go the same way. -/
def Mirrors (o : ListenerId) (stage stage' : Stage σ α) : Prop :=
  ∀ ⦃progress progress' : Progress σ⦄, progress.without o = progress'.without o →
    (stage.run.run progress).Mirrors o (fun r => (r.1, r.2.without o)) (stage'.run.run progress')

theorem mirrors_pure (a : α) : (pure a : Stage σ α).Mirrors o (pure a) := by
  intro progress progress' hSame
  exact Act.mirrors_pure (congrArg (Prod.mk _) hSame)

theorem Mirrors.bind {stage stage' : Stage σ α} {f g : α → Stage σ β}
    (hStage : stage.Mirrors o stage') (hRest : ∀ a, (f a).Mirrors o (g a)) :
    (stage >>= f).Mirrors o (stage' >>= g) := by
  intro progress progress' hSame
  rw [run_bind, run_bind]
  refine (hStage hSame).bind fun a b hEnd => ?_
  obtain ⟨outcome, next⟩ := a
  obtain ⟨outcome', next'⟩ := b
  obtain ⟨rfl, hNext⟩ := Prod.mk.inj hEnd
  cases outcome with
  | ok a => exact hRest a hNext
  | error error => exact Act.mirrors_pure (congrArg (Prod.mk _) hNext)

theorem Mirrors.forM {f g : α → Stage σ Unit} (items : List α)
    (hEach : ∀ item ∈ items, (f item).Mirrors o (g item)) :
    (items.forM f).Mirrors o (items.forM g) := by
  induction items with
  | nil => exact mirrors_pure ()
  | cons item rest ih =>
    refine (hEach item (List.mem_cons_self ..)).bind fun _ => ?_
    exact ih fun other hOther => hEach other (List.mem_cons_of_mem _ hOther)

theorem mirrors_attempt {wrap : ε → RunError} {act act' : Act σ (Except ε α)}
    (hAct : act.Repeats o act') : (attempt wrap act).Mirrors o (attempt wrap act') := by
  intro progress progress' hSame
  rw [attempt_run, attempt_run]
  exact hAct.andThen fun outcome => Act.mirrors_pure (congrArg (Prod.mk _) hSame)

variable (h : host.Mirrors o host')
include h

theorem mirrors_announce {payload : RunPayload}
    (hManaged : ∀ ref, payload.context? = some ref → ∃ id, ref = .managed id) :
    (announce host payload).Mirrors o (announce host' payload) := by
  intro progress progress' hSame
  obtain ⟨hPublisher, hContext⟩ := Progress.mk.inj hSame
  rw [announce_run, announce_run]
  refine (h.announce hManaged hPublisher).bind fun a b hEnd => Act.mirrors_pure ?_
  obtain ⟨hOutcome, hNext⟩ := Prod.mk.inj hEnd
  rw [hOutcome, Progress.without, Progress.without, hNext, hContext]

theorem mirrors_createContext {a b : Application σ} (hSame : a.without o = b.without o)
    (settings : MainSettings) (environment : Environment) :
    (createContext host a settings environment).Mirrors o
      (createContext host' b settings environment) := by
  intro progress progress' hProgress
  obtain ⟨listeners, rfl, -⟩ := Application.eq_of_without hSame
  obtain ⟨hPublisher, -⟩ := Progress.mk.inj hProgress
  rw [createContext_run, createContext_run]
  refine (ContextId.build_repeats h _).andThen fun id => ?_
  refine (id.register_repeats _).andThen fun _ => ?_
  refine Act.mirrors_reading id fun c m _ => ?_
  refine (Act.mirrors_write rfl).andThen fun _ => Act.mirrors_pure ?_
  rw [Progress.without, Progress.without, hPublisher]

end Stage

theorem Environment.prepare_repeats (defaults : List (String × String))
    (system : Option (List (String × String))) (arguments : List String) :
    (prepare defaults system arguments : Act σ _).Repeats o
      (prepare defaults system arguments) := by
  rw [prepare]
  cases Properties.prepare defaults system arguments with
  | error error => exact Act.mirrors_pure rfl
  | ok properties =>
    refine (Act.mirrors_addStore properties).andThen fun store => ?_
    exact (Act.mirrors_write rfl).andThen fun _ => Act.mirrors_pure rfl

namespace Application

section

variable (h : host.Mirrors o host') {a b : Application σ} (hSame : a.without o = b.without o)
include h hSame

theorem launch_mirrors (hInitializers : ∀ initializer ∈ a.initializers, ∀ id,
      (initializer id).Asks Request.Incurious)
    (system : List (String × String)) (arguments : List String) :
    Stage.Mirrors o (a.launch host system arguments) (b.launch host' system arguments) := by
  have hCreate := Stage.mirrors_createContext h hSame
  obtain ⟨listeners, rfl, -⟩ := eq_of_without hSame
  have hAnnounce (id : ContextId) (payload : RunPayload)
      (hTells : payload.context? = some (.managed id)) :
      Stage.Mirrors o (.announce host payload) (.announce host' payload) :=
    Stage.mirrors_announce h fun ref hRef => ⟨id, Option.some.inj (hRef.symm.trans hTells)⟩
  refine (Stage.mirrors_attempt (Environment.prepare_repeats _ _ _)).bind fun environment => ?_
  refine (Stage.mirrors_announce h (by rintro ref ⟨⟩)).bind fun _ => ?_
  refine (Stage.mirrors_attempt
    ((Act.mirrors_properties environment.store).andThen fun _ => Act.mirrors_pure rfl)).bind
      fun settings => ?_
  refine (hCreate settings environment).bind fun id => ?_
  refine (Stage.Mirrors.forM _ fun initializer hMem =>
    Stage.mirrors_attempt (h.perform _ (hInitializers initializer hMem id))).bind fun _ => ?_
  refine (hAnnounce id _ rfl).bind fun _ => (hAnnounce id _ rfl).bind fun _ => ?_
  refine (Stage.mirrors_attempt (h.refresh id)).bind fun _ => ?_
  refine (hAnnounce id _ rfl).bind fun _ => (hAnnounce id _ rfl).bind fun _ => ?_
  exact Stage.mirrors_pure _

theorem start_mirrors (arguments : List String) :
    (a.start host arguments).Mirrors o (fun r => (r.1, r.2.without o))
      (b.start host' arguments) := by
  refine (h.create hSame arguments).bind fun p q hPublisher => ?_
  obtain ⟨listeners, rfl, -⟩ := eq_of_without hSame
  exact (Act.mirrors_write rfl).andThen fun _ => h.announce (by rintro ref ⟨⟩) hPublisher

theorem reportFailure_repeats {progress progress' : Progress σ}
    (hProgress : progress.without o = progress'.without o) (error : RunError) :
    (reportFailure host a progress error).Repeats o (reportFailure host' b progress' error) := by
  obtain ⟨listeners, rfl, -⟩ := eq_of_without hSame
  obtain ⟨hPublisher, hContext⟩ := Progress.mk.inj hProgress
  have hAnnounce : (announceFailure host a progress error.toCause).Repeats o
      (announceFailure host' { a with listeners := listeners } progress' error.toCause) := by
    rw [announceFailure, announceFailure, ← hContext]
    refine (h.announce ?_ hPublisher).bind fun r s hEnd => ?_
    · intro ref hRef
      obtain ⟨id, -, hManaged⟩ := Option.map_eq_some_iff.mp hRef
      exact ⟨id, hManaged.symm⟩
    · obtain ⟨hOutcome, -⟩ := Prod.mk.inj hEnd
      dsimp only
      rw [hOutcome]
      cases s.1 with
      | ok _ => exact Act.mirrors_pure rfl
      | error error => exact Act.mirrors_write rfl
  have hClose : (closeContext host a progress).Repeats o
      (closeContext host' { a with listeners := listeners } progress') := by
    rw [closeContext, closeContext, ← hContext]
    cases progress.context with
    | none => exact Act.mirrors_pure rfl
    | some id =>
      refine (h.close id).andThen fun outcome => ?_
      cases outcome with
      | ok _ => exact Act.mirrors_pure rfl
      | error error => exact Act.mirrors_write rfl
  refine (Act.mirrors_write rfl).andThen fun _ => hAnnounce.andThen fun _ => ?_
  exact hClose.andThen fun _ => Act.mirrors_pure rfl

theorem run_repeats (hInitializers : ∀ initializer ∈ a.initializers, ∀ id,
      (initializer id).Asks Request.Incurious)
    (system : List (String × String)) (arguments : List String) :
    (a.run host system arguments).Repeats o (b.run host' system arguments) := by
  refine (start_mirrors h hSame arguments).bind fun r s hStarted => ?_
  obtain ⟨started, p⟩ := r
  obtain ⟨started', q⟩ := s
  obtain ⟨rfl, hPublisher⟩ := Prod.mk.inj hStarted
  cases started with
  | error error => exact Act.mirrors_pure rfl
  | ok _ =>
    have hBegun : (⟨p, none⟩ : Progress σ).without o = (⟨q, none⟩ : Progress σ).without o := by
      rw [Progress.without, Progress.without, hPublisher]
    refine (launch_mirrors h hSame hInitializers system arguments hBegun).bind fun r s hEnd => ?_
    obtain ⟨outcome, progress⟩ := r
    obtain ⟨outcome', progress'⟩ := s
    obtain ⟨rfl, hProgress⟩ := Prod.mk.inj hEnd
    cases outcome with
    | ok result =>
      obtain ⟨listeners, rfl, -⟩ := eq_of_without hSame
      refine Act.Mirrors.ite ?_ (Act.mirrors_pure rfl)
      exact (Act.mirrors_write rfl).andThen fun _ => Act.mirrors_pure rfl
    | error error =>
      exact (reportFailure_repeats h hSame hProgress error).andThen fun _ => Act.mirrors_pure rfl

end

variable {directory : Directory σ} {system : List (String × String)} {arguments : List String}
  {w w' v' : World σ} {outcome outcome' : Except RunError ContextId}

/-- A run comes back, if calls may nest deep enough for it. -/
def Ends (application : Application σ) (directory : Directory σ)
    (system : List (String × String)) (arguments : List String) (w : World σ)
    (outcome : Except RunError ContextId) (w' : World σ) : Prop :=
  ∃ depth, application.run (Host.ofDepth directory depth) system arguments w = some (outcome, w')

theorem initializers_of_without {a b : Application σ} (h : a.without o = b.without o) :
    a.initializers = b.initializers := by
  obtain ⟨listeners, rfl, -⟩ := eq_of_without h
  rfl

def insertListener (application : Application σ) (position : Nat) (o : ListenerId) :
    Application σ :=
  { application with listeners := application.listeners.insertIdx position o }

theorem without_insertListener (application : Application σ) (position : Nat) :
    (application.insertListener position o).without o = application.without o := by
  have hListeners (ids : List ListenerId) :
      (ids.insertIdx position o).filter (fun id => !(id == o)) =
        ids.filter fun id => !(id == o) := by
    induction ids generalizing position with
    | nil => cases position <;> simp
    | cons id ids ih =>
      cases position with
      | zero => simp
      | succ position => rw [List.insertIdx_succ_cons, List.filter_cons, List.filter_cons, ih]
  rw [without, insertListener, hListeners, without]

section

variable (hSilent : directory.Silent o) (hIncurious : directory.Incurious o)
  {a b : Application σ} (hSame : a.without o = b.without o)
  (hInitializers : ∀ initializer ∈ a.initializers, ∀ id,
    (initializer id).Asks Request.Incurious)
include hSilent hIncurious hSame hInitializers

/-- A run that came back at some depth does so at every greater one, with the listener or not. -/
theorem run_deeper {depth deeper : Nat} (hDeeper : depth < deeper)
    (h : a.run (Host.ofDepth directory depth) system arguments w = some (outcome, w')) :
    ∃ v', b.run (Host.ofDepth directory deeper) system arguments w = some (outcome, v') ∧
      w'.Alike o v' := by
  have hStep (depth : Nat) := Host.mirrors_ofDepth hSilent hIncurious depth
  have hInitializers' := initializers_of_without hSame ▸ hInitializers
  induction hDeeper with
  | refl =>
    obtain ⟨_, v', hRun, rfl, hEnd⟩ :=
      run_repeats (hStep depth) hSame hInitializers system arguments (.refl w) h
    exact ⟨v', hRun, hEnd⟩
  | @step deeper _ ih =>
    obtain ⟨u, hBefore, hAlike⟩ := ih
    obtain ⟨_, v', hRun, rfl, hEnd⟩ := run_repeats (hStep deeper) rfl hInitializers'
      system arguments (.refl w) hBefore
    exact ⟨v', hRun, hAlike.trans hEnd⟩

theorem Ends.alike (h : a.Ends directory system arguments w outcome w')
    (h' : b.Ends directory system arguments w outcome' v') :
    outcome = outcome' ∧ w'.Alike o v' := by
  obtain ⟨depth, hRun⟩ := h
  obtain ⟨depth', hRun'⟩ := h'
  have hInitializers' := initializers_of_without hSame ▸ hInitializers
  have hFirst : depth < max depth depth' + 1 := Nat.lt_succ_of_le (Nat.le_max_left ..)
  have hSecond : depth' < max depth depth' + 1 := Nat.lt_succ_of_le (Nat.le_max_right ..)
  -- both come back at a common depth, where a run has but one end
  obtain ⟨u, hDeep, hAlike⟩ := run_deeper hSilent hIncurious hSame hInitializers hFirst hRun
  obtain ⟨u', hDeep', hAlike'⟩ :=
    run_deeper hSilent hIncurious rfl hInitializers' hSecond hRun'
  cases hDeep.symm.trans hDeep'
  exact ⟨rfl, hAlike.trans hAlike'.symm⟩

end

/-- A silent listener does not disturb a run, wherever among the listeners it stands: the run comes
back if and only if it does without, with the same answer and in a world that is alike, where all
other listeners were called in the same sequence. -/
theorem run_undisturbed (hSilent : directory.Silent o) (hIncurious : directory.Incurious o)
    {application : Application σ}
    (hInitializers : ∀ initializer ∈ application.initializers, ∀ id,
      (initializer id).Asks Request.Incurious)
    (position : Nat) (system : List (String × String)) (arguments : List String) (w : World σ) :
    ((∃ outcome w', application.Ends directory system arguments w outcome w') ↔
      ∃ outcome v', (application.insertListener position o).Ends directory system arguments w
        outcome v') ∧
    ∀ outcome w' observed v', application.Ends directory system arguments w outcome w' →
      (application.insertListener position o).Ends directory system arguments w observed v' →
        observed = outcome ∧ w'.Alike o v' ∧
          (Entry.calls v'.journal).filter (fun call => !call.reaches o) =
            (Entry.calls w'.journal).filter fun call => !call.reaches o := by
  have hSame := without_insertListener (o := o) application position
  have hInitializers' : ∀ initializer ∈ (application.insertListener position o).initializers,
      ∀ id, (initializer id).Asks Request.Incurious := hInitializers
  constructor
  · constructor
    · rintro ⟨outcome, w', depth, hRun⟩
      obtain ⟨v', hObserved, -⟩ := run_deeper hSilent hIncurious hSame.symm hInitializers
        (Nat.lt_succ_self depth) hRun
      exact ⟨outcome, v', depth + 1, hObserved⟩
    · rintro ⟨outcome, v', depth, hRun⟩
      obtain ⟨w', hPlain, -⟩ := run_deeper hSilent hIncurious hSame hInitializers'
        (Nat.lt_succ_self depth) hRun
      exact ⟨outcome, w', depth + 1, hPlain⟩
  · intro outcome w' observed v' hEnds hObserved
    obtain ⟨rfl, hAlike⟩ :=
      hEnds.alike hSilent hIncurious hSame.symm hInitializers hObserved
    exact ⟨rfl, hAlike, hAlike.symm.calls⟩

theorem run_undisturbed_faulty :
    ∃ outcome w' v', (faulty.addListener ⟨1⟩).Ends default [] [] default outcome w' ∧
      ((faulty.addListener ⟨1⟩).insertListener 0 ⟨0⟩).Ends default [] [] default outcome v' ∧
        w'.Alike ⟨0⟩ v' := by
  have hSilent : (default : Directory Unit).Silent ⟨0⟩ := ⟨fun _ => rfl, fun _ _ _ => rfl, rfl⟩
  have hIncurious : (default : Directory Unit).Incurious ⟨0⟩ :=
    ⟨fun _ _ _ => trivial, fun _ _ => nofun, fun _ _ => trivial, fun _ _ => trivial⟩
  have hInitializers : ∀ initializer ∈ (faulty.addListener ⟨1⟩).initializers, ∀ id,
      (initializer id).Asks Request.Incurious := by
    intro initializer hMem
    cases List.mem_singleton.mp hMem
    exact fun _ => trivial
  obtain ⟨⟨outcome, w'⟩, hRun, -⟩ := (Option.any_eq_true _ _).mp
    (show ((faulty.addListener ⟨1⟩).run (Host.ofDepth default 2) [] [] default).any
      fun _ => true by decide +kernel)
  obtain ⟨hEnds, hSame⟩ := run_undisturbed hSilent hIncurious hInitializers 0 [] [] default
  obtain ⟨observed, v', hObserved⟩ := hEnds.mp ⟨outcome, w', 2, hRun⟩
  obtain ⟨rfl, hAlike, -⟩ := hSame outcome w' observed v' ⟨2, hRun⟩ hObserved
  exact ⟨observed, w', v', ⟨2, hRun⟩, hObserved, hAlike⟩

end Application

end Startup
