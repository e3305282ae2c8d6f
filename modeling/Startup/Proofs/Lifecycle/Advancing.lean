import Startup.Proofs.Lifecycle.Running

/-!
# Runs before they are reported

Whatever a run does until it completes, no entry of it tells that an application has started, and
the contexts that are there keep their identities, their names and their kinds.
-/

namespace Startup

variable {σ α β : Type} {host : Host σ} {application : Application σ} {w w' : World σ}

/-- Whether an entry tells that an application has started. -/
def Entry.tellsStart : Entry → Bool
  | startedApplication _ => true
  | _ => false

/-- What holds between two moments of a run of which the second comes before its report, if there is
one. -/
structure World.Advances (w w' : World σ) : Prop where
  grown : w.journal <+: w'.journal
  untold : ∀ name, .startedApplication name ∉ w'.since w
  keeps : ∀ id context, w.context? id = some context →
    ∃ after, w'.context? id = some after ∧ context.Keeps after
  stores : w.stores.length ≤ w'.stores.length

namespace World.Advances

theorem refl (w : World σ) : w.Advances w where
  grown := List.prefix_rfl
  untold := by
    rw [since_self]
    exact fun _ => List.not_mem_nil
  keeps _ context hContext := ⟨context, hContext, .refl context⟩
  stores := Nat.le_refl _

theorem trans {v : World σ} (h : w.Advances v) (hNext : v.Advances w') : w.Advances w' where
  grown := h.grown.trans hNext.grown
  untold name hMem := by
    rw [since_trans h.grown hNext.grown] at hMem
    exact (List.mem_append.mp hMem).elim (h.untold name) (hNext.untold name)
  keeps id context hContext := by
    obtain ⟨between, hBetween, hKeeps⟩ := h.keeps id context hContext
    obtain ⟨after, hAfter, hMore⟩ := hNext.keeps id between hBetween
    exact ⟨after, hAfter, hKeeps.trans hMore⟩
  stores := Nat.le_trans h.stores hNext.stores

theorem of_path {scope : Scope} (h : Path scope w w') : w.Advances w' where
  grown := h.journal_grows
  -- the entry is one of the run, and a scope allows none of these
  untold _ hMem := Bool.false_ne_true (scope.modest _ (h.notes_of_mem_since hMem)).symm
  keeps _ _ := h.keeps
  stores := h.length_stores

theorem note (w : World σ) {entry : Entry} (h : entry.tellsStart = false) :
    w.Advances (w.note entry) where
  grown := List.prefix_append _ _
  untold name hMem := by
    rw [since_eq (journal_note w entry), List.mem_singleton] at hMem
    rw [← hMem] at h
    cases h
  keeps _ context hContext := ⟨context, hContext, .refl context⟩
  stores := Nat.le_refl _

theorem adding (w : World σ) (context : Context) : w.Advances (w.adding context) where
  grown := List.prefix_rfl
  untold := (refl w).untold
  keeps id held hHeld := by
    obtain ⟨hIndex, -⟩ := List.getElem?_eq_some_iff.mp hHeld
    exact ⟨held, (List.getElem?_append_left hIndex).trans hHeld, .refl held⟩
  stores := Nat.le_refl _

end World.Advances

namespace Act

def Advances (act : Act σ α) : Prop :=
  ∀ ⦃w a w'⦄, act w = some (a, w') → w.Advances w'

theorem Within.advances {act : Act σ α} (h : act.Within .full) : act.Advances := by
  intro w a w' hAct
  exact .of_path (h hAct)

theorem advances_pure (a : α) : (pure a : Act σ α).Advances :=
  (within_pure a).advances

theorem Advances.bind {act : Act σ α} {f : α → Act σ β} (hAct : act.Advances)
    (hRest : ∀ a, (f a).Advances) : (act >>= f).Advances := by
  intro w b w' h
  obtain ⟨a, v, hFirst, hLast⟩ := bind_inv h
  exact (hAct hFirst).trans (hRest a hLast)

theorem advances_write {entry : Entry} (h : entry.tellsStart = false) :
    (write entry : Act σ Unit).Advances := by
  intro w a w' hWrite
  cases write_inv hWrite
  exact .note w h

end Act

theorem Environment.prepare_advances (defaults : List (String × String))
    (system : Option (List (String × String))) (arguments : List String) :
    (Environment.prepare defaults system arguments : Act σ _).Advances := by
  rw [Environment.prepare]
  cases Properties.prepare defaults system arguments with
  | error error => exact Act.advances_pure _
  | ok properties =>
    refine (Act.within_addStore properties).advances.bind fun store => ?_
    exact Act.Advances.bind (Act.advances_write rfl) fun _ => Act.advances_pure _

theorem Publisher.announce_advances (hHost : host.Within .full) (payload : RunPayload)
    (p : Publisher σ) : (p.announce host payload).Advances := by
  rw [Publisher.announce]
  split
  · refine Act.Advances.bind (Act.advances_write rfl) fun _ => ?_
    have hDeliver := deliver_within hHost { p with last := some payload.phase }
      (Scope.full_sends (p.event payload).kind) payload
    exact hDeliver.advances.bind fun _ => Act.advances_pure _
  · exact Act.advances_pure _

theorem Publisher.length_contexts_announce (hHost : host.Within .full) {payload : RunPayload}
    {p : Publisher σ} {answer : Except RunError Unit × Publisher σ}
    (h : p.announce host payload w = some (answer, w')) :
    w'.contexts.length = w.contexts.length := by
  cases announcing_of_announce h with
  | refused hAdmits => rfl
  | delivered hAdmits hDeliver =>
    exact (deliver_within hHost _ (Scope.full_sends _) payload hDeliver).length_contexts

namespace Stage

def Advances (stage : Stage σ α) : Prop :=
  ∀ progress, (stage.run.run progress).Advances

theorem advances_pure (a : α) : (pure a : Stage σ α).Advances :=
  fun _ => Act.advances_pure _

theorem Advances.bind {stage : Stage σ α} {f : α → Stage σ β} (hStage : stage.Advances)
    (hRest : ∀ a, (f a).Advances) : (stage >>= f).Advances := by
  intro progress
  rw [run_bind]
  refine (hStage progress).bind fun result => ?_
  split
  · exact hRest _ _
  · exact Act.advances_pure _

theorem Advances.forM {f : α → Stage σ Unit} (h : ∀ item, (f item).Advances) (items : List α) :
    (items.forM f).Advances := by
  induction items with
  | nil => exact advances_pure ()
  | cons item rest ih => exact (h item).bind fun _ => ih

theorem advances_attempt {ε : Type} {wrap : ε → RunError} {act : Act σ (Except ε α)}
    (h : act.Advances) : (attempt wrap act).Advances := by
  intro progress
  rw [attempt_run]
  exact h.bind fun _ => Act.advances_pure _

theorem advances_announce (hHost : host.Within .full) (payload : RunPayload) :
    (announce host payload).Advances := by
  intro progress
  rw [announce_run]
  exact (Publisher.announce_advances hHost payload _).bind fun _ => Act.advances_pure _

theorem advances_createContext (settings : MainSettings) (environment : Environment) :
    (createContext host application settings environment).Advances := by
  intro progress w answer w' h
  cases (createContext_eq host application settings environment progress w).symm.trans h
  exact (World.Advances.adding w _).trans (.note _ rfl)

end Stage

namespace Application

/-- What is done with a context before the run is announced as running. -/
def elevation (host : Host σ) (application : Application σ) (context : ContextId) :
    Stage σ Unit := do
  application.initializers.forM fun initializer =>
    Stage.attempt .startupFailed (host.perform (initializer context))
  Stage.announce host (.contextInitialized (.managed context))
  Stage.announce host (.contextLoaded (.managed context))
  Stage.attempt .delivery (context.refresh host)
  Stage.announce host (.started (.managed context))

/-- What is left of a launch once there is a context. -/
def remainder (host : Host σ) (application : Application σ) (context : ContextId) :
    Stage σ Unit := do
  application.elevation host context
  Stage.announce host (.running (.managed context))

theorem launch_eq_remainder (host : Host σ) (application : Application σ)
    (system : List (String × String)) (arguments : List String) :
    application.launch host system arguments = (do
      let environment ← Stage.attempt .setup (Environment.prepare application.defaults
        (if application.includesSystem then some system else none) arguments)
      Stage.announce host (.environmentPrepared environment)
      let settings ← Stage.attempt .setup do
        return (← Act.properties environment.store).settings
      let context ← Stage.createContext host application settings environment
      application.remainder host context
      return (context, settings)) := by
  simp only [launch, remainder, elevation, bind_assoc]

theorem elevation_advances (hHost : host.Within .full) (context : ContextId) :
    (application.elevation host context).Advances := by
  refine (Stage.Advances.forM (fun initializer => ?_) _).bind fun _ => ?_
  · exact Stage.advances_attempt (hHost.perform _ (Program.within_full _)).advances
  refine (Stage.advances_announce hHost _).bind fun _ => ?_
  refine (Stage.advances_announce hHost _).bind fun _ => ?_
  refine (Stage.advances_attempt ?_).bind fun _ => ?_
  · exact (ContextId.refresh_within hHost trivial (Scope.full_sends _)).advances
  exact Stage.advances_announce hHost _

theorem remainder_advances (hHost : host.Within .full) (context : ContextId) :
    (application.remainder host context).Advances :=
  (elevation_advances hHost context).bind fun _ => Stage.advances_announce hHost _

/-- The last that a launch does is to announce that the run is running. -/
theorem remainder_ok_inv (hHost : host.Within .full) {context : ContextId}
    {progress progress' : Progress σ}
    (h : (application.remainder host context).run.run progress w =
      some ((.ok (), progress'), w')) :
    ∃ p q v, w.Advances v ∧
      Publisher.announce host (.running (.managed context)) p v = some ((.ok (), q), w') := by
  obtain ⟨_, next, v, hFirst, hLast⟩ := Stage.bind_ok_inv h
  obtain ⟨publisher, hAnnounce, -⟩ := Stage.announce_inv hLast
  exact ⟨next.publisher, publisher, v, elevation_advances hHost context progress hFirst, hAnnounce⟩

theorem launch_advances (hHost : host.Within .full) (system : List (String × String))
    (arguments : List String) : (application.launch host system arguments).Advances := by
  rw [launch_eq_remainder]
  refine (Stage.advances_attempt (Environment.prepare_advances _ _ _)).bind fun _ => ?_
  refine (Stage.advances_announce hHost _).bind fun _ => ?_
  refine (Stage.advances_attempt ?_).bind fun _ => ?_
  · exact (Act.within_properties _).advances.bind fun _ => Act.advances_pure _
  refine (Stage.advances_createContext _ _).bind fun _ => ?_
  exact (remainder_advances hHost _).bind fun _ => Stage.advances_pure _

theorem start_advances (hHost : host.Within .full) (arguments : List String) :
    (application.start host arguments).Advances := by
  have hCreate : (Publisher.create host application arguments).Within .full :=
    Publisher.create_within host _ _
  refine hCreate.advances.bind fun p => ?_
  exact Act.Advances.bind (Act.advances_write rfl) fun _ =>
    Publisher.announce_advances hHost _ p

theorem reportFailure_advances (hHost : host.Within .full) (progress : Progress σ)
    (error : RunError) : (reportFailure host application progress error).Advances := by
  refine Act.Advances.bind (Act.advances_write rfl) fun _ => ?_
  refine Act.Advances.bind ?_ fun _ => Act.Advances.bind ?_ fun _ => Act.advances_pure _
  · refine (Publisher.announce_advances hHost _ _).bind fun (reported, _) => ?_
    cases reported with
    | error error => exact Act.advances_write rfl
    | ok _ => exact Act.advances_pure _
  · unfold closeContext
    cases progress.context with
    | none => exact Act.advances_pure _
    | some context =>
      have hClose := context.close_within hHost trivial (Scope.full_sends _)
      refine hClose.advances.bind fun closed => ?_
      cases closed with
      | error error => exact Act.advances_write rfl
      | ok _ => exact Act.advances_pure _

end Application

end Startup
