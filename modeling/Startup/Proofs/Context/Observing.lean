import Startup.Proofs.Context.Moments

/-!
# What an observer sees

An observer of a host that runs programs to a depth sees the moments of all that it does: of the
turns of a delivery, of the operations of a context, of the answer to any request.
-/

namespace Startup

variable {σ α : Type} {o : Observer σ}

namespace View

variable {id : ContextId} {event : Event} {w : World σ} {context : Context}

theorem next_publishes_active (hContext : w.context? id = some context)
    (hActive : context.isActive = true) :
    w.view.next (.publishes id event w) = (w.note (id.opening context event)).view := by
  ext1
  · exact funext fun _ => collections_next_of_adds_eq_nil _ rfl
  · simp only [next, World.view, Moment.announces, hContext, hActive, World.journal_note,
      List.filter_append]
    rfl

theorem next_publishes_inactive (hContext : w.context? id = some context)
    (hInactive : ¬ context.isActive = true) :
    w.view.next (.publishes id event w) = w.view := by
  ext1
  · exact funext fun _ => collections_next_of_adds_eq_nil _ rfl
  · simp [next, Moment.announces, hContext, hInactive]

theorem next_joins (v w : World σ) (id : ContextId) (r : Registration) :
    v.view.next (.joins id r w) = (v.modifyContext id fun context =>
      { context with multicaster := context.multicaster.register r }).view := by
  ext1
  · funext other
    by_cases hOther : other = id
    · simp only [next, World.view, World.multicasterOf, World.context?_modifyContext, Moment.adds,
        if_pos hOther, Option.map_map]
      rfl
    · have hNone : (Moment.joins id r w).adds other = [] := if_neg hOther
      rw [collections_next_of_adds_eq_nil _ hNone]
      simp only [World.view, World.multicasterOf, World.context?_modifyContext, if_neg hOther]
  · exact List.append_nil _

end View

namespace Observer

structure Sees (o : Observer σ) : Prop where
  perform : ∀ {α : Type} (program : Program σ α),
    (o.host.perform program).Shows (o.during program)

namespace Sees

/-- What delivers no event and adds no listener is seen as nothing. -/
theorem quiet {q : Request σ} (hCalm : q.Calm) (hQuiet : q.Quiet none) :
    (o.host.answer q).Shows fun _ => [] := by
  apply Act.shows_nothing
  intro w a w' hAnswer
  have hPlain : Entry.Accumulates fun entries => ∀ entry ∈ entries, entry.isBroadcast = false :=
    ⟨fun _ h => h, fun _ _ ha hb entry hEntry => (List.mem_append.mp hEntry).elim (ha entry)
      (hb entry)⟩
  obtain ⟨hGrown, hWritten⟩ := Host.answer_calm_writes o.host hPlain hCalm hAnswer
  exact World.view_eq_of_writes hGrown hWritten
    ((o.host.answer_hushed q hQuiet (World.idle_none w) hAnswer).multicasters rfl)

theorem subscribe (id : ContextId) (listener : ListenerId) :
    (id.subscribe o.host listener).Shows (o.subscribe id listener) where
  leads w := ⟨rfl, trivial⟩
  ends := by
    intro w a w' hSubscribe
    obtain ⟨r, v, hEnlist, hModify⟩ := Act.bind_inv hSubscribe
    have hSame : v.view = w.view := (quiet (q := .enlist listener) trivial trivial).ends hEnlist
    rw [Act.modifyContext_apply] at hModify
    cases hModify
    rw [Observer.subscribe, hEnlist, ← View.next_joins v w, hSame]
    rfl

variable (h : o.Sees)

include h

theorem turns (origin : Origin) (event : Event) (registrations : List Registration)
    (invoked : Nat) :
    (o.host.invokeAll origin .propagate event registrations invoked).Shows
      (o.turns origin event registrations) := by
  induction registrations generalizing invoked with
  | nil => exact Act.shows_pure _
  | cons r rest ih =>
    refine Act.Shows.note ((h.perform _).bind fun answer => ?_) rfl
    cases answer with
    | ok _ => exact ih (invoked + 1)
    | error cause =>
      -- the failure is propagated, so nobody behind it has a turn
      apply Act.shows_nothing
      intro w outcome v hJudge
      cases hJudge
      exact World.view_note w rfl

theorem publish (id : ContextId) (event : Event) :
    (id.publish o.host event).Shows (o.publish id event) where
  leads w := by
    refine ⟨rfl, ?_⟩
    split
    · rename_i context hContext
      split
      · rename_i hActive
        rw [View.next_publishes_active hContext hActive]
        exact (h.turns _ event _ 0).leads _
      · exact trivial
    · exact trivial
  ends := by
    intro w outcome w' hPublish
    rw [Observer.publish, View.after, List.foldl_cons, ← View.after]
    cases ContextId.publishing_of_publish hPublish with
    | @rejected context hContext hState =>
      have hInactive : ¬ context.isActive = true := by simp [Context.isActive, hState]
      rw [View.next_publishes_inactive hContext hInactive, hContext]
      simp only [if_neg hInactive]
      rfl
    | @delivered context _ _ hContext hState hDeliver =>
      have hActive : context.isActive = true := by simp [Context.isActive, hState]
      obtain ⟨count, v, hInvoke, hPure⟩ := Act.bind_inv hDeliver
      cases hPure
      rw [View.next_publishes_active hContext hActive, hContext]
      simp only [if_pos hActive]
      exact (h.turns _ event _ 0).ends hInvoke

theorem refresh (id : ContextId) : (id.refresh o.host).Shows (o.refresh id) where
  leads w := by
    rw [Observer.refresh]
    split
    · split
      · rw [← World.view_setState w id .active]
        exact (h.publish id _).leads _
      · exact trivial
    · exact trivial
  ends := by
    intro w outcome w' hRefresh
    rw [Observer.refresh]
    cases ContextId.refreshing_of_refresh hRefresh with
    | rejected hContext hState =>
      simp only [hContext, if_neg hState]
      rfl
    | failed hContext hState hPublish =>
      simp only [hContext, if_pos hState]
      rw [World.view_note _ rfl, World.view_setState, (h.publish id _).ends hPublish,
        World.view_setState]
    | succeeded hContext hState hPublish hAfter =>
      simp only [hContext, if_pos hState]
      rw [World.view_note _ rfl, (h.publish id _).ends hPublish, World.view_setState]

theorem close (id : ContextId) : (id.close o.host).Shows (o.close id) where
  leads w := by
    rw [Observer.close]
    split
    · split
      · exact (h.publish id _).leads _
      · exact trivial
    · exact trivial
  ends := by
    intro w outcome w' hClose
    rw [Observer.close]
    cases ContextId.closing_of_close hClose with
    | idle hContext hState =>
      simp only [hContext, hState]
      rfl
    | silent hContext hState =>
      simp only [hContext, hState]
      rw [World.view_note _ rfl, World.view_setState]
      rfl
    | announced hContext hState hPublish =>
      simp only [hContext, if_pos hState]
      rw [World.view_note _ rfl, World.view_setState, (h.publish id _).ends hPublish]

theorem answering (q : Request σ) : (o.host.answer q).Shows (o.answering q) := by
  cases q with
  | publish context event =>
    cases context with
    | managed id => exact h.publish id event
    | foreign id => exact h.perform _
  | subscribe context listener =>
    cases context with
    | managed id => exact subscribe id listener
    | foreign id => exact h.perform _
  | refresh context => exact h.refresh context
  | close context => exact h.close context
  | broadcast multicaster event =>
    exact (h.turns .other event _ 0).note rfl
  | _ => exact quiet trivial trivial

theorem interpreting (program : Program σ α) :
    (program.interpret o.host.answer).Shows (o.interpreting program) := by
  induction program with
  | done value => exact Act.shows_pure value
  | ask q next ih => exact (h.answering q).bind ih

end Sees

theorem sees_ofDepth (directory : Directory σ) (depth : Nat) : (ofDepth directory depth).Sees := by
  induction depth with
  | zero => exact ⟨fun program => ⟨fun _ => trivial, nofun⟩⟩
  | succ depth ih =>
    constructor
    intro α program
    have hProgram := ih.interpreting program
    rw [host_ofDepth] at hProgram
    exact hProgram

end Observer

end Startup
