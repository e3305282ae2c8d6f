import Startup.Proofs.Context.Quiet
import Startup.Proofs.Lifecycle.Announcing

/-!
# What quiet listeners hear

Where listeners are quiet, a delivery that does not fail calls the listeners of its registrations
and nobody else, and so every operation of a publisher or a context calls those that it is to call.
A delivery that fails leaves the failure of a listener in the journal.
-/

namespace Startup

variable {σ ε α β : Type} {directory : Directory σ} {depth : Nat} {host : Host σ}
  {origin : Origin} {event : Event} {w w' : World σ} {id : ContextId}

/-- Whether listeners add no listeners and deliver nothing. -/
structure Directory.Quiet (directory : Directory σ) : Prop where
  onEvent : ∀ id event, ((directory.listener id).onEvent event).Quiet none
  onContext : ∀ id supply, (directory.listener id).onContext = some supply →
    ∀ context, (supply context).Quiet none

namespace World

def HearsFailure (w w' : World σ) : Prop :=
  w.journal <+: w'.journal ∧ ∃ name kind cause, .listenerFailed name kind cause ∈ w'.since w

theorem HearsFailure.after {v : World σ} (h : v.HearsFailure w')
    (hGrown : w.journal <+: v.journal) : w.HearsFailure w' := by
  obtain ⟨hNext, name, kind, cause, hMem⟩ := h
  refine ⟨hGrown.trans hNext, name, kind, cause, ?_⟩
  rw [since_trans hGrown hNext]
  exact List.mem_append_right _ hMem

theorem HearsFailure.before {v : World σ} (h : w.HearsFailure v)
    (hGrown : v.journal <+: w'.journal) : w.HearsFailure w' := by
  obtain ⟨hFirst, name, kind, cause, hMem⟩ := h
  refine ⟨hFirst.trans hGrown, name, kind, cause, ?_⟩
  rw [since_trans hFirst hGrown]
  exact List.mem_append_left _ hMem

/-- A delivery makes all its calls, or fails with a listener. -/
def Delivers (calls : List Call) (w w' : World σ) : Except ε α → Prop
  | .ok _ => w.Hears none calls w'
  | .error _ => w.HearsFailure w'

theorem Delivers.map {calls : List Call} {outcome : Except ε α} (h : w.Delivers calls w' outcome)
    (f : α → β) : w.Delivers calls w' (outcome.map f) := by
  cases outcome <;> exact h

theorem Delivers.mapError {calls : List Call} {outcome : Except ε α}
    (h : w.Delivers calls w' outcome) (f : ε → β) : w.Delivers calls w' (outcome.mapError f) := by
  cases outcome <;> exact h

theorem Delivers.later {v : World σ} {calls : List Call} {outcome : Except ε α}
    (h : v.Delivers calls w' outcome) (hFirst : w.Hears none [] v) :
    w.Delivers calls w' outcome := by
  cases outcome with
  | ok _ => exact hFirst.trans h
  | error _ => exact h.after hFirst.grown

theorem Delivers.note {calls : List Call} {outcome : Except ε α} {entry : Entry}
    (h : (w.note entry).Delivers calls w' outcome) (hEntry : entry.call? = none) :
    w.Delivers calls w' outcome := by
  have hNote : w.Hears none _ (w.note entry) := .note w entry
  rw [Entry.calls, List.filterMap_cons_none hEntry] at hNote
  exact h.later hNote

end World

namespace Host

theorem Turns.hears (hQuiet : directory.Quiet) {registrations : List Registration}
    (h : Turns (ofDepth directory depth) origin .propagate event registrations w w') :
    w.Hears none (Call.turns origin event.kind registrations) w' := by
  induction h with
  | nil w => exact .refl w
  | @cons r rest w w₁ w' hTurn _ ih =>
    have hFirst : w.Hears none [.event origin r.listener event.kind] w₁ := by
      cases hTurn with
      | handled hPerform =>
        rw [listener, directory_ofDepth] at hPerform
        have hNote : w.Hears none _ _ :=
          .note w (.invoking origin r.listener r.name event.kind)
        exact hNote.trans (perform_hushed directory depth (hQuiet.onEvent r.listener event)
          (World.idle_none _) hPerform)
      | judged _ hJudge => cases hJudge
    exact hFirst.trans ih

theorem invokeAll_delivers (hQuiet : directory.Quiet) {registrations : List Registration}
    {invoked : Nat} {outcome : Except DeliveryError Nat}
    (h : (ofDepth directory depth).invokeAll origin .propagate event registrations invoked w =
      some (outcome, w')) :
    w.Delivers (Call.turns origin event.kind registrations) w' outcome := by
  have hHost := ofDepth_within directory.within_full depth
  cases outcome with
  | ok count => exact Turns.hears hQuiet (invokeAll_ok_iff.mp h).2
  | error error =>
    have hSends := Scope.full_sends event.kind
    obtain ⟨name, cause, -, hMem⟩ := listenerFailed_mem_of_error hHost hSends h
    exact ⟨(invokeAll_within hHost (propagate_within hSends.failed) _ _
      (fun _ _ => hSends.invoking _ _ _) h).journal_grows, name, event.kind, cause, hMem⟩

theorem broadcast_delivers (hQuiet : directory.Quiet) {multicaster : Multicaster}
    {outcome : Except DeliveryError Nat}
    (h : (ofDepth directory depth).broadcast origin .propagate multicaster event w =
      some (outcome, w')) :
    w.Delivers (Call.turns origin event.kind (multicaster.matching event.kind)) w' outcome := by
  obtain ⟨_, _, hWrite, hInvoke⟩ := Act.bind_inv h
  cases Act.write_inv hWrite
  exact (invokeAll_delivers hQuiet hInvoke).note rfl

end Host

namespace ContextId

theorem publish_delivers (hQuiet : directory.Quiet) {multicaster : Multicaster}
    {outcome : Except DeliveryError Unit} (hActive : w.stateOf id = some .active)
    (hHeld : w.multicasterOf id = some multicaster)
    (h : id.publish (Host.ofDepth directory depth) event w = some (outcome, w')) :
    w.Delivers (Call.turns (.context id) event.kind (multicaster.matching event.kind)) w'
      outcome := by
  cases publishing_of_publish h with
  | rejected hContext hState =>
    rw [stateOf_of_context? hContext] at hActive
    exact absurd (Option.some.inj hActive) hState
  | delivered hContext hState hDeliver =>
    cases (multicasterOf_of_context? hContext).symm.trans hHeld
    obtain ⟨answer, w₁, hInvoke, hPure⟩ := Act.bind_inv hDeliver
    cases hPure
    exact ((Host.invokeAll_delivers hQuiet hInvoke).map _).note rfl

/-- A context that was just created gets active by a refresh and keeps its listeners, unless a
listener fails. -/
theorem refresh_delivers (hQuiet : directory.Quiet) {multicaster : Multicaster}
    {outcome : Except DeliveryError Unit} (hCreated : w.stateOf id = some .created)
    (hHeld : w.multicasterOf id = some multicaster)
    (h : id.refresh (Host.ofDepth directory depth) w = some (outcome, w')) :
    (outcome = .ok () ∧ w.journal <+: w'.journal ∧
      Entry.calls (w'.since w) = Call.turns (.context id) (.context .refreshed)
        (multicaster.matching (.context .refreshed)) ∧
      w'.stateOf id = some .active ∧ w'.multicasterOf id = some multicaster) ∨
    ∃ error, outcome = .error error ∧ w.HearsFailure w' := by
  have hActive : (w.setState id .active).stateOf id = some .active := by
    rw [World.stateOf_setState, if_pos rfl, hCreated, Option.map_some]
  have hKept : (w.setState id .active).multicasterOf id = some multicaster := by
    obtain ⟨context, hContext, rfl⟩ := Option.map_eq_some_iff.mp hHeld
    rw [World.multicasterOf, World.setState, World.context?_modifyContext, if_pos rfl, hContext]
    rfl
  cases refreshing_of_refresh h with
  | rejected hContext hState =>
    rw [stateOf_of_context? hContext] at hCreated
    exact absurd (Option.some.inj hCreated) hState
  | failed hContext hState hPublish =>
    have hFailure : w.HearsFailure _ := publish_delivers hQuiet hActive hKept hPublish
    exact .inr ⟨_, rfl, hFailure.before (List.prefix_append _ _)⟩
  | @succeeded context after w₁ hContext hState hPublish hAfter =>
    have hHears : (w.setState id .active).Hears none _ w₁ :=
      publish_delivers hQuiet hActive hKept hPublish
    have hNoted := hHears.trans (.note w₁ (.refreshed id after.displayName after.beans.size))
    refine .inl ⟨rfl, hNoted.grown, ?_, ?_, ?_⟩
    · exact hNoted.calls_eq.trans (List.append_nil _)
    · rw [hNoted.states, hActive]
    · rw [hNoted.multicasters rfl, hKept]

end ContextId

/-- A listener that is added to a context is registered with what it declares then. -/
theorem ContextId.subscribe_registers {listener : ListenerId} {registrations : List Registration}
    (hHeld : w.multicasterOf id = some ⟨registrations⟩)
    (h : id.subscribe host listener w = some ((), w')) :
    w'.multicasterOf id = some ⟨registrations ++ [host.registrationIn listener w]⟩ := by
  obtain ⟨r, w₁, hEnlist, hModify⟩ := Act.bind_inv h
  have hEnlisted : w.Hears none [] w₁ :=
    host.enlist_hushed listener (World.idle_none w) hEnlist
  rw [Act.modifyContext_apply] at hModify
  cases hModify
  obtain rfl := Host.eq_registrationIn_of_enlist hEnlist
  rw [← hEnlisted.multicasters rfl] at hHeld
  obtain ⟨context, hContext, hRegistrations⟩ := Option.map_eq_some_iff.mp hHeld
  rw [World.multicasterOf, World.context?_modifyContext, if_pos rfl, hContext]
  rw [Option.map_some, Option.map_some, hRegistrations]
  rfl

namespace Publisher

/-- The calls by which listeners that want it are told of a context. -/
def supplies (host : Host σ) (listeners : List ListenerId) : List Call :=
  (listeners.filter fun id => (host.listener id).onContext.isSome).map .context

theorem supplies_cons (host : Host σ) (listener : ListenerId) (rest : List ListenerId) :
    supplies host (listener :: rest) = supplies host [listener] ++ supplies host rest := by
  rw [supplies, supplies, supplies, ← List.map_append, ← List.filter_append]
  rfl

theorem supply_hears (hQuiet : directory.Quiet) {context : ContextRef} {listener : ListenerId}
    (h : supply (Host.ofDepth directory depth) context listener w = some ((), w')) :
    w.Hears none (supplies (Host.ofDepth directory depth) [listener]) w' := by
  rw [supply] at h
  cases hSupply : ((Host.ofDepth directory depth).listener listener).onContext with
  | none =>
    rw [hSupply] at h
    cases h
    rw [supplies, List.filter_cons_of_neg (by simp [hSupply])]
    exact .refl w
  | some program =>
    rw [hSupply] at h
    obtain ⟨identity, w₁, hIdentity, hRest⟩ := Act.bind_inv h
    obtain ⟨_, _, hWrite, hPerform⟩ := Act.bind_inv hRest
    cases Act.write_inv hWrite
    have hAware : (directory.listener listener).onContext = some program := by
      rw [← hSupply, Host.listener, Host.directory_ofDepth]
    have hFirst := context.identity_hushed (Host.ofDepth directory depth)
      (World.idle_none w) hIdentity
    have hLast := Host.perform_hushed directory depth (hQuiet.onContext listener program hAware
      context) (World.idle_none _) hPerform
    rw [supplies, List.filter_cons_of_pos (by simp [hSupply])]
    exact (hFirst.trans (.note w₁ _)).trans hLast

theorem handOver_hears (hQuiet : directory.Quiet) {listeners : List ListenerId}
    {registrations : List Registration} (hIdle : w.Idle (some id))
    (hHeld : w.multicasterOf id = some ⟨registrations⟩)
    (h : handOver (Host.ofDepth directory depth) (.managed id) listeners w = some ((), w')) :
    ∃ handed, List.Forall₂ (Host.ofDepth directory depth).Captures listeners handed ∧
      w.Hears (some id) (supplies (Host.ofDepth directory depth) listeners) w' ∧
      w'.multicasterOf id = some ⟨registrations ++ handed⟩ := by
  induction listeners generalizing w registrations with
  | nil =>
    cases h
    exact ⟨[], .nil, .refl _, by rw [hHeld, List.append_nil]⟩
  | cons listener rest ih =>
    rw [handOver_cons] at h
    obtain ⟨_, w₁, hSupply, hRest⟩ := Act.bind_inv h
    obtain ⟨_, w₂, hSubscribe, hLast⟩ := Act.bind_inv hRest
    have hTold := supply_hears hQuiet hSupply
    -- a listener that is told of the context adds none, so the context holds what it held
    rw [← hTold.multicasters rfl] at hHeld
    have hAdded := ContextId.subscribe_registers hHeld hSubscribe
    have hSubscribed := id.subscribe_hushed (Host.ofDepth directory depth) listener
      (Option.some_ne_none id) (hTold.loosen.idle hIdle) hSubscribe
    have hFirst := hTold.loosen.trans hSubscribed
    obtain ⟨handed, hHanded, hHears, hAfter⟩ := ih (hFirst.idle hIdle) hAdded hLast
    refine ⟨_ :: handed, .cons (Host.captures_registrationIn _ listener w₁) hHanded, ?_, ?_⟩
    · rw [supplies_cons, ← List.append_nil (supplies _ [listener])]
      exact hFirst.trans hHears
    · rw [hAfter, List.append_assoc]
      rfl

theorem broadcast_delivers (hQuiet : directory.Quiet) {multicaster : Multicaster}
    {outcome : Except DeliveryError Unit}
    (h : broadcast (Host.ofDepth directory depth) .propagate multicaster event w =
      some (outcome, w')) :
    w.Delivers (Call.turns .other event.kind (multicaster.matching event.kind)) w' outcome := by
  obtain ⟨answer, w₁, hBroadcast, hPure⟩ := Act.bind_inv h
  cases hPure
  exact (Host.broadcast_delivers hQuiet hBroadcast).map _

/-- A phase in its turn is written down and delivered. -/
theorem announce_in_turn {payload : RunPayload} {p p' : Publisher σ}
    {outcome : Except RunError Unit} (hLast : p.last = payload.phase.predecessor?)
    (hPhase : payload.phase ≠ .failed)
    (h : p.announce host payload w = some ((outcome, p'), w')) :
    p' = { p with last := some payload.phase } ∧ ∃ delivery, outcome = delivery.mapError .delivery ∧
      p'.deliver host (p.event payload) payload
        (w.note (.publishing payload.phase p.application.name)) =
          some ((delivery, p.multicaster), w') := by
  generalize hAnswer : (outcome, p') = answer at h
  cases announcing_of_announce h with
  | refused hAdmits =>
    rw [hLast, admits_predecessor] at hAdmits
    cases hAdmits
  | delivered hAdmits hDeliver =>
    cases hAnswer
    cases deliver_multicaster hPhase hDeliver
    exact ⟨rfl, _, rfl, hDeliver⟩

variable {payload : RunPayload} {p p' : Publisher σ} {outcome : Except RunError Unit}

/-- The listeners that a publisher knows hear of the phases before `contextLoaded`. -/
theorem announce_early (hQuiet : directory.Quiet) (hLast : p.last = payload.phase.predecessor?)
    (hEarly : payload.phase ∈ [.starting, .environmentPrepared, .contextInitialized])
    (h : p.announce (Host.ofDepth directory depth) payload w = some ((outcome, p'), w')) :
    p' = { p with last := some payload.phase } ∧
      w.Delivers (Call.turns .other (.run payload.phase)
        (p.multicaster.matching (.run payload.phase))) w' outcome := by
  have hPhase : payload.phase ≠ .failed := by
    intro hFailed
    simp [hFailed] at hEarly
  obtain ⟨rfl, delivery, rfl, hDeliver⟩ := announce_in_turn hLast hPhase h
  have hBroadcast (v : World σ)
      (hDelivered : (do return (← broadcast (Host.ofDepth directory depth) .propagate p.multicaster
        (p.event payload), p.multicaster) : Act σ _) v = some ((delivery, p.multicaster), w')) :
      v.Delivers (Call.turns .other (.run payload.phase)
        (p.multicaster.matching (.run payload.phase))) w' delivery := by
    obtain ⟨_, _, hBroadcast, hPure⟩ := Act.bind_inv hDelivered
    cases hPure
    exact broadcast_delivers hQuiet hBroadcast
  refine ⟨rfl, World.Delivers.mapError ?_ _⟩
  cases payload with
  | starting => exact (hBroadcast _ hDeliver).note rfl
  | environmentPrepared environment => exact (hBroadcast _ hDeliver).note rfl
  | contextInitialized context => exact (hBroadcast _ hDeliver).note rfl
  | _ => simp [RunPayload.phase] at hEarly

/-- The listeners of an active context hear of the phases after `contextLoaded`. -/
theorem announce_late (hQuiet : directory.Quiet) {multicaster : Multicaster}
    (hLast : p.last = payload.phase.predecessor?)
    (hLate : payload = .started (.managed id) ∨ payload = .running (.managed id))
    (hActive : w.stateOf id = some .active) (hHeld : w.multicasterOf id = some multicaster)
    (h : p.announce (Host.ofDepth directory depth) payload w = some ((outcome, p'), w')) :
    p' = { p with last := some payload.phase } ∧
      w.Delivers (Call.turns (.context id) (.run payload.phase)
        (multicaster.matching (.run payload.phase))) w' outcome := by
  have hPhase : payload.phase ≠ .failed := by
    rcases hLate with rfl | rfl <;> nofun
  obtain ⟨rfl, delivery, rfl, hDeliver⟩ := announce_in_turn hLast hPhase h
  have hPublish : id.publish (Host.ofDepth directory depth) (p.event payload)
      (w.note (.publishing payload.phase p.application.name)) = some (delivery, w') := by
    rcases hLate with rfl | rfl
    all_goals
      obtain ⟨_, _, hPublish, hPure⟩ := Act.bind_inv hDeliver
      cases hPure
      exact hPublish
  have hDelivers : (w.note _).Delivers _ w' delivery :=
    ContextId.publish_delivers hQuiet hActive hHeld hPublish
  exact ⟨rfl, (hDelivers.note rfl).mapError _⟩

/-- `contextLoaded` is heard after the listeners were handed over, and by the publisher's only. -/
theorem announce_contextLoaded (hQuiet : directory.Quiet) {registrations : List Registration}
    (hLast : p.last = some .contextInitialized) (hIdle : w.Idle (some id))
    (hHeld : w.multicasterOf id = some ⟨registrations⟩)
    (h : p.announce (Host.ofDepth directory depth) (.contextLoaded (.managed id)) w =
      some ((outcome, p'), w')) :
    p' = { p with last := some .contextLoaded } ∧
      ((∃ handed, outcome = .ok () ∧
        List.Forall₂ (Host.ofDepth directory depth).Captures p.application.listeners handed ∧
        w.Hears (some id) (supplies (Host.ofDepth directory depth) p.application.listeners ++
          Call.turns .other (.run .contextLoaded)
            (p.multicaster.matching (.run .contextLoaded))) w' ∧
        w'.multicasterOf id = some ⟨registrations ++ handed⟩) ∨
      ∃ error, outcome = .error error ∧ w.HearsFailure w') := by
  have hPhase : (RunPayload.contextLoaded (.managed id)).phase ≠ .failed := nofun
  obtain ⟨rfl, delivery, rfl, hDeliver⟩ := announce_in_turn hLast hPhase h
  refine ⟨rfl, ?_⟩
  obtain ⟨_, w₁, hHandOver, hRest⟩ := Act.bind_inv hDeliver
  obtain ⟨identity, w₂, hIdentity, hRest⟩ := Act.bind_inv hRest
  obtain ⟨_, _, hWrite, hRest⟩ := Act.bind_inv hRest
  obtain ⟨_, _, hBroadcast, hPure⟩ := Act.bind_inv hRest
  cases Act.write_inv hWrite
  cases hPure
  obtain ⟨handed, hHanded, hHears, hAfter⟩ := handOver_hears hQuiet
    (w := w.note (.publishing .contextLoaded p.application.name)) hIdle hHeld hHandOver
  have hRead := (ContextRef.managed id).identity_hushed (Host.ofDepth directory depth)
    (World.idle_none w₁) hIdentity
  have hDelivers := (broadcast_delivers hQuiet hBroadcast).note rfl
  have hFirst := (World.Hears.note w (.publishing .contextLoaded p.application.name)).trans
    (hHears.trans hRead.loosen)
  cases delivery with
  | error error => exact .inr ⟨_, rfl, hDelivers.after hFirst.grown⟩
  | ok _ =>
    have hLast : w₂.Hears none _ w' := hDelivers
    refine .inl ⟨handed, rfl, hHanded, ?_, ?_⟩
    · rw [← List.append_nil (supplies _ _)]
      exact hFirst.trans hLast.loosen
    · rw [hLast.multicasters rfl, hRead.multicasters rfl, hAfter]

end Publisher

end Startup
