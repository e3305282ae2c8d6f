import Startup.Proofs.Lifecycle.HandOver

/-!
# Announcements

An announcement is refused, which changes nothing, or it is written down and delivered. A failure
takes one of two ways: through the context, if that is active, or to all that the publisher knows.
-/

namespace Startup

variable {σ : Type} {scope : Scope} {host : Host σ} {w w' : World σ}

/-- Where an active context delivers an event, one of its listeners fails, or all that accept the
event are invoked. -/
theorem ContextId.publish_invokes (hHost : host.Within scope) {id : ContextId} {context : Context}
    {event : Event} {outcome : Except DeliveryError Unit} (hSends : scope.Sends event.kind)
    (hContext : w.context? id = some context) (hActive : context.state = .active)
    (h : id.publish host event w = some (outcome, w')) :
    (∃ name cause, .listenerFailed name event.kind cause ∈ w'.since w) ∨
      ∀ r ∈ context.multicaster.registrations, r.accepts event.kind →
        .invoking (.context id) r.listener r.name event.kind ∈ w'.since w := by
  rw [publish_active hContext hActive] at h
  have hOpening : w.journal <+: (w.note (id.opening context event)).journal :=
    List.prefix_append _ _
  have hPath := deliver_within hHost id context hSends.failed (fun _ _ => hSends.invoking _ _ _) h
  have hSince := World.since_trans hOpening hPath.journal_grows
  obtain ⟨answer, w₁, hInvoke, hPure⟩ := Act.bind_inv h
  cases hPure
  cases answer with
  | error error =>
    obtain ⟨name, cause, -, hMem⟩ := Host.listenerFailed_mem_of_error hHost hSends hInvoke
    exact .inl ⟨name, cause, hSince ▸ List.mem_append_right _ hMem⟩
  | ok count =>
    right
    intro r hr hAccepts
    rw [hSince]
    apply List.mem_append_right
    exact Host.invoking_mem_of_ok hHost hSends (Host.propagate_within hSends.failed) hInvoke r
      (Multicaster.mem_matching.mpr ⟨hr, hAccepts⟩)

namespace Publisher

theorem broadcast_within (hHost : host.Within scope) {strategy : Strategy σ} {event : Event}
    (hSends : scope.Sends event.kind)
    (hStrategy : ∀ name cause, (strategy name event.kind cause).Within scope)
    (multicaster : Multicaster) : (broadcast host strategy multicaster event).Within scope :=
  (Host.broadcast_within hHost hSends hStrategy multicaster).bind fun _ => Act.within_pure _

theorem broadcast_error (hHost : host.Within scope) {multicaster : Multicaster} {event : Event}
    {error : DeliveryError} (hSends : scope.Sends event.kind)
    (h : broadcast host .propagate multicaster event w = some (.error error, w')) :
    ∃ name cause, error = .listenerFailed name event.kind cause := by
  obtain ⟨answer, w₁, hBroadcast, hPure⟩ := Act.bind_inv h
  obtain ⟨_, _, -, hInvoke⟩ := Act.bind_inv hBroadcast
  cases answer with
  | ok count => cases hPure
  | error error =>
    obtain ⟨name, cause, hEq, -⟩ := Host.listenerFailed_mem_of_error hHost hSends hInvoke
    cases hPure
    exact ⟨name, cause, hEq⟩

theorem broadcast_invokes (hHost : host.Within scope) {multicaster : Multicaster} {event : Event}
    {outcome : Except DeliveryError Unit} (hSends : scope.Sends event.kind)
    (h : broadcast host .ignore multicaster event w = some (outcome, w')) :
    ∀ r ∈ multicaster.registrations, r.accepts event.kind →
      .invoking .other r.listener r.name event.kind ∈ w'.since w := by
  obtain ⟨answer, w₁, hBroadcast, hPure⟩ := Act.bind_inv h
  obtain ⟨_, w₂, hWrite, hInvoke⟩ := Act.bind_inv hBroadcast
  cases Act.write_inv hWrite
  cases hPure
  obtain ⟨count, rfl⟩ := Host.ok_of_ignore hInvoke
  have hStart := World.Path.single_note w (hSends.broadcasting .other
    (multicaster.matching event.kind).length) rfl
  have hPath := Host.invokeAll_within hHost (Host.ignore_within event.kind) _ 0
    (fun _ _ => hSends.invoking _ _ _) hInvoke
  intro r hr hAccepts
  exact hStart.mem_since_of_right hPath (Host.invoking_mem_of_ok hHost hSends
    (Host.ignore_within event.kind) hInvoke r (Multicaster.mem_matching.mpr ⟨hr, hAccepts⟩))

theorem deliverFailure_within (hHost : host.Within scope) (context : Option ContextRef)
    (multicaster : Multicaster) {event : Event} (hSends : scope.Sends event.kind) :
    (deliverFailure host context multicaster event).Within scope := by
  have hBroadcast := broadcast_within hHost hSends (Host.ignore_within event.kind)
  cases context with
  | none => exact (hBroadcast multicaster).bind fun _ => Act.within_pure _
  | some context =>
    refine (context.isActive_within host).bind fun active => ?_
    cases active with
    | true =>
      refine (context.identity_within host).bind fun _ => ?_
      refine (Act.within_write (scope.routine _ rfl) rfl).bind fun _ => ?_
      exact (context.publish_within hHost hSends).bind fun _ => Act.within_pure _
    | false =>
      refine (joinContext_within host context multicaster).bind fun joined => ?_
      exact (hBroadcast joined).bind fun _ => Act.within_pure _

theorem deliver_within (hHost : host.Within scope) (p : Publisher σ) {event : Event}
    (hSends : scope.Sends event.kind) (payload : RunPayload) :
    (p.deliver host event payload).Within scope := by
  have hBroadcast :=
    broadcast_within hHost hSends (Host.propagate_within hSends.failed) p.multicaster
  cases payload with
  | contextLoaded context =>
    refine (handOver_within hHost context _).bind fun _ => ?_
    refine (context.identity_within host).bind fun _ => ?_
    refine (Act.within_write (scope.routine _ rfl) rfl).bind fun _ => ?_
    exact hBroadcast.bind fun _ => Act.within_pure _
  | started context => exact (context.publish_within hHost hSends).bind fun _ => Act.within_pure _
  | running context => exact (context.publish_within hHost hSends).bind fun _ => Act.within_pure _
  | failed context cause => exact deliverFailure_within hHost context p.multicaster hSends
  | starting => exact hBroadcast.bind fun _ => Act.within_pure _
  | environmentPrepared environment => exact hBroadcast.bind fun _ => Act.within_pure _
  | contextInitialized context => exact hBroadcast.bind fun _ => Act.within_pure _

theorem deliver_multicaster {p : Publisher σ} {event : Event} {payload : RunPayload}
    {outcome : Except DeliveryError Unit} {multicaster : Multicaster}
    (hPhase : payload.phase ≠ .failed)
    (h : p.deliver host event payload w = some ((outcome, multicaster), w')) :
    multicaster = p.multicaster := by
  cases payload with
  | failed context cause => exact absurd rfl hPhase
  | contextLoaded context =>
    obtain ⟨_, _, -, hRest⟩ := Act.bind_inv h
    obtain ⟨_, _, -, hRest⟩ := Act.bind_inv hRest
    obtain ⟨_, _, -, hRest⟩ := Act.bind_inv hRest
    obtain ⟨_, _, -, hPure⟩ := Act.bind_inv hRest
    cases hPure
    rfl
  | _ =>
    obtain ⟨_, _, -, hPure⟩ := Act.bind_inv h
    cases hPure
    rfl

theorem deliver_contextLoaded (hHost : host.Within scope) {p : Publisher σ} {event : Event}
    {id : ContextId} {context : Context} {answer : Except DeliveryError Unit × Multicaster}
    (hSends : scope.Sends event.kind) (hContext : w.context? id = some context)
    (h : p.deliver host event (.contextLoaded (.managed id)) w = some (answer, w')) :
    ∀ listener ∈ p.application.listeners, w'.Holds id listener := by
  obtain ⟨_, w₁, hHandOver, hRest⟩ := Act.bind_inv h
  have hTail : World.Path scope w₁ w' := by
    refine Act.Within.bind ((ContextRef.managed id).identity_within host) (fun _ => ?_) hRest
    refine (Act.within_write (scope.routine _ rfl) rfl).bind fun _ => ?_
    exact (broadcast_within hHost hSends (Host.propagate_within hSends.failed) p.multicaster).bind
      fun _ => Act.within_pure _
  intro listener hListener
  exact hTail.holds (handOver_holds hHost hContext hHandOver listener hListener)

inductive FailureWay (host : Host σ) (context : Option ContextId) (multicaster : Multicaster)
    (event : Event) (w : World σ) : Except DeliveryError Unit → World σ → Prop
  | through {id : ContextId} {held : Context} {outcome : Except DeliveryError Unit} {w' : World σ}
      (hRef : context = some id) (hContext : w.context? id = some held)
      (hActive : held.state = .active)
      (hPublish : id.publish host event (w.note (.failedThroughContext held.identity.full)) =
        some (outcome, w')) : FailureWay host context multicaster event w outcome w'
  | direct {joined : Multicaster} {outcome : Except DeliveryError Unit} {w₁ w' : World σ}
      (hInactive : ∀ id, context = some id → w.stateOf id ≠ some .active)
      (hJoin : World.Path Scope.full w w₁)
      (hPrefix : multicaster.registrations <+: joined.registrations)
      (hBroadcast : broadcast host .ignore joined event w₁ = some (outcome, w')) :
      FailureWay host context multicaster event w outcome w'

theorem failureWay_of_deliverFailure {context : Option ContextId} {multicaster after : Multicaster}
    {event : Event} {outcome : Except DeliveryError Unit}
    (h : deliverFailure host (context.map .managed) multicaster event w =
      some ((outcome, after), w')) : FailureWay host context multicaster event w outcome w' := by
  cases context with
  | none =>
    obtain ⟨_, _, hBroadcast, hPure⟩ := Act.bind_inv h
    cases hPure
    exact .direct nofun .refl List.prefix_rfl hBroadcast
  | some id =>
    obtain ⟨active, w₁, hCheck, hRest⟩ := Act.bind_inv h
    obtain ⟨held, w₂, hRead, hPure⟩ := Act.bind_inv hCheck
    obtain ⟨hContext, rfl⟩ := Act.context_inv hRead
    cases hPure
    cases hState : held.isActive with
    | true =>
      rw [hState, if_pos rfl] at hRest
      obtain ⟨identity, w₃, hIdentity, hRest⟩ := Act.bind_inv hRest
      obtain ⟨again, w₄, hRead, hPure⟩ := Act.bind_inv hIdentity
      obtain ⟨hAgain, rfl⟩ := Act.context_inv hRead
      cases hContext.symm.trans hAgain
      cases hPure
      obtain ⟨_, _, hWrite, hRest⟩ := Act.bind_inv hRest
      cases Act.write_inv hWrite
      obtain ⟨_, _, hPublish, hPure⟩ := Act.bind_inv hRest
      cases hPure
      exact .through rfl hContext (by simpa [Context.isActive] using hState) hPublish
    | false =>
      rw [hState, if_neg Bool.false_ne_true] at hRest
      obtain ⟨joined, w₃, hJoin, hRest⟩ := Act.bind_inv hRest
      obtain ⟨_, _, hBroadcast, hPure⟩ := Act.bind_inv hRest
      cases hPure
      refine .direct ?_ (joinContext_within host _ _ hJoin) (joinContext_keeps hJoin) hBroadcast
      rintro other ⟨⟩
      rw [ContextId.stateOf_of_context? hContext]
      intro hActive
      simp [Context.isActive, Option.some.inj hActive] at hState

/-- Through an active context a failure goes to what that holds, unless one of its listeners fails;
otherwise it goes to what the publisher knows. -/
theorem FailureWay.invokes (hHost : host.Within scope) {context : Option ContextId}
    {multicaster : Multicaster} {event : Event} {outcome : Except DeliveryError Unit}
    (hSends : scope.Sends event.kind)
    (h : FailureWay host context multicaster event w outcome w') :
    (∃ id held, context = some id ∧ w.context? id = some held ∧ held.state = .active ∧
      ((∃ name cause, .listenerFailed name event.kind cause ∈ w'.since w) ∨
        ∀ r ∈ held.multicaster.registrations, r.accepts event.kind →
          .invoking (.context id) r.listener r.name event.kind ∈ w'.since w)) ∨
    (∀ id, context = some id → w.stateOf id ≠ some .active) ∧
      ∀ r ∈ multicaster.registrations, r.accepts event.kind →
        .invoking .other r.listener r.name event.kind ∈ w'.since w := by
  cases h with
  | @through id held _ _ hRef hContext hActive hPublish =>
    have hNoted : World.Path scope w (w.note (.failedThroughContext held.identity.full)) :=
      .single_note w (scope.routine _ rfl) rfl
    have hPath := ContextId.publish_within hHost id hSends hPublish
    refine .inl ⟨id, held, hRef, hContext, hActive, ?_⟩
    rw [← World.context?_note w (.failedThroughContext held.identity.full)] at hContext
    rcases ContextId.publish_invokes hHost hSends hContext hActive hPublish with
      ⟨name, cause, hMem⟩ | hAll
    · exact .inl ⟨name, cause, hNoted.mem_since_of_right hPath hMem⟩
    · exact .inr fun r hr hAccepts => hNoted.mem_since_of_right hPath (hAll r hr hAccepts)
  | direct hInactive hJoin hPrefix hBroadcast =>
    have hPath := broadcast_within hHost hSends (Host.ignore_within event.kind) _ hBroadcast
    have hAll := broadcast_invokes hHost hSends hBroadcast
    refine .inr ⟨hInactive, ?_⟩
    intro r hr hAccepts
    rw [World.since_trans hJoin.journal_grows hPath.journal_grows]
    exact List.mem_append_right _ (hAll r (hPrefix.subset hr) hAccepts)

theorem admits_predecessor (phase : Phase) : admits phase.predecessor? phase = true := by
  cases phase <;> rfl

theorem admits_failed {last : Option Phase} (h : last ≠ some .failed) :
    admits last .failed = true := by
  rw [admits, if_neg h, if_pos rfl]

inductive Announcing (host : Host σ) (payload : RunPayload) (p : Publisher σ) (w : World σ) :
    Except RunError Unit × Publisher σ → World σ → Prop
  | refused (hAdmits : admits p.last payload.phase = false) :
      Announcing host payload p w
        (.error (.invalidTransition (p.last.map .run) (.run payload.phase)), p) w
  | delivered {outcome : Except DeliveryError Unit} {multicaster : Multicaster} {w' : World σ}
      (hAdmits : admits p.last payload.phase = true)
      (hDeliver : { p with last := some payload.phase }.deliver host (p.event payload) payload
        (w.note (.publishing payload.phase p.application.name)) =
          some ((outcome, multicaster), w')) :
      Announcing host payload p w (outcome.mapError .delivery,
        { p with last := some payload.phase, multicaster := multicaster }) w'

theorem announcing_of_announce {payload : RunPayload} {p : Publisher σ}
    {answer : Except RunError Unit × Publisher σ}
    (h : p.announce host payload w = some (answer, w')) :
    Announcing host payload p w answer w' := by
  rw [announce] at h
  split at h
  · rename_i hAdmits
    obtain ⟨_, _, hWrite, hRest⟩ := Act.bind_inv h
    cases Act.write_inv hWrite
    obtain ⟨⟨outcome, multicaster⟩, w₁, hDeliver, hPure⟩ := Act.bind_inv hRest
    cases hPure
    exact .delivered hAdmits hDeliver
  · rename_i hRefused
    cases h
    exact .refused (Bool.eq_false_iff.mpr hRefused)

end Publisher

end Startup
