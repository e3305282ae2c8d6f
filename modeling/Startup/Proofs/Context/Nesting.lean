import Startup.Proofs.Context.Steps

/-!
# Nested calls

Listeners call the contexts that call them, to any depth. If all of them ask only for what a scope
leaves them to do, each call, with everything nested in it, is a path of that scope.
-/

namespace Startup

variable {σ α : Type} {scope : Scope} {host : Host σ}

namespace ContextId

theorem deliver_within (hHost : host.Within scope) (id : ContextId) (context : Context)
    {event : Event} (hFailed : ∀ name cause, scope.notes (.listenerFailed name event.kind cause))
    (hInvoking : ∀ r ∈ context.multicaster.registrations,
      scope.notes (.invoking (.context id) r.listener r.name event.kind)) :
    (id.deliver host context event).Within scope := by
  refine Act.Within.bind ?_ fun outcome => Act.within_pure (outcome.map fun _ => ())
  exact Host.invokeAll_within hHost (Host.propagate_within hFailed) _ 0 fun r hr =>
    hInvoking r (Multicaster.mem_matching.mp hr).1

theorem stateOf_of_context? {w : World σ} {id : ContextId} {context : Context}
    (h : w.context? id = some context) : w.stateOf id = some context.state := by
  rw [World.stateOf, h, Option.map_some]

theorem path_of_publish (hHost : host.Within scope) {id : ContextId} {event : Event}
    {w w' : World σ} {outcome : Except DeliveryError Unit}
    (hOpening : ∀ count, scope.notes (.broadcasting (.context id) event.kind count))
    (hFailed : ∀ name cause, scope.notes (.listenerFailed name event.kind cause))
    (hInvoking : ∀ context, w.context? id = some context →
      ∀ r ∈ context.multicaster.registrations,
        scope.notes (.invoking (.context id) r.listener r.name event.kind))
    (h : id.publish host event w = some (outcome, w')) : World.Path scope w w' := by
  cases publishing_of_publish h with
  | rejected hContext hState => exact .refl
  | @delivered context _ _ hContext hState hDeliver =>
    -- the entry that opens a delivery shows a state that the context has already
    have hMark : World.Path scope w (w.note (id.opening context event)) := by
      have hActive := stateOf_of_context? hContext
      have hMove := World.Move.mark w (hOpening
        (context.multicaster.matching event.kind).length) rfl hActive (.inl hState)
      rw [World.setState_eq_self (by rw [hActive, hState])] at hMove
      exact .single hMove
    have hInvoked := hInvoking context hContext
    exact hMark.trans (deliver_within hHost id context hFailed hInvoked hDeliver)

theorem publish_within (hHost : host.Within scope) (id : ContextId) {event : Event}
    (hSends : scope.Sends event.kind) : (id.publish host event).Within scope := by
  intro w outcome w' h
  exact path_of_publish hHost (hSends.broadcasting _) hSends.failed
    (fun _ _ _ _ => hSends.invoking _ _ _) h

theorem subscribe_within (host : Host σ) (id : ContextId) (listener : ListenerId) :
    (id.subscribe host listener).Within scope := by
  intro w a w' h
  cases h
  exact (Relation.ReflTransGen.single (.remember w _)).tail (.subscribe _ id _)

theorem put_within (beans : Beans) (bean : Bean) : (beans.put bean : Act σ Beans).Within scope := by
  intro w a w' h
  simp only [Beans.put] at h
  split at h
  · cases h
    exact .single (.note w (scope.routine _ rfl) rfl)
  · cases h
    exact .refl

theorem register_within (id : ContextId) (bean : Bean) :
    (id.register bean : Act σ Unit).Within scope := by
  refine (Act.within_context id).bind fun context => (put_within context.beans bean).bind ?_
  intro beans w a w' h
  cases h
  exact .single (.bean w id beans)

theorem move_refreshed {w : World σ} {id : ContextId} {context : Context}
    (hGoverns : scope.governs id) (hSends : scope.Sends (.context .refreshed))
    (hContext : w.context? id = some context) (hState : context.state = .created) :
    World.Move scope w
      ((w.setState id .active).note (id.opening context (refreshedEvent context))) :=
  .mark w (hSends.broadcasting _ _) rfl (stateOf_of_context? hContext)
    (.inr ⟨hGoverns, fun _ => hState⟩)

theorem path_of_publish_refreshed (hHost : host.Within scope) {id : ContextId} {w w₁ : World σ}
    {context : Context} {outcome : Except DeliveryError Unit}
    (hSends : scope.Sends (.context .refreshed)) (hContext : w.context? id = some context)
    (hPublish : id.publish host (refreshedEvent context) (w.setState id .active) =
      some (outcome, w₁)) :
    World.Path scope
      ((w.setState id .active).note (id.opening context (refreshedEvent context))) w₁ := by
  have hActive : (w.setState id .active).context? id =
      some { context with state := .active } := by
    rw [World.setState, World.context?_modifyContext, if_pos rfl, hContext, Option.map_some]
  rw [publish_active hActive rfl] at hPublish
  have hSent : scope.Sends (refreshedEvent context).kind := hSends
  exact deliver_within hHost id _ hSent.failed (fun _ _ => hSent.invoking _ _ _) hPublish

theorem stateOf_isSome {w w' : World σ} {id : ContextId} {context : Context}
    (hPath : World.Path scope w w') (hContext : w.context? id = some context) :
    ∃ state, w'.stateOf id = some state := by
  obtain ⟨after, hAfter, -⟩ := hPath.keeps hContext
  exact ⟨after.state, stateOf_of_context? hAfter⟩

theorem refresh_within (hHost : host.Within scope) {id : ContextId} (hGoverns : scope.governs id)
    (hSends : scope.Sends (.context .refreshed)) : (id.refresh host).Within scope := by
  intro w outcome w' h
  cases refreshing_of_refresh h with
  | rejected hContext hState => exact .refl
  | failed hContext hState hPublish =>
    -- listeners may have left any state behind, and the rollback starts from that
    have hPath := (path_of_publish_refreshed hHost hSends hContext hPublish).head
      (move_refreshed hGoverns hSends hContext hState)
    obtain ⟨before, hBefore⟩ := stateOf_isSome hPath hContext
    exact hPath.tail (.mark _ (scope.routine _ rfl) rfl hBefore (.inr ⟨hGoverns, nofun⟩))
  | succeeded hContext hState hPublish hAfter =>
    have hPath := (path_of_publish_refreshed hHost hSends hContext hPublish).head
      (move_refreshed hGoverns hSends hContext hState)
    exact hPath.tail (.note _ (scope.routine _ rfl) rfl)

theorem close_within (hHost : host.Within scope) {id : ContextId} (hGoverns : scope.governs id)
    (hSends : scope.Sends (.context .closed)) : (id.close host).Within scope := by
  intro w outcome w' h
  cases closing_of_close h with
  | idle hContext hState => exact .refl
  | silent hContext hState =>
    exact .single (.mark w (scope.routine _ rfl) rfl (stateOf_of_context? hContext)
      (.inr ⟨hGoverns, nofun⟩))
  | @announced context _ _ hContext hState hPublish =>
    have hSent : scope.Sends (closedEvent context).kind := hSends
    have hPath := publish_within hHost id hSent hPublish
    obtain ⟨before, hBefore⟩ := stateOf_isSome hPath hContext
    exact hPath.tail (.mark _ (scope.routine _ rfl) rfl hBefore (.inr ⟨hGoverns, nofun⟩))

end ContextId

namespace ContextRef

theorem publish_within (hHost : host.Within scope) (ref : ContextRef) {event : Event}
    (hSends : scope.Sends event.kind) : (ref.publish host event).Within scope := by
  cases ref with
  | managed id => exact id.publish_within hHost hSends
  | foreign id => exact hHost.perform _ (hHost.directory.publish id event)

theorem subscribe_within (hHost : host.Within scope) (ref : ContextRef) (listener : ListenerId) :
    (ref.subscribe host listener).Within scope := by
  cases ref with
  | managed id => exact id.subscribe_within host listener
  | foreign id => exact hHost.perform _ (hHost.directory.subscribe id listener)

theorem isActive_within (host : Host σ) (ref : ContextRef) : (ref.isActive host).Within scope := by
  cases ref with
  | managed id => exact (Act.within_context id).bind fun context => Act.within_pure _
  | foreign id => exact Act.within_memory.bind fun memory => Act.within_pure _

theorem listeners_within (host : Host σ) (ref : ContextRef) :
    (ref.listeners host).Within scope := by
  cases ref with
  | managed id => exact (Act.within_context id).bind fun context => Act.within_pure _
  | foreign id => exact Act.within_memory.bind fun memory => Act.within_pure _

theorem identity_within (host : Host σ) (ref : ContextRef) : (ref.identity host).Within scope := by
  cases ref with
  | managed id => exact (Act.within_context id).bind fun context => Act.within_pure _
  | foreign id => exact Act.within_memory.bind fun memory => Act.within_pure _

theorem beans_within (ref : ContextRef) : (ref.beans : Act σ _).Within scope := by
  cases ref with
  | managed id => exact (Act.within_context id).bind fun context => Act.within_pure _
  | foreign id => exact Act.within_pure _

theorem register_within (ref : ContextRef) (bean : Bean) :
    (ref.register bean : Act σ _).Within scope := by
  cases ref with
  | managed id => exact (id.register_within bean).map some
  | foreign id => exact Act.within_pure _

end ContextRef

namespace Host

theorem answer_within (hHost : host.Within scope) (q : Request σ) (hq : q.Within scope) :
    (host.answer q).Within scope := by
  cases q with
  | publish context event => exact context.publish_within hHost hq
  | subscribe context listener => exact context.subscribe_within hHost listener
  | isActive context => exact context.isActive_within host
  | listeners context => exact context.listeners_within host
  | identity context => exact context.identity_within host
  | register context bean => exact context.register_within bean
  | resolve context type => exact context.beans_within.bind fun _ => Act.within_pure _
  | beanTypes context => exact context.beans_within.bind fun _ => Act.within_pure _
  | refresh context => exact context.refresh_within hHost hq.1 hq.2
  | close context => exact context.close_within hHost hq.1 hq.2
  | createStore properties => exact Act.within_addStore properties
  | properties store => exact Act.within_properties store
  | assign store pairs => exact Act.within_assign store pairs
  | listenerName listener => exact Act.within_pure _
  | enlist listener => exact host.enlist_within listener
  | broadcast multicaster event =>
    exact broadcast_within hHost hq (propagate_within hq.failed) multicaster
  | memory => exact Act.within_memory
  | remember memory => exact Act.within_remember memory

theorem interpret_within (hHost : host.Within scope) (program : Program σ α)
    (hProgram : program.Within scope) : (program.interpret host.answer).Within scope := by
  induction program with
  | done value => exact Act.within_pure value
  | ask q next ih =>
    exact (answer_within hHost q hProgram.1).bind fun reply => ih reply (hProgram.2 reply)

theorem ofDepth_within {directory : Directory σ} (hDirectory : directory.Within scope)
    (depth : Nat) : (ofDepth directory depth).Within scope := by
  induction depth with
  | zero => exact ⟨hDirectory, fun _ _ => Act.within_stuck⟩
  | succ depth ih =>
    exact ⟨hDirectory, fun program hProgram => interpret_within ih program hProgram⟩

end Host

end Startup
