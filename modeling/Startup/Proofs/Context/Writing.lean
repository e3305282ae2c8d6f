import Startup.Proofs.Context.Nesting

/-!
# What acts write

A property of entries in a row that holds as long as no event is delivered, and that two rows have
together if each of them has it, is a property of all that a program writes. Only the requests that
deliver events have to be looked at for it.
-/

namespace Startup

variable {σ α β : Type} {P : List Entry → Prop}

namespace Entry

/-- An event is published through a context. -/
def Publishes (id : ContextId) (entry : Entry) : Prop :=
  ∃ kind count, entry = broadcasting (.context id) kind count

def isBroadcast : Entry → Bool
  | broadcasting _ _ _ => true
  | _ => false

theorem Publishes.isBroadcast {id : ContextId} {entry : Entry} (h : entry.Publishes id) :
    entry.isBroadcast = true := by
  obtain ⟨kind, count, rfl⟩ := h
  rfl

theorem isBroadcast_of_isRoutine {entry : Entry} (h : entry.isRoutine) :
    entry.isBroadcast = false := by
  cases entry <;> first | rfl | cases h

structure Accumulates (P : List Entry → Prop) : Prop where
  quiet : ∀ entries, (∀ entry ∈ entries, entry.isBroadcast = false) → P entries
  append : ∀ a b, P a → P b → P (a ++ b)

theorem Accumulates.single (hP : Accumulates P) {entry : Entry} (h : entry.isBroadcast = false) :
    P [entry] :=
  hP.quiet _ (List.forall_mem_singleton.mpr h)

end Entry

/-- What may be asked without an event being delivered meanwhile. -/
def Request.Calm : Request σ → Prop
  | publish _ _ => False
  | subscribe context _ => ∃ id, context = .managed id
  | refresh _ => False
  | close _ => False
  | broadcast _ _ => False
  | _ => True

/-- Whether a program asks for nothing but what is allowed. -/
def Program.Asks (allowed : Request σ → Prop) : Program σ α → Prop
  | .done _ => True
  | .ask request next => allowed request ∧ ∀ answer, (next answer).Asks allowed

namespace Act

def Writes (P : List Entry → Prop) (act : Act σ α) : Prop :=
  ∀ ⦃w a w'⦄, act w = some (a, w') → w.journal <+: w'.journal ∧ P (w'.since w)

theorem Within.writes {act : Act σ α} {scope : Scope} (h : act.Within scope)
    (hP : Entry.Accumulates P) (hScope : ∀ entry, scope.notes entry → entry.isBroadcast = false) :
    act.Writes P := by
  intro w a w' hAct
  have hPath := h hAct
  exact ⟨hPath.journal_grows,
    hP.quiet _ fun entry hEntry => hScope entry (hPath.notes_of_mem_since hEntry)⟩

theorem writes_pure (hP : Entry.Accumulates P) (a : α) : (pure a : Act σ α).Writes P := by
  intro w b w' h
  obtain ⟨-, rfl⟩ := pure_inv h
  exact ⟨List.prefix_rfl, hP.quiet _ (by simp)⟩

theorem Writes.bind {act : Act σ α} {f : α → Act σ β} (hAct : act.Writes P)
    (hRest : ∀ a, (f a).Writes P) (hP : Entry.Accumulates P) : (act >>= f).Writes P := by
  intro w b w' h
  obtain ⟨a, w₁, hFirst, hLast⟩ := bind_inv h
  obtain ⟨hGrown, hBefore⟩ := hAct hFirst
  obtain ⟨hNext, hAfter⟩ := hRest a hLast
  refine ⟨hGrown.trans hNext, ?_⟩
  rw [World.since_trans hGrown hNext]
  exact hP.append _ _ hBefore hAfter

theorem writes_write {entry : Entry} (h : P [entry]) : (write entry : Act σ Unit).Writes P := by
  intro w a w' hWrite
  rw [write_inv hWrite]
  refine ⟨List.prefix_append _ _, ?_⟩
  rwa [World.since_eq (World.journal_note w entry)]

theorem writes_modifyContext (hP : Entry.Accumulates P) (id : ContextId) (f : Context → Context) :
    (Act.modifyContext id f : Act σ Unit).Writes P := by
  intro w a w' h
  rw [modifyContext_apply] at h
  cases h
  exact ⟨List.prefix_rfl, hP.quiet _ (by simp [World.since, World.modifyContext])⟩

theorem writes_context (hP : Entry.Accumulates P) (id : ContextId) :
    (Act.context id : Act σ Context).Writes P := by
  intro w a w' h
  obtain ⟨-, rfl⟩ := context_inv h
  exact ⟨List.prefix_rfl, hP.quiet _ (by simp)⟩

end Act

namespace Host

variable {host : Host σ} {allowed : Request σ → Prop}

theorem answer_calm (host : Host σ) {scope : Scope} {q : Request σ} (hq : q.Calm) :
    (host.answer q).Within scope := by
  cases q with
  | publish context event => exact hq.elim
  | subscribe context listener =>
    obtain ⟨id, rfl⟩ := hq
    exact id.subscribe_within host listener
  | isActive context => exact context.isActive_within host
  | listeners context => exact context.listeners_within host
  | identity context => exact context.identity_within host
  | register context bean => exact context.register_within bean
  | resolve context type => exact context.beans_within.bind fun _ => Act.within_pure _
  | beanTypes context => exact context.beans_within.bind fun _ => Act.within_pure _
  | refresh context => exact hq.elim
  | close context => exact hq.elim
  | createStore properties => exact Act.within_addStore properties
  | properties store => exact Act.within_properties store
  | assign store pairs => exact Act.within_assign store pairs
  | listenerName listener => exact Act.within_pure _
  | enlist listener => exact host.enlist_within listener
  | broadcast multicaster event => exact hq.elim
  | memory => exact Act.within_memory
  | remember memory => exact Act.within_remember memory

theorem answer_calm_writes (host : Host σ) (hP : Entry.Accumulates P) {q : Request σ}
    (hq : q.Calm) : (host.answer q).Writes P := by
  let scope : Scope := ⟨fun _ => True, fun entry => entry.isRoutine, fun _ h => h,
    fun _ => Scope.isOfRun_of_isRoutine⟩
  have hWithin : (host.answer q).Within scope := answer_calm host hq
  exact hWithin.writes hP fun _ => Entry.isBroadcast_of_isRoutine

theorem interpret_writes (hP : Entry.Accumulates P)
    (hAnswer : ∀ q, allowed q → (host.answer q).Writes P) {program : Program σ α}
    (hProgram : program.Asks allowed) : (program.interpret host.answer).Writes P := by
  induction program with
  | done value => exact Act.writes_pure hP value
  | ask q next ih =>
    exact (hAnswer q hProgram.1).bind (fun reply => ih reply (hProgram.2 reply)) hP

theorem invokeAll_writes (hP : Entry.Accumulates P) {event : Event}
    (hPerform : ∀ listener, (host.perform ((host.listener listener).onEvent event)).Writes P)
    (origin : Origin) (registrations : List Registration) (invoked : Nat) :
    (host.invokeAll origin .propagate event registrations invoked).Writes P := by
  induction registrations generalizing invoked with
  | nil => exact Act.writes_pure hP _
  | cons r rest ih =>
    refine Act.Writes.bind (Act.writes_write (hP.single rfl)) (fun _ => ?_) hP
    refine (hPerform r.listener).bind (fun outcome => ?_) hP
    cases outcome with
    | ok _ => exact ih (invoked + 1)
    | error cause =>
      have hJudge : (Strategy.propagate r.name event.kind cause : Act σ _).Writes P :=
        Act.Writes.bind (Act.writes_write (hP.single rfl)) (fun _ => Act.writes_pure hP _) hP
      refine hJudge.bind (fun verdict => ?_) hP
      cases verdict with
      | ok _ => exact ih (invoked + 1)
      | error error => exact Act.writes_pure hP _

theorem broadcast_writes (hP : Entry.Accumulates P) {origin : Origin} {event : Event}
    (hOpening : ∀ count, P [.broadcasting origin event.kind count])
    (hPerform : ∀ listener, (host.perform ((host.listener listener).onEvent event)).Writes P)
    (multicaster : Multicaster) :
    (host.broadcast origin .propagate multicaster event).Writes P :=
  Act.Writes.bind (Act.writes_write (hOpening _))
    (fun _ => invokeAll_writes hP hPerform origin _ 0) hP

end Host

namespace ContextId

variable {host : Host σ} {id : ContextId}

theorem deliver_writes (hP : Entry.Accumulates P) {event : Event}
    (hPerform : ∀ listener, (host.perform ((host.listener listener).onEvent event)).Writes P)
    (context : Context) : (id.deliver host context event).Writes P :=
  (Host.invokeAll_writes hP hPerform _ _ 0).bind (fun _ => Act.writes_pure hP _) hP

theorem publish_writes (hP : Entry.Accumulates P) {event : Event}
    (hOpening : ∀ count, P [.broadcasting (.context id) event.kind count])
    (hPerform : ∀ listener, (host.perform ((host.listener listener).onEvent event)).Writes P) :
    (id.publish host event).Writes P := by
  refine (Act.writes_context hP id).bind (fun context => ?_) hP
  split
  · exact (Host.broadcast_writes hP hOpening hPerform context.multicaster).bind
      (fun _ => Act.writes_pure hP _) hP
  · exact Act.writes_pure hP _

theorem refresh_writes (hP : Entry.Accumulates P)
    (hOpening : ∀ count, P [.broadcasting (.context id) (.context .refreshed) count])
    (hPerform : ∀ listener identity, (host.perform
      ((host.listener listener).onEvent (.context ⟨.refreshed, identity⟩))).Writes P) :
    (id.refresh host).Writes P := by
  refine (Act.writes_context hP id).bind (fun context => ?_) hP
  split
  · refine Act.Writes.bind (Act.writes_modifyContext hP id _) (fun _ => ?_) hP
    have hPublish : (id.publish host (refreshedEvent context)).Writes P :=
      publish_writes hP hOpening fun listener => hPerform listener _
    refine hPublish.bind (fun outcome => ?_) hP
    cases outcome with
    | error error =>
      refine Act.Writes.bind (Act.writes_modifyContext hP id _) (fun _ => ?_) hP
      exact Act.Writes.bind (Act.writes_write (hP.single rfl)) (fun _ => Act.writes_pure hP _) hP
    | ok _ =>
      refine (Act.writes_context hP id).bind (fun after => ?_) hP
      exact Act.Writes.bind (Act.writes_write (hP.single rfl)) (fun _ => Act.writes_pure hP _) hP
  · exact Act.writes_pure hP _

/-- What a close writes, if its announcement has a property of its own. -/
theorem close_writes {Q : List Entry → Prop} (hP : Entry.Accumulates P)
    (hAnnounced : ∀ entries name, Q entries → P (entries ++ [.closed id name]))
    (hPublish : ∀ context, (id.publish host (closedEvent context)).Writes Q) :
    (id.close host).Writes P := by
  intro w outcome w' h
  cases closing_of_close h with
  | idle hContext hState => exact ⟨List.prefix_rfl, hP.quiet _ (by simp)⟩
  | @silent context hContext hState =>
    refine ⟨List.prefix_append _ _, ?_⟩
    have hSince : ((w.setState id .closed).note (.closed id context.displayName)).since w =
      [.closed id context.displayName] := World.since_eq rfl
    rw [hSince]
    exact hP.single rfl
  | @announced context _ w₁ hContext hState hDelivered =>
    obtain ⟨hGrown, hEntries⟩ := hPublish context hDelivered
    have hLast : ((w₁.setState id .closed).note (.closed id context.displayName)).journal =
      w₁.journal ++ [.closed id context.displayName] := rfl
    refine ⟨hGrown.trans (List.prefix_append _ _), ?_⟩
    rw [World.since_append hGrown hLast]
    exact hAnnounced _ _ hEntries

end ContextId

end Startup
