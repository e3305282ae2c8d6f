import Startup.Proofs.Context.Mirroring
import Startup.Proofs.Lifecycle.HandOver
import Startup.Proofs.Lifecycle.Stages

/-!
# A silent listener of an application

An application that holds a silent listener besides is registered, handed over and failed over with
as without it: a publisher goes the same way, with the listener in its collection or not, and so
does every part of a run.
-/

namespace Startup

variable {σ α β ε : Type} {o : ListenerId} {host host' : Host σ}

namespace Application

def without (application : Application σ) (o : ListenerId) : Application σ :=
  { application with listeners := application.listeners.filter fun id => !(id == o) }

theorem eq_of_without {a b : Application σ} (h : a.without o = b.without o) :
    ∃ listeners, b = { a with listeners := listeners } ∧
      Beside (fun id => id == o) a.listeners listeners := by
  cases a
  cases b
  obtain ⟨rfl, hRest⟩ := Application.mk.inj h
  obtain ⟨rfl, hListeners, rfl, rfl, rfl⟩ := hRest
  exact ⟨_, rfl, .of_filter_eq hListeners⟩

end Application

namespace Publisher

def without (p : Publisher σ) (o : ListenerId) : Publisher σ :=
  { p with application := p.application.without o, multicaster := p.multicaster.without o }

theorem eq_of_without {p q : Publisher σ} (h : p.without o = q.without o) :
    ∃ listeners m, q = { p with
        application := { p.application with listeners := listeners }, multicaster := m } ∧
      Beside (fun id => id == o) p.application.listeners listeners ∧
      p.multicaster.without o = m.without o := by
  cases p
  cases q
  obtain ⟨hApplication, hRest⟩ := Publisher.mk.inj h
  obtain ⟨rfl, hMulticaster, rfl⟩ := hRest
  obtain ⟨listeners, rfl, hBeside⟩ := Application.eq_of_without hApplication
  exact ⟨listeners, _, rfl, hBeside, hMulticaster⟩

theorem without_congr {p q : Publisher σ} (h : p.without o = q.without o) {m n : Multicaster}
    (hSame : m.without o = n.without o) :
    { p with multicaster := m }.without o = { q with multicaster := n }.without o := by
  obtain ⟨hApplication, hArguments, -, hLast⟩ := Publisher.mk.inj h
  rw [without, without, hApplication, hArguments, hSame, hLast]

theorem supply_of_onContext_none {context : ContextRef} {listener : ListenerId}
    (h : (host.listener listener).onContext = none) :
    supply host context listener = pure () := by
  rw [supply, h]

end Publisher

namespace Host.Mirrors

variable (h : host.Mirrors o host')
include h

theorem enlistAll {ids jds : List ListenerId} (hBeside : Beside (fun id => id == o) ids jds)
    {m n : Multicaster} (hSame : m.without o = n.without o) :
    (host.enlistAll m ids).Mirrors o (fun after => after.without o) (host'.enlistAll n jds) := by
  induction hBeside generalizing m n with
  | nil => exact Act.mirrors_pure hSame
  | left hSkip _ ih =>
    obtain rfl := beq_iff_eq.mp hSkip
    refine (enlist_bypasses h.declare).left fun r hOwn => ih ?_
    rw [Multicaster.without_register_self hOwn, hSame]
  | right hSkip _ ih =>
    obtain rfl := beq_iff_eq.mp hSkip
    refine (enlist_bypasses h.declare_right).right fun r hOwn => ih ?_
    rw [Multicaster.without_register_self hOwn, hSame]
  | both hKeep _ ih =>
    exact (h.enlist _).andThen fun r => ih (Multicaster.without_register hSame r)

theorem create {a b : Application σ} (hSame : a.without o = b.without o)
    (arguments : List String) :
    (Publisher.create host a arguments).Mirrors o (fun p => p.without o)
      (Publisher.create host' b arguments) := by
  obtain ⟨listeners, rfl, hBeside⟩ := Application.eq_of_without hSame
  refine (h.enlistAll hBeside rfl).bind fun m n hMulticaster => Act.mirrors_pure ?_
  rw [Publisher.without, Publisher.without, hMulticaster, hSame]

theorem supply (context : ContextRef) {listener : ListenerId} :
    (Publisher.supply host context listener).Repeats o
      (Publisher.supply host' context listener) := by
  rw [Publisher.supply, Publisher.supply, h.listener_eq]
  cases hSupply : (host.listener listener).onContext with
  | none => exact Act.mirrors_pure rfl
  | some program =>
    refine (context.identity_repeats h).andThen fun _ => ?_
    refine (Act.mirrors_write rfl).andThen fun _ => ?_
    exact h.perform _ (h.incurious.onContext listener program hSupply context)

theorem handOver (id : ContextId) {ids jds : List ListenerId}
    (hBeside : Beside (fun id => id == o) ids jds) :
    (Publisher.handOver host (.managed id) ids).Repeats o
      (Publisher.handOver host' (.managed id) jds) := by
  have hRight : (host'.listener o).onContext = none := h.listener_eq o ▸ h.onContext
  induction hBeside with
  | nil => exact Act.mirrors_pure rfl
  | left hSkip _ ih =>
    obtain rfl := beq_iff_eq.mp hSkip
    rw [Publisher.handOver_cons, Publisher.supply_of_onContext_none h.onContext, pure_bind]
    exact (id.subscribe_bypasses h.declare).left fun _ _ => ih
  | right hSkip _ ih =>
    obtain rfl := beq_iff_eq.mp hSkip
    rw [Publisher.handOver_cons, Publisher.supply_of_onContext_none hRight, pure_bind]
    exact (id.subscribe_bypasses h.declare_right).right fun _ _ => ih
  | both hKeep _ ih =>
    rw [Publisher.handOver_cons, Publisher.handOver_cons]
    refine (h.supply _).andThen fun _ => ?_
    exact (h.subscribe id _).andThen fun _ => ih

theorem copyListeners {ids jds : List ListenerId} (hBeside : Beside (fun id => id == o) ids jds)
    {m n : Multicaster} (hSame : m.without o = n.without o) (i j : Nat) :
    (Publisher.copyListeners host ids m i).Mirrors o (fun joined => joined.1.without o)
      (Publisher.copyListeners host' jds n j) := by
  induction hBeside generalizing m n i j with
  | nil => exact Act.mirrors_pure hSame
  | left hSkip _ ih =>
    obtain rfl := beq_iff_eq.mp hSkip
    rw [Publisher.copyListeners]
    split
    · exact ih hSame i j
    · refine (enlist_bypasses h.declare).left fun r hOwn => ih ?_ (i + 1) j
      rw [Multicaster.without_register_self hOwn, hSame]
  | right hSkip _ ih =>
    obtain rfl := beq_iff_eq.mp hSkip
    rw [Publisher.copyListeners]
    split
    · exact ih hSame i j
    · refine (enlist_bypasses h.declare_right).right fun r hOwn => ih ?_ i (j + 1)
      rw [Multicaster.without_register_self hOwn, hSame]
  | @both id _ _ hKeep _ ih =>
    have hOther : id ≠ o := by simpa using hKeep
    have hContains : m.contains id = n.contains id := by
      rw [← Multicaster.contains_of_ne hOther, hSame, Multicaster.contains_of_ne hOther]
    rw [Publisher.copyListeners, Publisher.copyListeners, hContains]
    refine Act.Mirrors.ite (ih hSame i j) ?_
    exact (h.enlist id).andThen fun r =>
      ih (Multicaster.without_register hSame r) (i + 1) (j + 1)

theorem joinContext (context : ContextRef) {m n : Multicaster}
    (hSame : m.without o = n.without o) :
    (Publisher.joinContext host context m).Mirrors o (fun joined => joined.without o)
      (Publisher.joinContext host' context n) := by
  refine (context.listeners_mirrors h).bind fun ids jds hListeners => ?_
  cases ids with
  | none =>
    obtain rfl := Option.map_eq_none_iff.mp hListeners.symm
    refine (context.identity_repeats h).andThen fun _ => ?_
    refine Act.Mirrors.andThen (Act.mirrors_write ?_) fun _ => Act.mirrors_pure hSame
    rfl
  | some ids =>
    obtain ⟨jds, rfl, hOthers⟩ := Option.map_eq_some_iff.mp hListeners.symm
    refine (h.copyListeners (.of_filter_eq hOthers.symm) hSame 0 0).bind fun a b hJoined => ?_
    refine (context.identity_repeats h).andThen fun _ => ?_
    refine Act.Mirrors.andThen (Act.mirrors_write ?_) fun _ => Act.mirrors_pure hJoined
    rfl

theorem broadcastAll {strategy : Strategy σ} {event : Event}
    (hStrategy : ∀ name cause, (strategy name event.kind cause).Repeats o
      (strategy name event.kind cause)) {m n : Multicaster} (hSame : m.without o = n.without o) :
    (Publisher.broadcast host strategy m event).Repeats o
      (Publisher.broadcast host' strategy n event) :=
  (h.broadcast .other hStrategy hSame).bind fun _ _ hOutcome => Act.mirrors_pure hOutcome

theorem deliverFailure (context : Option ContextRef) {m n : Multicaster}
    (hSame : m.without o = n.without o) (event : Event) :
    (Publisher.deliverFailure host context m event).Mirrors o (fun r => (r.1, r.2.without o))
      (Publisher.deliverFailure host' context n event) := by
  have hIgnore (name : String) (cause : Cause) := Strategy.ignore_repeats (σ := σ) (o := o) name
    event.kind cause
  have hPair (outcome : Except DeliveryError Unit) {m n : Multicaster}
      (hSame : m.without o = n.without o) :
      (pure (outcome, m) : Act σ _).Mirrors o (fun r => (r.1, r.2.without o))
        (pure (outcome, n)) := Act.mirrors_pure (by rw [hSame])
  cases context with
  | none => exact (h.broadcastAll hIgnore hSame).andThen fun outcome => hPair outcome hSame
  | some context =>
    refine (context.isActive_repeats h).andThen fun active => Act.Mirrors.ite ?_ ?_
    · refine (context.identity_repeats h).andThen fun _ => ?_
      refine (Act.mirrors_write rfl).andThen fun _ => ?_
      exact (context.publish_repeats h event).andThen fun outcome => hPair outcome hSame
    · refine (h.joinContext context hSame).bind fun a b hJoined => ?_
      exact (h.broadcastAll hIgnore hJoined).andThen fun outcome => hPair outcome hJoined

/-- What is announced tells of no context but one of the library. -/
theorem deliver {payload : RunPayload}
    (hManaged : ∀ ref, payload.context? = some ref → ∃ id, ref = .managed id) {p q : Publisher σ}
    (hSame : p.without o = q.without o) :
    (p.deliver host (p.event payload) payload).Mirrors o (fun r => (r.1, r.2.without o))
      (q.deliver host' (q.event payload) payload) := by
  obtain ⟨listeners, m, rfl, hBeside, hMulticaster⟩ := Publisher.eq_of_without hSame
  have hPair (outcome : Except DeliveryError Unit) :
      (pure (outcome, p.multicaster) : Act σ _).Mirrors o (fun r => (r.1, r.2.without o))
        (pure (outcome, m)) := Act.mirrors_pure (by rw [hMulticaster])
  have hBroadcast := (h.broadcastAll
    (fun name => Strategy.propagate_repeats name (p.event payload).kind) hMulticaster).andThen
      hPair
  cases payload with
  | failed context cause => exact h.deliverFailure context hMulticaster _
  | contextLoaded context =>
    obtain ⟨id, rfl⟩ := hManaged context rfl
    refine (h.handOver id hBeside).andThen fun _ => ?_
    refine ((ContextRef.managed id).identity_repeats h).andThen fun _ => ?_
    refine Act.Mirrors.andThen (Act.mirrors_write ?_) fun _ => hBroadcast
    rfl
  | started context => exact (context.publish_repeats h _).andThen hPair
  | running context => exact (context.publish_repeats h _).andThen hPair
  | starting => exact hBroadcast
  | environmentPrepared environment => exact hBroadcast
  | contextInitialized context => exact hBroadcast

theorem announce {payload : RunPayload}
    (hManaged : ∀ ref, payload.context? = some ref → ∃ id, ref = .managed id) {p q : Publisher σ}
    (hSame : p.without o = q.without o) :
    (p.announce host payload).Mirrors o (fun r => (r.1, r.2.without o))
      (q.announce host' payload) := by
  have hNext : { p with last := some payload.phase }.without o =
      { q with last := some payload.phase }.without o := by
    obtain ⟨hApplication, hArguments, hMulticaster, -⟩ := Publisher.mk.inj hSame
    rw [Publisher.without, Publisher.without, hApplication, hArguments, hMulticaster]
  obtain ⟨listeners, m, rfl, -, -⟩ := Publisher.eq_of_without hSame
  refine Act.Mirrors.ite ?_ (Act.mirrors_pure (by rw [hSame]))
  refine (Act.mirrors_write rfl).andThen fun _ => (h.deliver hManaged hNext).bind fun a b hEnd => ?_
  obtain ⟨hOutcome, hMulticaster⟩ := Prod.mk.inj hEnd
  refine Act.mirrors_pure ?_
  rw [hOutcome]
  exact congrArg (Prod.mk _) (Publisher.without_congr hNext hMulticaster)

end Host.Mirrors

end Startup
