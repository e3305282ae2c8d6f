import Startup.Proofs.Context.Writing
import Startup.Proofs.Effect.Alike

/-!
# A silent listener

A listener that handles every event and changes nothing is noticed only by those who look at the
listeners of a context. If nobody else does, every operation goes on in a world with more or fewer
of its registrations as it does without; only the calls of it nest one level deeper.
-/

namespace Startup

variable {σ α β : Type} {o : ListenerId}

/-- What may be asked without looking at the listeners of a context. -/
def Request.Incurious : Request σ → Prop
  | listeners context => ∃ id, context = .foreign id
  | _ => True

structure Directory.Incurious (directory : Directory σ) (o : ListenerId) : Prop where
  onEvent : ∀ id, id ≠ o → ∀ event,
    ((directory.listener id).onEvent event).Asks Request.Incurious
  onContext : ∀ id supply, (directory.listener id).onContext = some supply →
    ∀ context, (supply context).Asks Request.Incurious
  publish : ∀ id event, ((directory.foreign id).publish event).Asks Request.Incurious
  subscribe : ∀ id listener, ((directory.foreign id).subscribe listener).Asks Request.Incurious

/-- A listener that handles all events without any effect, and wants to be told of no context. -/
structure Directory.Silent (directory : Directory σ) (o : ListenerId) : Prop where
  declare : ∀ memory, ((directory.listener o).declare memory).2 = memory
  onEvent : ∀ depth event w, (Host.ofDepth directory (depth + 1)).perform
    ((directory.listener o).onEvent event) w = some (.ok (), w)
  onContext : (directory.listener o).onContext = none

/-- What programs do on one host they do on another, and there a silent listener handles events. -/
structure Host.Mirrors (o : ListenerId) (host host' : Host σ) : Prop where
  directory : host'.directory = host.directory
  incurious : host.directory.Incurious o
  declare : ∀ memory, ((host.listener o).declare memory).2 = memory
  onContext : (host.listener o).onContext = none
  handled : ∀ {event w answer w'},
    host.perform ((host.listener o).onEvent event) w = some (answer, w') →
      answer = .ok () ∧ w' = w
  handles : ∀ event w, host'.perform ((host.listener o).onEvent event) w = some (.ok (), w)
  perform : ∀ {α : Type} (program : Program σ α), program.Asks Request.Incurious →
    (host.perform program).Repeats o (host'.perform program)

namespace Strategy

theorem propagate_repeats (name : String) (kind : EventKind) (cause : Cause) :
    (propagate name kind cause : Act σ _).Repeats o (propagate name kind cause) :=
  (Act.mirrors_write rfl).andThen fun _ => Act.mirrors_pure rfl

theorem ignore_repeats (name : String) (kind : EventKind) (cause : Cause) :
    (ignore name kind cause : Act σ _).Repeats o (ignore name kind cause) :=
  (Act.mirrors_write rfl).andThen fun _ => Act.mirrors_pure rfl

end Strategy

namespace Host

/-- The listener is registered with what it declares, and nothing else comes of it. -/
theorem enlist_bypasses {host : Host σ}
    (hDeclare : ∀ memory, ((host.listener o).declare memory).2 = memory) :
    (host.enlist o).Bypasses o fun r => r.listener = o := by
  intro w
  let terms := ((host.listener o).declare w.memory).1
  let r : Registration := ⟨o, (host.listener o).name, terms.filter, terms.order⟩
  have hOwn : r.listener = o := rfl
  have hNote := World.Alike.note_self w (Entry.without?_registered hOwn)
  exact ⟨r, _, rfl, hOwn, rfl, rfl, rfl, hNote.journal, (hDeclare w.memory).symm⟩

end Host

namespace ContextId

theorem subscribe_bypasses {host : Host σ}
    (hDeclare : ∀ memory, ((host.listener o).declare memory).2 = memory) (id : ContextId) :
    (id.subscribe host o).Bypasses o fun _ => True := by
  intro w
  obtain ⟨r, w₁, hEnlist, hOwn, hSelf⟩ := Host.enlist_bypasses hDeclare w
  refine ⟨(), _, Act.bind_apply hEnlist, trivial, hSelf.trans ?_⟩
  refine World.Alike.modifyContext_self w₁ id fun c => ?_
  simp only [Context.without, Multicaster.without_register_self hOwn]

theorem register_repeats (id : ContextId) (bean : Bean) :
    (id.register bean : Act σ Unit).Repeats o (id.register bean) := by
  refine Act.mirrors_reading id fun c m _ => ?_
  have hPut : (c.beans.put bean : Act σ Beans).Repeats o (c.beans.put bean) := by
    refine Act.Mirrors.ite ?_ (Act.mirrors_pure rfl)
    exact (Act.mirrors_write rfl).andThen fun _ => Act.mirrors_pure rfl
  exact hPut.andThen fun beans => Act.mirrors_modifyContext_apart id fun _ _ => rfl

theorem setState_repeats (id : ContextId) (state : ContextState) :
    (id.setState state : Act σ Unit).Repeats o (id.setState state) :=
  Act.mirrors_modifyContext_apart id fun _ _ => rfl

end ContextId

namespace Host.Mirrors

variable {host host' : Host σ} (h : host.Mirrors o host')
include h

theorem listener_eq (id : ListenerId) : host'.listener id = host.listener id := by
  rw [Host.listener, h.directory, Host.listener]

theorem declare_right (memory : σ) : ((host'.listener o).declare memory).2 = memory :=
  h.listener_eq o ▸ h.declare memory

theorem enlist (id : ListenerId) : (host.enlist id).Repeats o (host'.enlist id) := by
  rw [Host.enlist, Host.enlist, h.listener_eq]
  refine Act.mirrors_memory.andThen fun memory => ?_
  refine (Act.mirrors_remember _).andThen fun _ => ?_
  exact (Act.mirrors_write rfl).andThen fun _ => Act.mirrors_pure rfl

section

variable {origin : Origin} {strategy : Strategy σ} {event : Event} {r : Registration}

theorem turn_left (hOwn : r.listener = o) {verdict : Except DeliveryError Unit} {w w' : World σ}
    (hTurn : Turn host origin strategy event r w verdict w') :
    verdict = .ok () ∧ w.Alike o w' := by
  have hNote := World.Alike.note_self w (Entry.without?_invoking hOwn origin r.name event.kind)
  cases hTurn with
  | handled hPerform =>
    rw [hOwn] at hPerform
    obtain ⟨-, rfl⟩ := h.handled hPerform
    exact ⟨rfl, hOwn ▸ hNote⟩
  | judged hPerform hStrategy =>
    rw [hOwn] at hPerform
    exact nomatch (h.handled hPerform).1

theorem turn_right (hOwn : r.listener = o) (v : World σ) :
    ∃ v', Turn host' origin strategy event r v (.ok ()) v' ∧ v.Alike o v' := by
  have hNote := World.Alike.note_self v (Entry.without?_invoking hOwn origin r.name event.kind)
  refine ⟨_, .handled ?_, hNote⟩
  rw [h.listener_eq, hOwn]
  exact h.handles event _

variable (origin)
  (hStrategy : ∀ name cause, (strategy name event.kind cause).Repeats o
    (strategy name event.kind cause))
include hStrategy

/-- Every abort comes at the same listener: the silent one is passed over on either side. -/
theorem invokeAll {rs ss : List Registration} (hBeside : Beside (fun r => r.listener == o) rs ss)
    (m n : Nat) :
    (host.invokeAll origin strategy event rs m).Mirrors o (Except.map fun _ => ())
      (host'.invokeAll origin strategy event ss n) := by
  induction hBeside generalizing m n with
  | nil => exact Act.mirrors_pure rfl
  | left hSkip _ ih =>
    intro w v outcome w' hAlike hInvoke
    rcases invokeAll_cons hInvoke with ⟨w₁, hTurn, hRest⟩ | ⟨error, hTurn, -⟩
    · have hSelf := (h.turn_left (beq_iff_eq.mp hSkip) hTurn).2
      exact ih (m + 1) n (hSelf.symm.trans hAlike) hRest
    · exact nomatch (h.turn_left (beq_iff_eq.mp hSkip) hTurn).1
  | right hSkip _ ih =>
    intro w v outcome w' hAlike hInvoke
    obtain ⟨v₁, hTurn, hSelf⟩ := h.turn_right (beq_iff_eq.mp hSkip) v
    rw [hTurn.invokeAll_cons]
    exact ih m (n + 1) (hAlike.trans hSelf) hInvoke
  | @both r _ _ hKeep _ ih =>
    rw [Host.invokeAll, Host.invokeAll, h.listener_eq]
    refine (Act.mirrors_write rfl).andThen fun _ => ?_
    have hOther : r.listener ≠ o := by simpa using hKeep
    refine (h.perform _ (h.incurious.onEvent r.listener hOther event)).andThen fun answer => ?_
    cases answer with
    | ok _ => exact ih (m + 1) (n + 1)
    | error cause =>
      refine (hStrategy r.name cause).andThen fun verdict => ?_
      cases verdict with
      | ok _ => exact ih (m + 1) (n + 1)
      | error error => exact Act.mirrors_pure rfl

theorem invokeAll_same (rs : List Registration) (n : Nat) :
    (host.invokeAll origin strategy event rs n).Repeats o
      (host'.invokeAll origin strategy event rs n) := by
  intro w v outcome w' hAlike hInvoke
  obtain ⟨outcome', v', hInvoke', hSame, hEnd⟩ :=
    h.invokeAll origin hStrategy (Beside.of_filter_eq rfl) n n hAlike hInvoke
  refine ⟨outcome', v', hInvoke', ?_, hEnd⟩
  cases outcome with
  | error error => cases outcome' <;> cases hSame; rfl
  | ok count =>
    cases outcome' with
    | error error => cases hSame
    | ok count' => rw [(invokeAll_ok_iff.mp hInvoke).1, (invokeAll_ok_iff.mp hInvoke').1]

theorem broadcast {m n : Multicaster} (hSame : m.without o = n.without o) :
    (host.broadcast origin strategy m event).Mirrors o (Except.map fun _ => ())
      (host'.broadcast origin strategy n event) := by
  have hBeside := Multicaster.beside_matching hSame event.kind
  refine Act.Mirrors.andThen (Act.mirrors_write ?_) fun _ => ?_
  · rfl
  · exact h.invokeAll origin hStrategy hBeside 0 0

theorem broadcast_same (m : Multicaster) :
    (host.broadcast origin strategy m event).Repeats o
      (host'.broadcast origin strategy m event) :=
  (Act.mirrors_write rfl).andThen fun _ => h.invokeAll_same origin hStrategy _ 0

end

theorem publish (id : ContextId) (event : Event) :
    (id.publish host event).Repeats o (id.publish host' event) := by
  refine Act.mirrors_reading id fun c m hMulticaster => ?_
  refine Act.Mirrors.ite ?_ (Act.mirrors_pure rfl)
  refine (h.broadcast _ (fun name => Strategy.propagate_repeats name _) hMulticaster).bind ?_
  exact fun _ _ hOutcome => Act.mirrors_pure hOutcome

theorem subscribe (id : ContextId) (listener : ListenerId) :
    (id.subscribe host listener).Repeats o (id.subscribe host' listener) := by
  refine (h.enlist listener).andThen fun r =>
    Act.mirrors_modifyContext id fun c m hMulticaster => ?_
  simp only [Context.without, Multicaster.without_register hMulticaster r]

theorem refresh (id : ContextId) : (id.refresh host).Repeats o (id.refresh host') := by
  refine Act.mirrors_reading id fun c m _ => ?_
  refine Act.Mirrors.ite ?_ (Act.mirrors_pure rfl)
  refine (id.setState_repeats _).andThen fun _ => (h.publish id _).andThen fun outcome => ?_
  cases outcome with
  | error error =>
    refine (id.setState_repeats _).andThen fun _ => ?_
    exact (Act.mirrors_write rfl).andThen fun _ => Act.mirrors_pure rfl
  | ok _ =>
    refine Act.mirrors_reading id fun c m _ => ?_
    exact (Act.mirrors_write rfl).andThen fun _ => Act.mirrors_pure rfl

theorem close (id : ContextId) : (id.close host).Repeats o (id.close host') := by
  refine Act.mirrors_reading id fun c m _ => ?_
  refine Act.Mirrors.ite (Act.mirrors_pure rfl) ?_
  have hLast (outcome : Except DeliveryError Unit) : (do
      id.setState .closed
      Act.write (.closed id c.displayName)
      return outcome : Act σ _).Repeats o (do
        id.setState .closed
        Act.write (.closed id c.displayName)
        return outcome) := by
    refine (id.setState_repeats _).andThen fun _ => ?_
    exact (Act.mirrors_write rfl).andThen fun _ => Act.mirrors_pure rfl
  exact Act.Mirrors.ite ((h.publish id _).andThen hLast) ((Act.mirrors_pure rfl).andThen hLast)

end Host.Mirrors

namespace ContextRef

variable {host host' : Host σ} (ref : ContextRef)

theorem register_repeats (bean : Bean) :
    (ref.register bean : Act σ _).Repeats o (ref.register bean) := by
  cases ref with
  | managed id => exact (id.register_repeats bean).andThen fun _ => Act.mirrors_pure rfl
  | foreign id => exact Act.mirrors_pure rfl

theorem beans_repeats : (ref.beans : Act σ _).Repeats o ref.beans := by
  cases ref with
  | managed id =>
    refine Act.mirrors_reading id fun c m _ => ?_
    exact Act.mirrors_pure rfl
  | foreign id => exact Act.mirrors_pure rfl

variable (h : host.Mirrors o host')
include h

theorem publish_repeats (event : Event) :
    (ref.publish host event).Repeats o (ref.publish host' event) := by
  cases ref with
  | managed id => exact h.publish id event
  | foreign id =>
    rw [publish, publish, h.directory]
    exact h.perform _ (h.incurious.publish id event)

theorem subscribe_repeats (listener : ListenerId) :
    (ref.subscribe host listener).Repeats o (ref.subscribe host' listener) := by
  cases ref with
  | managed id => exact h.subscribe id listener
  | foreign id =>
    rw [subscribe, subscribe, h.directory]
    exact h.perform _ (h.incurious.subscribe id listener)

theorem isActive_repeats : (ref.isActive host).Repeats o (ref.isActive host') := by
  cases ref with
  | managed id =>
    refine Act.mirrors_reading id fun c m _ => ?_
    exact Act.mirrors_pure rfl
  | foreign id =>
    rw [isActive, isActive, h.directory]
    exact Act.mirrors_memory.andThen fun _ => Act.mirrors_pure rfl

theorem identity_repeats : (ref.identity host).Repeats o (ref.identity host') := by
  cases ref with
  | managed id =>
    refine Act.mirrors_reading id fun c m _ => ?_
    exact Act.mirrors_pure rfl
  | foreign id =>
    rw [identity, identity, h.directory]
    exact Act.mirrors_memory.andThen fun _ => Act.mirrors_pure rfl

/-- The listeners that a context tells of are the same but for the silent one. -/
theorem listeners_mirrors : (ref.listeners host).Mirrors o
    (Option.map (List.filter fun id => !(id == o))) (ref.listeners host') := by
  cases ref with
  | managed id =>
    refine Act.mirrors_reading id fun c m hMulticaster => ?_
    refine Act.mirrors_pure ?_
    rw [Option.map_some, Option.map_some, ← Multicaster.listeners_without,
      ← Multicaster.listeners_without, hMulticaster]
  | foreign id =>
    rw [listeners, listeners, h.directory]
    exact Act.mirrors_memory.andThen fun _ => Act.mirrors_pure rfl

end ContextRef

namespace Host

variable {host host' : Host σ}

theorem Mirrors.answer (h : host.Mirrors o host') (q : Request σ) (hq : q.Incurious) :
    (host.answer q).Repeats o (host'.answer q) := by
  cases q with
  | publish context event => exact context.publish_repeats h event
  | subscribe context listener => exact context.subscribe_repeats h listener
  | isActive context => exact context.isActive_repeats h
  | listeners context =>
    obtain ⟨id, rfl⟩ := hq
    rw [Host.answer, Host.answer, ContextRef.listeners, ContextRef.listeners, h.directory]
    exact Act.mirrors_memory.andThen fun _ => Act.mirrors_pure rfl
  | identity context => exact context.identity_repeats h
  | register context bean => exact context.register_repeats bean
  | resolve context type => exact context.beans_repeats.andThen fun _ => Act.mirrors_pure rfl
  | beanTypes context => exact context.beans_repeats.andThen fun _ => Act.mirrors_pure rfl
  | refresh context => exact h.refresh context
  | close context => exact h.close context
  | createStore properties => exact Act.mirrors_addStore properties
  | properties store => exact Act.mirrors_properties store
  | assign store pairs => exact Act.mirrors_assign store pairs
  | listenerName listener =>
    rw [Host.answer, Host.answer, h.listener_eq]
    exact Act.mirrors_pure rfl
  | enlist listener => exact h.enlist listener
  | broadcast multicaster event =>
    exact h.broadcast_same _ (fun name => Strategy.propagate_repeats name _) multicaster
  | memory => exact Act.mirrors_memory
  | remember memory => exact Act.mirrors_remember memory

theorem Mirrors.interpret (h : host.Mirrors o host') {program : Program σ α}
    (hProgram : program.Asks Request.Incurious) :
    (program.interpret host.answer).Repeats o (program.interpret host'.answer) := by
  induction program with
  | done value => exact Act.mirrors_pure rfl
  | ask q next ih =>
    exact (h.answer q hProgram.1).andThen fun reply => ih reply (hProgram.2 reply)

section

variable {directory : Directory σ} (hSilent : directory.Silent o)
include hSilent

theorem ok_of_silent {depth : Nat} {event : Event} {w w' : World σ} {answer : Except Cause Unit}
    (h : (ofDepth directory depth).perform ((directory.listener o).onEvent event) w =
      some (answer, w')) : answer = .ok () ∧ w' = w := by
  cases depth with
  | zero => cases h
  | succ depth =>
    rw [hSilent.onEvent] at h
    cases h
    exact ⟨rfl, rfl⟩

variable (hIncurious : directory.Incurious o)
include hIncurious

theorem mirrors_of_perform {depth : Nat}
    (hPerform : ∀ {α : Type} (program : Program σ α), program.Asks Request.Incurious →
      ((ofDepth directory depth).perform program).Repeats o
        ((ofDepth directory (depth + 1)).perform program)) :
    (ofDepth directory depth).Mirrors o (ofDepth directory (depth + 1)) := by
  have hListener : (ofDepth directory depth).listener o = directory.listener o := by
    rw [Host.listener, directory_ofDepth]
  constructor
  case directory => rw [directory_ofDepth, directory_ofDepth]
  case incurious => rwa [directory_ofDepth]
  case perform => exact hPerform
  all_goals rw [hListener]
  case declare => exact hSilent.declare
  case onContext => exact hSilent.onContext
  case handled => exact ok_of_silent hSilent
  case handles => exact hSilent.onEvent depth

/-- Where calls may nest one level deeper, all that came back does so in spite of the listener. -/
theorem mirrors_ofDepth (depth : Nat) :
    (ofDepth directory depth).Mirrors o (ofDepth directory (depth + 1)) := by
  induction depth with
  | zero => exact mirrors_of_perform hSilent hIncurious nofun
  | succ depth ih =>
    exact mirrors_of_perform hSilent hIncurious fun program hProgram => ih.interpret hProgram

end

end Host

end Startup
