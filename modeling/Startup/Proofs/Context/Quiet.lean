import Startup.Proofs.Context.Nesting

/-!
# Calls and quiet programs

The journal tells every call of a listener, in order. A quiet program makes no call, directly or
through the library, and leaves the contexts in their states and, unless it is there to add
listeners to one, with the listeners that they have.
-/

namespace Startup

variable {σ α β : Type}

/-- A listener is called with an event, or with the context that it is handed over to. -/
inductive Call where
  | event (origin : Origin) (listener : ListenerId) (kind : EventKind)
  | context (listener : ListenerId)
  deriving DecidableEq

def Call.turns (origin : Origin) (kind : EventKind) (registrations : List Registration) :
    List Call :=
  registrations.map fun r => .event origin r.listener kind

namespace Entry

def call? : Entry → Option Call
  | invoking origin listener _ kind => some (.event origin listener kind)
  | supplyingContext _ listener _ => some (.context listener)
  | _ => none

def calls (entries : List Entry) : List Call :=
  entries.filterMap call?

theorem calls_append (a b : List Entry) : calls (a ++ b) = calls a ++ calls b :=
  List.filterMap_append

end Entry

namespace World

def multicasterOf (w : World σ) (id : ContextId) : Option Multicaster :=
  (w.context? id).map Context.multicaster

/-- What a context holds later begins with what it holds now. -/
theorem Path.held {scope : Scope} {w w' : World σ} (h : Path scope w w') {id : ContextId}
    {registrations : List Registration} (hHeld : w.multicasterOf id = some ⟨registrations⟩) :
    ∃ more, w'.multicasterOf id = some ⟨registrations ++ more⟩ := by
  obtain ⟨context, hContext, hRegistrations⟩ := Option.map_eq_some_iff.mp hHeld
  obtain ⟨after, hAfter, hKeeps⟩ := h.keeps hContext
  obtain ⟨more, hMore⟩ := hKeeps.registrations
  rw [hRegistrations] at hMore
  exact ⟨more, by rw [multicasterOf, hAfter, Option.map_some, hMore]⟩

/-- The calls from one world to another, with all contexts in the states that they had, and, if
there is no context that listeners are added to, with the same listeners. -/
structure Hears (own : Option ContextId) (calls : List Call) (w w' : World σ) : Prop where
  grown : w.journal <+: w'.journal
  calls_eq : Entry.calls (w'.since w) = calls
  length : w'.contexts.length = w.contexts.length
  states : ∀ id, w'.stateOf id = w.stateOf id
  multicasters : own = none → ∀ id, w'.multicasterOf id = w.multicasterOf id

/-- A context that listeners are added to is not active while this is done. -/
def Idle (own : Option ContextId) (w : World σ) : Prop :=
  ∀ id, own = some id → w.stateOf id ≠ some .active

theorem idle_none (w : World σ) : w.Idle none :=
  nofun

variable {own : Option ContextId} {a b : List Call} {w v w' : World σ}

namespace Hears

theorem refl (w : World σ) : w.Hears own [] w :=
  ⟨List.prefix_rfl, by rw [since_self]; rfl, rfl, fun _ => rfl, fun _ _ => rfl⟩

theorem trans (h : w.Hears own a v) (hNext : v.Hears own b w') : w.Hears own (a ++ b) w' where
  grown := h.grown.trans hNext.grown
  calls_eq := by
    rw [since_trans h.grown hNext.grown, Entry.calls_append, h.calls_eq, hNext.calls_eq]
  length := hNext.length.trans h.length
  states id := (hNext.states id).trans (h.states id)
  multicasters hNone id := (hNext.multicasters hNone id).trans (h.multicasters hNone id)

theorem loosen (h : w.Hears none a w') : w.Hears own a w' :=
  ⟨h.grown, h.calls_eq, h.length, h.states, fun _ => h.multicasters rfl⟩

theorem idle (h : w.Hears own a w') (hIdle : w.Idle own) : w'.Idle own := by
  intro id hOwn
  rw [h.states]
  exact hIdle id hOwn

theorem note (w : World σ) (entry : Entry) : w.Hears own (Entry.calls [entry]) (w.note entry) :=
  ⟨List.prefix_append _ _, by rw [since_eq (journal_note w entry)], rfl, fun _ => rfl,
    fun _ _ => rfl⟩

theorem of_contexts (hJournal : w'.journal = w.journal) (hContexts : w'.contexts = w.contexts) :
    w.Hears own [] w' where
  grown := hJournal ▸ List.prefix_rfl
  calls_eq := by rw [since, hJournal, List.drop_length]; rfl
  length := by rw [hContexts]
  states id := by rw [stateOf, context?, hContexts]; rfl
  multicasters _ id := by rw [multicasterOf, context?, hContexts]; rfl

theorem modifyContext (w : World σ) (id : ContextId) {f : Context → Context}
    (hState : ∀ c, (f c).state = c.state)
    (hMulticaster : own = none → ∀ c, (f c).multicaster = c.multicaster) :
    w.Hears own [] (w.modifyContext id f) where
  grown := List.prefix_rfl
  calls_eq := congrArg Entry.calls (since_eq (List.append_nil _).symm)
  length := List.length_modify ..
  states _ := stateOf_modifyContext hState
  multicasters hNone other := by
    rw [multicasterOf, multicasterOf, context?_modifyContext]
    split
    · rw [Option.map_map]
      exact congrArg (fun g => (w.context? other).map g) (funext (hMulticaster hNone))
    · rfl

end Hears

end World

variable {own : Option ContextId}

/-- What may be asked quietly: nothing that delivers events, except that an initializer may publish
through the context that it works on, which refuses that, and add listeners. -/
def Request.Quiet (own : Option ContextId) : Request σ → Prop
  | publish context _ => ∃ id, own = some id ∧ context = .managed id
  | subscribe context _ => own ≠ none ∧ ∃ id, context = .managed id
  | refresh _ => False
  | close _ => False
  | broadcast _ _ => False
  | _ => True

def Program.Quiet (own : Option ContextId) : Program σ α → Prop
  | .done _ => True
  | .ask request next => request.Quiet own ∧ ∀ answer, (next answer).Quiet own

namespace Act

def Hushed (own : Option ContextId) (act : Act σ α) : Prop :=
  ∀ ⦃w a w'⦄, w.Idle own → act w = some (a, w') → w.Hears own [] w'

theorem hushed_pure (a : α) : (pure a : Act σ α).Hushed own := by
  intro w b w' _ h
  obtain ⟨-, rfl⟩ := pure_inv h
  exact .refl w

theorem Hushed.bind {act : Act σ α} {f : α → Act σ β} (hAct : act.Hushed own)
    (hRest : ∀ a, (f a).Hushed own) : (act >>= f).Hushed own := by
  intro w b w' hIdle h
  obtain ⟨a, w₁, h₁, h₂⟩ := bind_inv h
  have hFirst := hAct hIdle h₁
  exact hFirst.trans (hRest a (hFirst.idle hIdle) h₂)

theorem hushed_write {entry : Entry} (hEntry : entry.call? = none) :
    (write entry : Act σ Unit).Hushed own := by
  intro w a w' _ h
  rw [write_inv h]
  have hNote : w.Hears own _ (w.note entry) := .note w entry
  rwa [Entry.calls, List.filterMap_cons_none hEntry] at hNote

theorem hushed_context (id : ContextId) : (Act.context id : Act σ Context).Hushed own := by
  intro w a w' _ h
  obtain ⟨-, rfl⟩ := context_inv h
  exact .refl w

theorem hushed_memory : (memory : Act σ σ).Hushed own := by
  intro w a w' _ h
  cases h
  exact .refl w

theorem hushed_remember (value : σ) : (remember value).Hushed own := by
  intro w a w' _ h
  cases h
  exact .of_contexts rfl rfl

theorem hushed_properties (id : StoreId) :
    (Act.properties id : Act σ Properties).Hushed own := by
  intro w a w' _ h
  obtain ⟨-, rfl⟩ := properties_inv h
  exact .refl w

theorem hushed_assign (id : StoreId) (pairs : List (String × String)) :
    (Act.assign id pairs : Act σ Unit).Hushed own := by
  intro w a w' _ h
  cases h
  exact .of_contexts rfl rfl

theorem hushed_addStore (properties : Properties) :
    (Act.addStore properties : Act σ StoreId).Hushed own := by
  intro w a w' _ h
  cases h
  exact .of_contexts rfl rfl

theorem hushed_modifyContext (id : ContextId) {f : Context → Context}
    (hState : ∀ c, (f c).state = c.state)
    (hMulticaster : own = none → ∀ c, (f c).multicaster = c.multicaster) :
    (Act.modifyContext id f : Act σ Unit).Hushed own := by
  intro w a w' _ h
  rw [modifyContext_apply] at h
  cases h
  exact .modifyContext w id hState hMulticaster

end Act

namespace Host

variable (host : Host σ)

theorem enlist_hushed (id : ListenerId) : (host.enlist id).Hushed own :=
  Act.hushed_memory.bind fun _ => (Act.hushed_remember _).bind fun _ =>
    (Act.hushed_write rfl).bind fun _ => Act.hushed_pure _

theorem enlistAll_hushed (ids : List ListenerId) (multicaster : Multicaster) :
    (host.enlistAll multicaster ids).Hushed own := by
  induction ids generalizing multicaster with
  | nil => exact Act.hushed_pure multicaster
  | cons id ids ih => exact (host.enlist_hushed id).bind fun r => ih (multicaster.register r)

end Host

namespace ContextId

theorem multicasterOf_of_context? {w : World σ} {id : ContextId} {context : Context}
    (h : w.context? id = some context) : w.multicasterOf id = some context.multicaster := by
  rw [World.multicasterOf, h, Option.map_some]

theorem subscribe_hushed (host : Host σ) (id : ContextId) (listener : ListenerId)
    (hOwn : own ≠ none) : (id.subscribe host listener).Hushed own :=
  (host.enlist_hushed listener).bind fun _ =>
    Act.hushed_modifyContext id (fun _ => rfl) fun hNone => absurd hNone hOwn

theorem register_hushed (id : ContextId) (bean : Bean) :
    (id.register bean : Act σ Unit).Hushed own := by
  refine (Act.hushed_context id).bind fun context => ?_
  have hPut : (context.beans.put bean : Act σ Beans).Hushed own := by
    rw [Beans.put]
    split
    · exact (Act.hushed_write rfl).bind fun _ => Act.hushed_pure _
    · exact Act.hushed_pure _
  exact hPut.bind fun _ => Act.hushed_modifyContext id (fun _ => rfl) fun _ _ => rfl

/-- A context that is not active refuses to publish. -/
theorem publish_hushed (host : Host σ) (id : ContextId) (event : Event) :
    (id.publish host event).Hushed (some id) := by
  intro w outcome w' hIdle h
  cases publishing_of_publish h with
  | rejected hContext hState => exact .refl w
  | delivered hContext hState hDeliver =>
    exact absurd (hState ▸ stateOf_of_context? hContext) (hIdle id rfl)

end ContextId

namespace ContextRef

variable (host : Host σ) (ref : ContextRef)

theorem isActive_hushed : (ref.isActive host).Hushed own := by
  cases ref with
  | managed id => exact (Act.hushed_context id).bind fun _ => Act.hushed_pure _
  | foreign id => exact Act.hushed_memory.bind fun _ => Act.hushed_pure _

theorem listeners_hushed : (ref.listeners host).Hushed own := by
  cases ref with
  | managed id => exact (Act.hushed_context id).bind fun _ => Act.hushed_pure _
  | foreign id => exact Act.hushed_memory.bind fun _ => Act.hushed_pure _

theorem identity_hushed : (ref.identity host).Hushed own := by
  cases ref with
  | managed id => exact (Act.hushed_context id).bind fun _ => Act.hushed_pure _
  | foreign id => exact Act.hushed_memory.bind fun _ => Act.hushed_pure _

theorem beans_hushed : (ref.beans : Act σ _).Hushed own := by
  cases ref with
  | managed id => exact (Act.hushed_context id).bind fun _ => Act.hushed_pure _
  | foreign id => exact Act.hushed_pure _

theorem register_hushed (bean : Bean) : (ref.register bean : Act σ _).Hushed own := by
  cases ref with
  | managed id => exact (id.register_hushed bean).bind fun _ => Act.hushed_pure _
  | foreign id => exact Act.hushed_pure _

end ContextRef

namespace Host

theorem answer_hushed (host : Host σ) (q : Request σ) (hq : q.Quiet own) :
    (host.answer q).Hushed own := by
  cases q with
  | publish context event =>
    obtain ⟨id, rfl, rfl⟩ := hq
    exact id.publish_hushed host event
  | subscribe context listener =>
    obtain ⟨hOwn, id, rfl⟩ := hq
    exact id.subscribe_hushed host listener hOwn
  | isActive context => exact context.isActive_hushed host
  | listeners context => exact context.listeners_hushed host
  | identity context => exact context.identity_hushed host
  | register context bean => exact context.register_hushed bean
  | resolve context type => exact context.beans_hushed.bind fun _ => Act.hushed_pure _
  | beanTypes context => exact context.beans_hushed.bind fun _ => Act.hushed_pure _
  | refresh context => exact hq.elim
  | close context => exact hq.elim
  | createStore properties => exact Act.hushed_addStore properties
  | properties store => exact Act.hushed_properties store
  | assign store pairs => exact Act.hushed_assign store pairs
  | listenerName listener => exact Act.hushed_pure _
  | enlist listener => exact host.enlist_hushed listener
  | broadcast multicaster event => exact hq.elim
  | memory => exact Act.hushed_memory
  | remember memory => exact Act.hushed_remember memory

theorem interpret_hushed (host : Host σ) (program : Program σ α) (hProgram : program.Quiet own) :
    (program.interpret host.answer).Hushed own := by
  induction program with
  | done value => exact Act.hushed_pure value
  | ask q next ih =>
    exact (host.answer_hushed q hProgram.1).bind fun reply => ih reply (hProgram.2 reply)

theorem perform_hushed (directory : Directory σ) (depth : Nat) {program : Program σ α}
    (hProgram : program.Quiet own) : ((ofDepth directory depth).perform program).Hushed own := by
  cases depth with
  | zero =>
    intro w a w' _ h
    cases h
  | succ depth => exact interpret_hushed _ program hProgram

end Host

end Startup
