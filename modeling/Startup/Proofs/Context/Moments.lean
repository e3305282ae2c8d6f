import Startup.Proofs.Context.Quiet
import Startup.Proofs.Context.Writing

/-!
# The moments of a run

While a program runs, and the listeners that it calls run, and those that they call, events are
published through contexts and listeners join them. An observer sees these moments in the order of
time. It misses none of them: the collections of all contexts, and what the journal tells of
publications, are at every moment what the moments before it made of them.
-/

namespace Startup

variable {σ α β : Type}

/-- An event is about to be published through a context, or a registration to join its collection,
in a world. -/
inductive Moment (σ : Type) where
  | publishes (id : ContextId) (event : Event) (world : World σ)
  | joins (id : ContextId) (r : Registration) (world : World σ)

/-- What is seen of a world: the collections of its contexts, and the publications that the journal
tells of. -/
@[ext] structure View where
  collections : ContextId → Option Multicaster
  published : List Entry

def Entry.isPublication : Entry → Bool
  | broadcasting (.context _) _ _ => true
  | _ => false

theorem Entry.isPublication_of_not_isBroadcast {entry : Entry} (h : entry.isBroadcast = false) :
    entry.isPublication = false := by
  cases entry <;> first | rfl | cases h

def World.view (w : World σ) : View :=
  ⟨w.multicasterOf, w.journal.filter Entry.isPublication⟩

namespace Moment

def world : Moment σ → World σ
  | publishes _ _ w => w
  | joins _ _ w => w

/-- What a moment puts behind the collection of a context. -/
def adds (id : ContextId) : Moment σ → List Registration
  | publishes _ _ _ => []
  | joins other r _ => if id = other then [r] else []

/-- What the journal tells of a moment: an event is announced if the context is active. -/
def announces : Moment σ → List Entry
  | publishes id event w =>
    match w.context? id with
    | some context => if context.isActive then [id.opening context event] else []
    | none => []
  | joins _ _ _ => []

/-- Everything that moments put behind the collection of a context. -/
def joined (id : ContextId) (moments : List (Moment σ)) : List Registration :=
  moments.flatMap (adds id)

end Moment

namespace View

def next (v : View) (m : Moment σ) : View where
  collections id := (v.collections id).map fun held => ⟨held.registrations ++ m.adds id⟩
  published := v.published ++ m.announces

theorem collections_next_of_adds_eq_nil (v : View) {m : Moment σ} {id : ContextId}
    (h : m.adds id = []) : (v.next m).collections id = v.collections id := by
  simp only [next, h, List.append_nil]
  exact Option.map_id' ..

def after (v : View) (moments : List (Moment σ)) : View :=
  moments.foldl next v

theorem after_append (v : View) (a b : List (Moment σ)) :
    v.after (a ++ b) = (v.after a).after b :=
  List.foldl_append

/-- Whether each moment comes in a world that looks as the moments before it left it. -/
def Leads (v : View) : List (Moment σ) → Prop
  | [] => True
  | m :: rest => m.world.view = v ∧ (v.next m).Leads rest

theorem leads_append {v : View} {a b : List (Moment σ)} :
    v.Leads (a ++ b) ↔ v.Leads a ∧ (v.after a).Leads b := by
  induction a generalizing v with
  | nil => exact (and_iff_right trivial).symm
  | cons m a ih =>
    rw [List.cons_append, Leads, ih, Leads, and_assoc]
    rfl

theorem Leads.world_view {v : View} {before after : List (Moment σ)} {m : Moment σ}
    (h : v.Leads (before ++ m :: after)) : m.world.view = v.after before :=
  (leads_append.mp h).2.1

theorem collections_after (v : View) (moments : List (Moment σ)) (id : ContextId) :
    (v.after moments).collections id = (v.collections id).map fun held =>
      ⟨held.registrations ++ Moment.joined id moments⟩ := by
  induction moments generalizing v with
  | nil => simp [after, Moment.joined]
  | cons m moments ih =>
    rw [after, List.foldl_cons, ← after, ih, next, Option.map_map]
    congr 1
    funext held
    simp [Moment.joined]

theorem published_after (v : View) (moments : List (Moment σ)) :
    (v.after moments).published = v.published ++ moments.flatMap Moment.announces := by
  induction moments generalizing v with
  | nil => exact (List.append_nil _).symm
  | cons m moments ih =>
    rw [after, List.foldl_cons, ← after, ih, next, List.flatMap_cons, List.append_assoc]

end View

namespace World

theorem view_note (w : World σ) {entry : Entry} (h : entry.isPublication = false) :
    (w.note entry).view = w.view := by
  ext1
  · rfl
  · simp [view, h]

theorem multicasterOf_modifyContext (w : World σ) (id : ContextId) {f : Context → Context}
    (hf : ∀ c, (f c).multicaster = c.multicaster) :
    (w.modifyContext id f).multicasterOf = w.multicasterOf := by
  funext other
  rw [multicasterOf, multicasterOf, context?_modifyContext]
  split
  · rw [Option.map_map]
    exact congrArg (fun g => (w.context? other).map g) (funext hf)
  · rfl

theorem view_setState (w : World σ) (id : ContextId) (state : ContextState) :
    (w.setState id state).view = w.view := by
  ext1
  · exact multicasterOf_modifyContext w id fun _ => rfl
  · rfl

theorem view_eq_of_writes {w w' : World σ} (hGrown : w.journal <+: w'.journal)
    (hPlain : ∀ entry ∈ w'.since w, entry.isBroadcast = false)
    (hSame : ∀ id, w'.multicasterOf id = w.multicasterOf id) : w'.view = w.view := by
  have hNone : (w'.since w).filter Entry.isPublication = [] := by
    apply List.filter_eq_nil_iff.mpr
    intro entry hEntry
    simp [Entry.isPublication_of_not_isBroadcast (hPlain entry hEntry)]
  ext1
  · exact funext hSame
  · rw [view, view, journal_eq_append_since hGrown, List.filter_append, hNone, List.append_nil]

end World

/-- Whether the moments of an act are those that matter: they come as they were led to, and if the
act comes back, the world looks as they left it. -/
structure Act.Shows (act : Act σ α) (moments : World σ → List (Moment σ)) : Prop where
  leads : ∀ w : World σ, w.view.Leads (moments w)
  ends : ∀ ⦃w a w'⦄, act w = some (a, w') → w'.view = w.view.after (moments w)

namespace Act

/-- Moments, and behind them those of what follows an act. -/
def followed (act : Act σ α) (moments : World σ → List (Moment σ))
    (following : α → World σ → List (Moment σ)) (w : World σ) : List (Moment σ) :=
  moments w ++ match act w with
    | some (a, w') => following a w'
    | none => []

theorem shows_nothing {act : Act σ α}
    (h : ∀ w a w', act w = some (a, w') → w'.view = w.view) : act.Shows fun _ => [] :=
  ⟨fun _ => trivial, h⟩

theorem shows_pure (a : α) : (pure a : Act σ α).Shows fun _ => [] := by
  apply shows_nothing
  intro w b w' h
  obtain ⟨-, rfl⟩ := pure_inv h
  rfl

theorem Shows.bind {act : Act σ α} {f : α → Act σ β} {moments : World σ → List (Moment σ)}
    {following : α → World σ → List (Moment σ)} (hAct : act.Shows moments)
    (hRest : ∀ a, (f a).Shows (following a)) :
    (act >>= f).Shows (act.followed moments following) where
  leads w := by
    refine View.leads_append.mpr ⟨hAct.leads w, ?_⟩
    cases h : act w with
    | none => exact trivial
    | some result =>
      rw [← hAct.ends h]
      exact (hRest result.1).leads result.2
  ends := by
    intro w b w' h
    obtain ⟨a, v, hFirst, hLast⟩ := bind_inv h
    rw [followed, hFirst, View.after_append, ← hAct.ends hFirst]
    exact (hRest a).ends hLast

/-- An entry that tells of no publication is seen as nothing. -/
theorem Shows.note {act : Act σ α} {moments : World σ → List (Moment σ)} (h : act.Shows moments)
    {entry : Entry} (hPlain : entry.isPublication = false) :
    (write entry >>= fun _ => act).Shows fun w => moments (w.note entry) where
  leads w := by
    rw [← World.view_note w hPlain]
    exact h.leads _
  ends := by
    intro w a w' hAct
    obtain ⟨_, v, hWrite, hRest⟩ := bind_inv hAct
    cases write_inv hWrite
    rw [← World.view_note w hPlain]
    exact h.ends hRest

end Act

/-- A host together with what is seen of the programs that it runs. -/
structure Observer (σ : Type) where
  host : Host σ
  during : {α : Type} → Program σ α → World σ → List (Moment σ)

namespace Observer

variable (o : Observer σ)

/-- The moments of a delivery, one turn after the other up to the first that fails. -/
def turns (origin : Origin) (event : Event) : List Registration → World σ → List (Moment σ)
  | [], _ => []
  | r :: rest, w =>
    (o.host.perform ((o.host.listener r.listener).onEvent event)).followed
      (o.during ((o.host.listener r.listener).onEvent event))
      (fun answer v =>
        match answer with
        | .ok _ => turns origin event rest v
        | .error _ => [])
      (w.note (.invoking origin r.listener r.name event.kind))

def publish (id : ContextId) (event : Event) (w : World σ) : List (Moment σ) :=
  .publishes id event w ::
    match w.context? id with
    | some context =>
      if context.isActive then
        o.turns (.context id) event (context.multicaster.matching event.kind)
          (w.note (id.opening context event))
      else []
    | none => []

def subscribe (id : ContextId) (listener : ListenerId) (w : World σ) : List (Moment σ) :=
  match o.host.enlist listener w with
  | some (r, _) => [.joins id r w]
  | none => []

def refresh (id : ContextId) (w : World σ) : List (Moment σ) :=
  match w.context? id with
  | some context =>
    if context.state = .created then
      o.publish id (ContextId.refreshedEvent context) (w.setState id .active)
    else []
  | none => []

def close (id : ContextId) (w : World σ) : List (Moment σ) :=
  match w.context? id with
  | some context =>
    if context.state = .active then o.publish id (ContextId.closedEvent context) w else []
  | none => []

def answering : Request σ → World σ → List (Moment σ)
  | .publish (.managed id) event => o.publish id event
  | .publish (.foreign id) event => o.during ((o.host.directory.foreign id).publish event)
  | .subscribe (.managed id) listener => o.subscribe id listener
  | .subscribe (.foreign id) listener => o.during ((o.host.directory.foreign id).subscribe listener)
  | .refresh id => o.refresh id
  | .close id => o.close id
  | .broadcast multicaster event => fun w =>
    o.turns .other event (multicaster.matching event.kind)
      (w.note (.broadcasting .other event.kind (multicaster.matching event.kind).length))
  | _ => fun _ => []

def interpreting : Program σ α → World σ → List (Moment σ)
  | .done _ => fun _ => []
  | .ask q next => (o.host.answer q).followed (o.answering q) fun reply => interpreting (next reply)

/-- What is seen of programs that may nest calls to a depth. -/
def ofDepth (directory : Directory σ) : Nat → Observer σ
  | 0 => ⟨Host.ofDepth directory 0, fun _ _ => []⟩
  | depth + 1 => ⟨Host.ofDepth directory (depth + 1), (ofDepth directory depth).interpreting⟩

@[simp] theorem host_ofDepth (directory : Directory σ) (depth : Nat) :
    (ofDepth directory depth).host = Host.ofDepth directory depth := by
  cases depth <;> rfl

end Observer

end Startup
