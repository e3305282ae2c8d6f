import Startup.Effect.World

/-!
# Acts taken apart

An act that comes back is made of acts that came back: a sequence is inverted step by step, and
every primitive act has its one result. What an act does to the world is a relation between the
world before and the world after.
-/

namespace Startup

namespace World

variable {σ : Type}

def note (w : World σ) (entry : Entry) : World σ :=
  { w with journal := w.journal ++ [entry] }

def modifyContext (w : World σ) (id : ContextId) (f : Context → Context) : World σ :=
  { w with contexts := w.contexts.modify id.index f }

def setState (w : World σ) (id : ContextId) (state : ContextState) : World σ :=
  w.modifyContext id fun context => { context with state := state }

def context? (w : World σ) (id : ContextId) : Option Context :=
  w.contexts[id.index]?

def stateOf (w : World σ) (id : ContextId) : Option ContextState :=
  (w.context? id).map Context.state

/-- The context that is created next. -/
def next (w : World σ) : ContextId :=
  ⟨w.contexts.length⟩

def adding (w : World σ) (context : Context) : World σ :=
  { w with contexts := w.contexts ++ [context] }

/-- What the journal got since an earlier world. -/
def since (w earlier : World σ) : List Entry :=
  w.journal.drop earlier.journal.length

@[simp] theorem journal_note (w : World σ) (entry : Entry) :
    (w.note entry).journal = w.journal ++ [entry] := rfl

@[simp] theorem context?_note (w : World σ) (entry : Entry) (id : ContextId) :
    (w.note entry).context? id = w.context? id := rfl

@[simp] theorem stateOf_note (w : World σ) (entry : Entry) (id : ContextId) :
    (w.note entry).stateOf id = w.stateOf id := rfl

theorem context?_modifyContext (w : World σ) (id other : ContextId) (f : Context → Context) :
    (w.modifyContext id f).context? other =
      if other = id then (w.context? other).map f else w.context? other := by
  obtain ⟨i⟩ := id
  obtain ⟨j⟩ := other
  by_cases h : i = j
  · subst h
    simp [context?, modifyContext]
  · simp [context?, modifyContext, h, Ne.symm h]

theorem context?_adding (w : World σ) (context : Context) :
    (w.adding context).context? ⟨w.contexts.length⟩ = some context :=
  List.getElem?_concat_length

theorem length_adding (w : World σ) (context : Context) :
    (w.adding context).contexts.length = w.contexts.length + 1 :=
  List.length_append

theorem adding_modifyContext (w : World σ) (context : Context) (f : Context → Context) :
    (w.adding context).modifyContext ⟨w.contexts.length⟩ f = w.adding (f context) := by
  have hModify : (w.contexts ++ [context]).modify w.contexts.length f =
      w.contexts ++ [f context] :=
    List.modifyTailIdx_add (List.modifyHead f) 0 w.contexts [context]
  rw [modifyContext, adding, hModify]
  rfl

theorem stateOf_setState (w : World σ) (id other : ContextId) (state : ContextState) :
    (w.setState id state).stateOf other =
      if other = id then (w.stateOf other).map fun _ => state else w.stateOf other := by
  rw [stateOf, setState, context?_modifyContext]
  split <;> simp [stateOf, Function.comp_def]

theorem since_eq {w earlier : World σ} {entries : List Entry}
    (h : w.journal = earlier.journal ++ entries) : w.since earlier = entries := by
  rw [since, h, List.drop_left]

@[simp] theorem since_self (w : World σ) : w.since w = [] :=
  since_eq (List.append_nil _).symm

theorem journal_eq_append_since {w earlier : World σ} (h : earlier.journal <+: w.journal) :
    w.journal = earlier.journal ++ w.since earlier :=
  List.prefix_iff_eq_append.mp h |>.symm

theorem since_append {a b c : World σ} {entries : List Entry} (hab : a.journal <+: b.journal)
    (hbc : c.journal = b.journal ++ entries) : c.since a = b.since a ++ entries := by
  apply since_eq
  rw [hbc, journal_eq_append_since hab, List.append_assoc]

theorem since_trans {a b c : World σ} (hab : a.journal <+: b.journal)
    (hbc : b.journal <+: c.journal) : c.since a = b.since a ++ c.since b :=
  since_append hab (journal_eq_append_since hbc)

theorem mem_since_of_grows {a b c d : World σ} (hab : a.journal <+: b.journal)
    (hbc : b.journal <+: c.journal) (hcd : c.journal <+: d.journal) {entry : Entry}
    (h : entry ∈ c.since b) : entry ∈ d.since a := by
  rw [since_trans (hab.trans hbc) hcd, since_trans hab hbc]
  exact List.mem_append_left _ (List.mem_append_right _ h)

theorem mem_since_note (w : World σ) (entry : Entry) : entry ∈ (w.note entry).since w := by
  rw [since_eq (journal_note w entry)]
  exact List.mem_singleton_self entry

end World

namespace Act

variable {σ α β : Type} {w : World σ}

theorem bind_inv {act : Act σ α} {f : α → Act σ β} {r : β × World σ}
    (h : (act >>= f) w = some r) : ∃ a w₁, act w = some (a, w₁) ∧ f a w₁ = some r := by
  obtain ⟨⟨a, w₁⟩, hAct, hRest⟩ := Option.bind_eq_some_iff.mp h
  exact ⟨a, w₁, hAct, hRest⟩

theorem bind_apply {act : Act σ α} {f : α → Act σ β} {a : α} {w₁ : World σ}
    (h : act w = some (a, w₁)) : (act >>= f) w = f a w₁ := by
  change (act w).bind _ = _
  rw [h]
  rfl

theorem bind_eq_none {act : Act σ α} {f : α → Act σ β} (h : act w = none) :
    (act >>= f) w = none := by
  change (act w).bind _ = _
  rw [h]
  rfl

theorem pure_inv {a b : α} {w' : World σ} (h : (pure a : Act σ α) w = some (b, w')) :
    a = b ∧ w = w' := by
  cases h
  exact ⟨rfl, rfl⟩

@[simp] theorem modifyContext_apply (id : ContextId) (f : Context → Context) :
    modifyContext id f w = some ((), w.modifyContext id f) := rfl

theorem write_inv {entry : Entry} {u : Unit} {w' : World σ}
    (h : write entry w = some (u, w')) : w' = w.note entry := by
  cases h
  rfl

theorem context_eq (id : ContextId) :
    Act.context id w = (w.context? id).map fun context => (context, w) := by
  simp only [Act.context, bind, StateT.bind, get, getThe, MonadStateOf.get, StateT.get, pure,
    Option.bind_some, World.context?]
  cases w.contexts[id.index]? <;> rfl

theorem properties_eq (id : StoreId) :
    Act.properties id w = w.stores[id.index]?.map fun properties => (properties, w) := by
  simp only [Act.properties, bind, StateT.bind, get, getThe, MonadStateOf.get, StateT.get, pure,
    Option.bind_some]
  cases w.stores[id.index]? <;> rfl

theorem context_apply {id : ContextId} {context : Context} (h : w.context? id = some context) :
    Act.context id w = some (context, w) := by
  rw [context_eq, h, Option.map_some]

theorem context_inv {id : ContextId} {context : Context} {w' : World σ}
    (h : Act.context id w = some (context, w')) : w.context? id = some context ∧ w = w' := by
  rw [context_eq] at h
  obtain ⟨found, hFound, hEq⟩ := Option.map_eq_some_iff.mp h
  cases hEq
  exact ⟨hFound, rfl⟩

theorem properties_inv {id : StoreId} {properties : Properties} {w' : World σ}
    (h : Act.properties id w = some (properties, w')) :
    w.stores[id.index]? = some properties ∧ w = w' := by
  rw [properties_eq] at h
  obtain ⟨found, hFound, hEq⟩ := Option.map_eq_some_iff.mp h
  cases hEq
  exact ⟨hFound, rfl⟩

end Act

end Startup
