import Startup.Proofs.Effect.Act
import Startup.Proofs.Multicaster.Without

/-!
# Worlds that are alike

Two worlds are alike if one listener makes all the difference between them: the contexts differ in
its registrations only, and the journals in the entries about it and in counts. An act mirrors
another if it comes back wherever that one does, from worlds that are alike to worlds that are.
-/

namespace Startup

variable {σ α β γ δ : Type} {o : ListenerId}

def Context.without (context : Context) (o : ListenerId) : Context :=
  { context with multicaster := context.multicaster.without o }

theorem Context.eq_of_without {c d : Context} (h : c.without o = d.without o) :
    ∃ m, d = { c with multicaster := m } ∧ c.multicaster.without o = m.without o := by
  cases c
  cases d
  cases Context.mk.inj h with
  | intro hIdentity hRest =>
    obtain ⟨rfl, rfl, rfl, hMulticaster, rfl⟩ := hRest
    obtain rfl := hIdentity
    exact ⟨_, rfl, hMulticaster⟩

/-- What an entry tells apart from a listener: nothing if it is about that one, and no counts. -/
def Entry.without? (o : ListenerId) : Entry → Option Entry
  | registered r => if r.listener = o then none else some (registered r)
  | broadcasting origin kind _ => some (broadcasting origin kind 0)
  | invoking origin listener name kind =>
    if listener = o then none else some (invoking origin listener name kind)
  | handedOver _ identity => some (handedOver 0 identity)
  | cannotEnumerate identity _ => some (cannotEnumerate identity 0)
  | copiedListeners _ identity => some (copiedListeners 0 identity)
  | entry => some entry

theorem Entry.without?_registered {r : Registration} (h : r.listener = o) :
    (registered r).without? o = none :=
  if_pos h

theorem Entry.without?_invoking {listener : ListenerId} (h : listener = o) (origin : Origin)
    (name : String) (kind : EventKind) : (invoking origin listener name kind).without? o = none :=
  if_pos h

namespace World

structure Alike (o : ListenerId) (w v : World σ) : Prop where
  contexts : w.contexts.map (fun context => context.without o) =
    v.contexts.map fun context => context.without o
  stores : w.stores = v.stores
  identities : w.identities = v.identities
  journal : w.journal.filterMap (Entry.without? o) = v.journal.filterMap (Entry.without? o)
  memory : w.memory = v.memory

namespace Alike

variable {w v u : World σ}

theorem refl (w : World σ) : w.Alike o w :=
  ⟨rfl, rfl, rfl, rfl, rfl⟩

theorem symm (h : w.Alike o v) : v.Alike o w :=
  ⟨h.contexts.symm, h.stores.symm, h.identities.symm, h.journal.symm, h.memory.symm⟩

theorem trans (h : w.Alike o v) (hNext : v.Alike o u) : w.Alike o u where
  contexts := h.contexts.trans hNext.contexts
  stores := h.stores.trans hNext.stores
  identities := h.identities.trans hNext.identities
  journal := h.journal.trans hNext.journal
  memory := h.memory.trans hNext.memory

theorem length_contexts (h : w.Alike o v) : w.contexts.length = v.contexts.length := by
  have hLength := congrArg List.length h.contexts
  rwa [List.length_map, List.length_map] at hLength

theorem context? (h : w.Alike o v) (id : ContextId) :
    (w.context? id).map (fun context => context.without o) =
      (v.context? id).map fun context => context.without o := by
  have hContext := congrArg (fun contexts => contexts[id.index]?) h.contexts
  simpa only [List.getElem?_map, World.context?] using hContext

theorem note (h : w.Alike o v) {entry entry' : Entry}
    (hEntry : entry.without? o = entry'.without? o) :
    (w.note entry).Alike o (v.note entry') where
  contexts := h.contexts
  stores := h.stores
  identities := h.identities
  journal := by
    simp only [journal_note, List.filterMap_append, h.journal, List.filterMap_cons, hEntry]
  memory := h.memory

theorem note_self (w : World σ) {entry : Entry} (hEntry : entry.without? o = none) :
    w.Alike o (w.note entry) where
  contexts := rfl
  stores := rfl
  identities := rfl
  journal := by
    rw [journal_note, List.filterMap_append, List.filterMap_cons_none hEntry, List.filterMap_nil,
      List.append_nil]
  memory := rfl

theorem modifyContext (h : w.Alike o v) (id : ContextId) {f g : Context → Context}
    (hMakes : ∀ c d : Context, c.without o = d.without o → (f c).without o = (g d).without o) :
    (w.modifyContext id f).Alike o (v.modifyContext id g) where
  contexts := by
    apply List.ext_getElem?
    intro i
    have hContext := h.context? ⟨i⟩
    simp only [World.context?] at hContext
    simp only [World.modifyContext, List.getElem?_map, List.getElem?_modify]
    cases hLeft : w.contexts[i]? with
    | none =>
      rw [hLeft] at hContext
      rw [Option.map_eq_none_iff.mp hContext.symm]
      rfl
    | some c =>
      rw [hLeft] at hContext
      obtain ⟨d, hRight, hSame⟩ := Option.map_eq_some_iff.mp hContext.symm
      rw [hRight]
      simp only [Option.map_eq_map, Option.map_some]
      split
      · rw [hMakes c d hSame.symm]
      · rw [hSame]
  stores := h.stores
  identities := h.identities
  journal := h.journal
  memory := h.memory

theorem modifyContext_self (w : World σ) (id : ContextId) {f : Context → Context}
    (hKeeps : ∀ c : Context, (f c).without o = c.without o) :
    w.Alike o (w.modifyContext id f) := by
  have hContexts : w.contexts.modify id.index (fun context => context) = w.contexts :=
    List.modify_id id.index w.contexts
  have hSame : w.modifyContext id (fun context => context) = w := by
    rw [World.modifyContext, hContexts]
  have hModified := (refl w).modifyContext id (o := o) (f := fun context => context) (g := f)
    fun c d h => h.trans (hKeeps d).symm
  rwa [hSame] at hModified

theorem adding (h : w.Alike o v) {c d : Context} (hSame : c.without o = d.without o) :
    (w.adding c).Alike o (v.adding d) where
  contexts := by
    simp only [World.adding, List.map_append, h.contexts, List.map_cons, hSame, List.map_nil]
  stores := h.stores
  identities := h.identities
  journal := h.journal
  memory := h.memory

end Alike

end World

namespace Act

/-- Wherever an act comes back, another one comes back from what is alike, and the same is seen in
the answers of both. -/
def Mirrors (o : ListenerId) (see : α → γ) (act act' : Act σ α) : Prop :=
  ∀ ⦃w v a w'⦄, World.Alike o w v → act w = some (a, w') →
    ∃ b v', act' v = some (b, v') ∧ see a = see b ∧ World.Alike o w' v'

/-- The same is answered on both sides. -/
abbrev Repeats (o : ListenerId) (act act' : Act σ α) : Prop :=
  act.Mirrors o (fun a => a) act'

/-- An act that leaves the world as it is, but for a listener. -/
def Bypasses (o : ListenerId) (holds : α → Prop) (act : Act σ α) : Prop :=
  ∀ w, ∃ a w', act w = some (a, w') ∧ holds a ∧ World.Alike o w w'

variable {see : α → γ} {saw : β → δ} {holds : α → Prop}

theorem mirrors_pure {a b : α} (h : see a = see b) :
    (pure a : Act σ α).Mirrors o see (pure b) := by
  intro w v c w' hAlike hPure
  obtain ⟨rfl, rfl⟩ := pure_inv hPure
  exact ⟨b, v, rfl, h, hAlike⟩

theorem Mirrors.bind {act act' : Act σ α} {f g : α → Act σ β} (hAct : act.Mirrors o see act')
    (hRest : ∀ a b, see a = see b → (f a).Mirrors o saw (g b)) :
    (act >>= f).Mirrors o saw (act' >>= g) := by
  intro w v c w' hAlike h
  obtain ⟨a, w₁, hFirst, hLast⟩ := bind_inv h
  obtain ⟨b, v₁, hFirst', hSee, hBetween⟩ := hAct hAlike hFirst
  obtain ⟨d, v', hLast', hEnd⟩ := hRest a b hSee hBetween hLast
  refine ⟨d, v', ?_, hEnd⟩
  rw [bind_apply hFirst', hLast']

theorem Mirrors.andThen {act act' : Act σ α} {f g : α → Act σ β} (hAct : act.Repeats o act')
    (hRest : ∀ a, (f a).Mirrors o saw (g a)) : (act >>= f).Mirrors o saw (act' >>= g) := by
  refine hAct.bind fun a b hSame => ?_
  obtain rfl : a = b := hSame
  exact hRest a

theorem Mirrors.ite {p : Prop} [Decidable p] {act act' other other' : Act σ α}
    (hTrue : act.Mirrors o see act') (hFalse : other.Mirrors o see other') :
    (if p then act else other).Mirrors o see (if p then act' else other') := by
  by_cases h : p
  · rwa [if_pos h, if_pos h]
  · rwa [if_neg h, if_neg h]

theorem Bypasses.left {act : Act σ α} {f : α → Act σ β} {act' : Act σ β}
    (hAct : act.Bypasses o holds) (hRest : ∀ a, holds a → (f a).Mirrors o saw act') :
    (act >>= f).Mirrors o saw act' := by
  intro w v c w' hAlike h
  obtain ⟨a, w₁, hFirst, hHolds, hSelf⟩ := hAct w
  rw [bind_apply hFirst] at h
  exact hRest a hHolds (hSelf.symm.trans hAlike) h

theorem Bypasses.right {act : Act σ β} {act' : Act σ α} {g : α → Act σ β}
    (hAct : act'.Bypasses o holds) (hRest : ∀ b, holds b → act.Mirrors o saw (g b)) :
    act.Mirrors o saw (act' >>= g) := by
  intro w v c w' hAlike h
  obtain ⟨b, v₁, hFirst, hHolds, hSelf⟩ := hAct v
  obtain ⟨d, v', hLast, hEnd⟩ := hRest b hHolds (hAlike.trans hSelf) h
  refine ⟨d, v', ?_, hEnd⟩
  rw [bind_apply hFirst, hLast]

theorem mirrors_write {entry entry' : Entry} (h : entry.without? o = entry'.without? o) :
    (write entry : Act σ Unit).Repeats o (write entry') := by
  intro w v a w' hAlike hWrite
  rw [write_inv hWrite]
  exact ⟨(), _, rfl, rfl, hAlike.note h⟩

/-- What is done with a context that was read may depend on the listener's registrations only. -/
theorem mirrors_reading (id : ContextId) {f g : Context → Act σ β}
    (hRest : ∀ (c : Context) (m : Multicaster), c.multicaster.without o = m.without o →
      (f c).Mirrors o saw (g { c with multicaster := m })) :
    (Act.context id >>= f).Mirrors o saw (Act.context id >>= g) := by
  intro w v b w' hAlike h
  obtain ⟨c, w₁, hRead, hLast⟩ := bind_inv h
  obtain ⟨hContext, rfl⟩ := context_inv hRead
  have hBoth := hAlike.context? id
  rw [hContext, Option.map_some] at hBoth
  obtain ⟨d, hOther, hSame⟩ := Option.map_eq_some_iff.mp hBoth.symm
  obtain ⟨m, rfl, hMulticaster⟩ := Context.eq_of_without hSame.symm
  rw [bind_apply (context_apply hOther)]
  exact hRest c m hMulticaster hAlike hLast

theorem mirrors_modifyContext (id : ContextId) {f : Context → Context}
    (h : ∀ (c : Context) (m : Multicaster), c.multicaster.without o = m.without o →
      (f c).without o = (f { c with multicaster := m }).without o) :
    (Act.modifyContext id f : Act σ Unit).Repeats o (Act.modifyContext id f) := by
  intro w v a w' hAlike hModify
  rw [modifyContext_apply] at hModify
  cases hModify
  refine ⟨(), _, rfl, rfl, hAlike.modifyContext id fun c d hSame => ?_⟩
  obtain ⟨m, rfl, hMulticaster⟩ := Context.eq_of_without hSame
  exact h c m hMulticaster

/-- A change that is made alike whatever the listeners are. -/
theorem mirrors_modifyContext_apart (id : ContextId) {f : Context → Context}
    (h : ∀ (c : Context) (m : Multicaster),
      f { c with multicaster := m } = { f c with multicaster := m }) :
    (Act.modifyContext id f : Act σ Unit).Repeats o (Act.modifyContext id f) := by
  refine mirrors_modifyContext id fun c m hMulticaster => ?_
  have hOwn : f c = { f c with multicaster := c.multicaster } := h c c.multicaster
  rw [h c m, hOwn, Context.without, Context.without, hMulticaster]

theorem mirrors_addContext (make : Identity → Context) :
    (addContext make : Act σ ContextId).Repeats o (addContext make) := by
  intro w v a w' hAlike h
  cases h
  refine ⟨_, _, rfl, ?_, hAlike.adding ?_⟩
  · rw [hAlike.length_contexts]
  · rw [hAlike.identities, hAlike.length_contexts]

theorem mirrors_memory : (memory : Act σ σ).Repeats o memory := by
  intro w v a w' hAlike h
  cases h
  exact ⟨v.memory, v, rfl, hAlike.memory, hAlike⟩

theorem mirrors_remember (value : σ) : (remember value).Repeats o (remember value) := by
  intro w v a w' hAlike h
  cases h
  exact ⟨(), _, rfl, rfl, hAlike.contexts, hAlike.stores, hAlike.identities, hAlike.journal, rfl⟩

theorem mirrors_properties (id : StoreId) :
    (Act.properties id : Act σ Properties).Repeats o (Act.properties id) := by
  intro w v properties w' hAlike h
  obtain ⟨hProperties, rfl⟩ := properties_inv h
  refine ⟨properties, v, ?_, rfl, hAlike⟩
  rw [properties_eq, ← hAlike.stores, hProperties, Option.map_some]

theorem mirrors_assign (id : StoreId) (pairs : List (String × String)) :
    (Act.assign id pairs : Act σ Unit).Repeats o (Act.assign id pairs) := by
  intro w v a w' hAlike h
  cases h
  have hStores := congrArg (fun stores => stores.modify id.index fun p => p.setAll pairs)
    hAlike.stores
  exact ⟨(), _, rfl, rfl, hAlike.contexts, hStores, hAlike.identities, hAlike.journal,
    hAlike.memory⟩

theorem mirrors_addStore (properties : Properties) :
    (Act.addStore properties : Act σ StoreId).Repeats o (Act.addStore properties) := by
  intro w v a w' hAlike h
  cases h
  have hStores := congrArg (fun stores => stores ++ [properties]) hAlike.stores
  refine ⟨_, _, rfl, ?_, hAlike.contexts, hStores, hAlike.identities, hAlike.journal,
    hAlike.memory⟩
  rw [hAlike.stores]

end Act

end Startup
