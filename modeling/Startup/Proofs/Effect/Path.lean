import Mathlib.Logic.Relation
import Startup.Proofs.Effect.Entries

/-!
# Paths of the world

Programs change the world in a few ways only. Each of them is a move, and what a run does to the
world is a path of moves. The journal only grows along a path, contexts keep what they hold, and
the journal tells every change of a context's state: its entries give back the state at any
moment.
-/

namespace Startup

variable {σ : Type}

namespace World

/-- One change of the world. A context gets another state only where that is left to do, it gets
active only after it was created, and the journal tells it. -/
inductive Move (scope : Scope) : World σ → World σ → Prop
  | remember (w : World σ) (memory : σ) : Move scope w { w with memory := memory }
  | store (w : World σ) (stores : List Properties) (h : w.stores.length ≤ stores.length) :
      Move scope w { w with stores := stores }
  | bean (w : World σ) (id : ContextId) (beans : Beans) :
      Move scope w (w.modifyContext id fun context => { context with beans := beans })
  | subscribe (w : World σ) (id : ContextId) (r : Registration) :
      Move scope w ((w.note (.registered r)).modifyContext id fun context =>
        { context with multicaster := context.multicaster.register r })
  | note (w : World σ) {entry : Entry} (notes : scope.notes entry) (plain : entry.sign = none) :
      Move scope w (w.note entry)
  | mark (w : World σ) {entry : Entry} {id : ContextId} {before after : ContextState}
      (notes : scope.notes entry) (sign : entry.sign = some (id, after))
      (state : w.stateOf id = some before)
      (step : before = after ∨ scope.governs id ∧ (after = .active → before = .created)) :
      Move scope w ((w.setState id after).note entry)

abbrev Path (scope : Scope) : World σ → World σ → Prop :=
  Relation.ReflTransGen (Move scope)

end World

namespace Context

structure Keeps (before after : Context) : Prop where
  identity : after.identity = before.identity
  displayName : after.displayName = before.displayName
  kind : after.kind = before.kind
  registrations : before.multicaster.registrations <+: after.multicaster.registrations

theorem Keeps.refl (context : Context) : context.Keeps context :=
  ⟨rfl, rfl, rfl, List.prefix_rfl⟩

theorem Keeps.trans {a b c : Context} (hab : a.Keeps b) (hbc : b.Keeps c) : a.Keeps c :=
  ⟨hbc.identity.trans hab.identity, hbc.displayName.trans hab.displayName,
    hbc.kind.trans hab.kind, hab.registrations.trans hbc.registrations⟩

end Context

namespace World

variable {scope : Scope} {w w' : World σ}

theorem setState_eq_self {id : ContextId} {state : ContextState} (h : w.stateOf id = some state) :
    w.setState id state = w := by
  obtain ⟨context, hContext, rfl⟩ := Option.map_eq_some_iff.mp h
  have hSame : w.contexts.modify id.index (fun c => { c with state := context.state }) =
      w.contexts := by
    apply List.ext_getElem?
    intro i
    rw [List.getElem?_modify]
    split
    · rename_i hi
      subst hi
      rw [show w.contexts[id.index]? = some context from hContext]
      rfl
    · exact id_map _
  rw [setState, modifyContext, hSame]

theorem keeps_modifyContext {id other : ContextId} {f : Context → Context} {context : Context}
    (hf : ∀ c, Context.Keeps c (f c)) (h : w.context? other = some context) :
    ∃ after, (w.modifyContext id f).context? other = some after ∧ context.Keeps after := by
  rw [context?_modifyContext, h]
  split
  · exact ⟨f context, rfl, hf context⟩
  · exact ⟨context, rfl, Context.Keeps.refl context⟩

theorem keeps_setState (state : ContextState) (c : Context) :
    c.Keeps { c with state := state } :=
  ⟨rfl, rfl, rfl, List.prefix_rfl⟩

theorem stateOf_modifyContext {id other : ContextId} {f : Context → Context}
    (hf : ∀ c, (f c).state = c.state) : (w.modifyContext id f).stateOf other = w.stateOf other := by
  rw [stateOf, stateOf, context?_modifyContext]
  split
  · rw [Option.map_map]
    exact congrArg (fun g => (w.context? other).map g) (funext hf)
  · rfl

/-- A move adds at most one entry, and its sign shows the state that the move leads to. -/
theorem Move.journal (h : Move scope w w') :
    w'.journal = w.journal ∧ (∀ id, w'.stateOf id = w.stateOf id) ∨
      ∃ entry, w'.journal = w.journal ++ [entry] ∧ scope.notes entry ∧
        (∀ id before, w.stateOf id = some before →
          w'.stateOf id = some (Entry.told id before [entry])) ∧
        ∀ id after, entry.sign = some (id, after) → ∃ before, w.stateOf id = some before ∧
          (before = after ∨ scope.governs id ∧ (after = .active → before = .created)) := by
  cases h with
  | remember memory => exact .inl ⟨rfl, fun _ => rfl⟩
  | store stores h => exact .inl ⟨rfl, fun _ => rfl⟩
  | bean id beans => exact .inl ⟨rfl, fun _ => stateOf_modifyContext fun _ => rfl⟩
  | subscribe id r =>
    refine .inr ⟨.registered r, rfl, scope.routine _ rfl, ?_, nofun⟩
    intro other before hBefore
    apply Eq.trans _ hBefore
    exact stateOf_modifyContext fun _ => rfl
  | note notes plain =>
    refine .inr ⟨_, rfl, notes, ?_, ?_⟩
    · intro id before hBefore
      rw [stateOf_note, hBefore, Entry.told_singleton, plain]
    · intro id after hSign
      rw [plain] at hSign
      cases hSign
  | @mark entry id before after notes sign state step =>
    refine .inr ⟨_, rfl, notes, ?_, ?_⟩
    · intro other s hOther
      rw [stateOf_note, stateOf_setState, Entry.told_singleton, sign, hOther]
      by_cases h : other = id
      · simp [h]
      · simp [h, Ne.symm h]
    · intro other next hSign
      rw [sign] at hSign
      cases hSign
      exact ⟨before, state, step⟩

theorem Move.widen {wide : Scope} (h : Move scope w w')
    (hGoverns : ∀ id, scope.governs id → wide.governs id)
    (hNotes : ∀ entry, scope.notes entry → wide.notes entry) : Move wide w w' := by
  cases h with
  | remember memory => exact .remember w memory
  | store stores h => exact .store w stores h
  | bean id beans => exact .bean w id beans
  | subscribe id r => exact .subscribe w id r
  | note notes plain => exact .note w (hNotes _ notes) plain
  | mark notes sign state step =>
    exact .mark w (hNotes _ notes) sign state (step.imp_right fun h => ⟨hGoverns _ h.1, h.2⟩)

theorem Move.contexts (h : Move scope w w') :
    w'.contexts.length = w.contexts.length ∧ w.stores.length ≤ w'.stores.length ∧
      ∀ id context, w.context? id = some context →
        ∃ after, w'.context? id = some after ∧ context.Keeps after := by
  cases h with
  | remember memory => exact ⟨rfl, Nat.le_refl _, fun _ c hc => ⟨c, hc, Context.Keeps.refl c⟩⟩
  | store stores h => exact ⟨rfl, h, fun _ c hc => ⟨c, hc, Context.Keeps.refl c⟩⟩
  | bean id beans =>
    exact ⟨List.length_modify .., Nat.le_refl _, fun _ _ hc =>
      keeps_modifyContext (fun _ => ⟨rfl, rfl, rfl, List.prefix_rfl⟩) hc⟩
  | subscribe id r =>
    exact ⟨List.length_modify .., Nat.le_refl _, fun _ _ hc =>
      keeps_modifyContext (fun _ => ⟨rfl, rfl, rfl, List.prefix_append _ _⟩) hc⟩
  | note notes plain => exact ⟨rfl, Nat.le_refl _, fun _ c hc => ⟨c, hc, Context.Keeps.refl c⟩⟩
  | mark notes sign state step =>
    exact ⟨List.length_modify .., Nat.le_refl _, fun _ _ hc =>
      keeps_modifyContext (keeps_setState _) hc⟩

theorem Move.registered (h : Move scope w w') {id : ContextId} {context after : Context}
    (hContext : w.context? id = some context) (hAfter : w'.context? id = some after) :
    after.multicaster = context.multicaster ∨ ∃ r, after.multicaster =
      context.multicaster.register r ∧ w'.journal = w.journal ++ [.registered r] := by
  -- either the move is about this context, or it leaves it as it is
  have hModify {v : World σ} {other : ContextId} {f : Context → Context}
      (hv : v.context? id = some context) (h : (v.modifyContext other f).context? id = some after) :
      after = f context ∨ after = context := by
    rw [context?_modifyContext, hv] at h
    split at h <;> cases h
    · exact .inl rfl
    · exact .inr rfl
  cases h with
  | remember memory => exact .inl (by cases hContext.symm.trans hAfter; rfl)
  | store stores h => exact .inl (by cases hContext.symm.trans hAfter; rfl)
  | note notes plain => exact .inl (by cases hContext.symm.trans hAfter; rfl)
  | bean other beans => rcases hModify hContext hAfter with rfl | rfl <;> exact .inl rfl
  | mark notes sign state step => rcases hModify hContext hAfter with rfl | rfl <;> exact .inl rfl
  | subscribe other r =>
    rcases hModify (v := w.note (.registered r)) hContext hAfter with rfl | rfl
    · exact .inr ⟨r, rfl, rfl⟩
    · exact .inl rfl

namespace Path

theorem widen {wide : Scope} (h : Path scope w w')
    (hGoverns : ∀ id, scope.governs id → wide.governs id)
    (hNotes : ∀ entry, scope.notes entry → wide.notes entry) : Path wide w w' := by
  induction h with
  | refl => exact .refl
  | tail _ hMove ih => exact ih.tail (hMove.widen hGoverns hNotes)

protected theorem trans {v v' : World σ} (h : Path scope w v) (hNext : Path scope v v') :
    Path scope w v' :=
  Relation.ReflTransGen.trans h hNext

theorem journal (h : Path scope w w') :
    ∃ entries, w'.journal = w.journal ++ entries ∧ ∀ entry ∈ entries, scope.notes entry := by
  induction h with
  | refl => exact ⟨[], (List.append_nil _).symm, by simp⟩
  | tail _ hMove ih =>
    obtain ⟨entries, hJournal, hNotes⟩ := ih
    rcases hMove.journal with ⟨hSame, -⟩ | ⟨entry, hNext, hEntry, -⟩
    · exact ⟨entries, hSame.trans hJournal, hNotes⟩
    · refine ⟨entries ++ [entry], ?_, ?_⟩
      · rw [hNext, hJournal, List.append_assoc]
      · intro e he
        rcases List.mem_append.mp he with he | he
        · exact hNotes e he
        · exact List.mem_singleton.mp he ▸ hEntry

theorem journal_grows (h : Path scope w w') : w.journal <+: w'.journal := by
  obtain ⟨entries, hJournal, -⟩ := h.journal
  exact ⟨entries, hJournal.symm⟩

theorem since_trans {v v' : World σ} (h : Path scope w v) (hNext : Path scope v v') :
    v'.since w = v.since w ++ v'.since v :=
  World.since_trans h.journal_grows hNext.journal_grows

theorem mem_since_of_left {v v' : World σ} (h : Path scope w v) (hNext : Path scope v v')
    {entry : Entry} (hEntry : entry ∈ v.since w) : entry ∈ v'.since w := by
  rw [h.since_trans hNext]
  exact List.mem_append_left _ hEntry

theorem mem_since_of_right {v v' : World σ} (h : Path scope w v) (hNext : Path scope v v')
    {entry : Entry} (hEntry : entry ∈ v'.since v) : entry ∈ v'.since w := by
  rw [h.since_trans hNext]
  exact List.mem_append_right _ hEntry

theorem single_note (w : World σ) {entry : Entry} (hNotes : scope.notes entry)
    (hPlain : entry.sign = none) : Path scope w (w.note entry) :=
  .single (.note w hNotes hPlain)

theorem notes_of_mem_since (h : Path scope w w') {entry : Entry} (hEntry : entry ∈ w'.since w) :
    scope.notes entry := by
  obtain ⟨entries, hJournal, hNotes⟩ := h.journal
  rw [since_eq hJournal] at hEntry
  exact hNotes entry hEntry

theorem length_contexts (h : Path scope w w') : w'.contexts.length = w.contexts.length := by
  induction h with
  | refl => rfl
  | tail _ hMove ih => exact hMove.contexts.1.trans ih

theorem length_stores (h : Path scope w w') : w.stores.length ≤ w'.stores.length := by
  induction h with
  | refl => exact Nat.le_refl _
  | tail _ hMove ih => exact Nat.le_trans ih hMove.contexts.2.1

theorem keeps (h : Path scope w w') {id : ContextId} {context : Context}
    (hContext : w.context? id = some context) :
    ∃ after, w'.context? id = some after ∧ context.Keeps after := by
  induction h with
  | refl => exact ⟨context, hContext, Context.Keeps.refl context⟩
  | tail _ hMove ih =>
    obtain ⟨between, hBetween, hKeeps⟩ := ih
    obtain ⟨after, hAfter, hNext⟩ := hMove.contexts.2.2 id between hBetween
    exact ⟨after, hAfter, hKeeps.trans hNext⟩

/-- The entries of a path tell the state of every context at its end. -/
theorem stateOf (h : Path scope w w') {id : ContextId} {state : ContextState}
    (hState : w.stateOf id = some state) :
    w'.stateOf id = some (Entry.told id state (w'.since w)) := by
  induction h with
  | refl => rw [since_self, Entry.told_nil, hState]
  | @tail v v' hPath hMove ih =>
    rcases hMove.journal with ⟨hSame, hStates⟩ | ⟨entry, hNext, -, hTold, -⟩
    · rw [hStates, ih, since, since, hSame]
    · rw [hTold id _ ih, since_append (journal_grows hPath) hNext, Entry.told_append]

theorem registered (h : Path scope w w') {id : ContextId} {context after : Context}
    (hContext : w.context? id = some context) (hAfter : w'.context? id = some after) :
    ∀ r ∈ after.multicaster.registrations,
      r ∈ context.multicaster.registrations ∨ .registered r ∈ w'.since w := by
  induction h generalizing after with
  | refl =>
    rw [hContext] at hAfter
    cases hAfter
    exact fun r hr => .inl hr
  | @tail v v' hPath hMove ih =>
    obtain ⟨between, hBetween, -⟩ := keeps hPath hContext
    intro r hr
    have hKeep : ∀ r ∈ between.multicaster.registrations,
        r ∈ context.multicaster.registrations ∨ .registered r ∈ v'.since w := by
      intro r hr
      rcases ih hBetween r hr with hOld | hTold
      · exact .inl hOld
      · exact .inr (mem_since_of_left hPath (.single hMove) hTold)
    rcases hMove.registered hBetween hAfter with hSame | ⟨new, hNew, hNext⟩
    · exact hKeep r (hSame ▸ hr)
    · rw [hNew, Multicaster.register, List.mem_append, List.mem_singleton] at hr
      rcases hr with hr | rfl
      · exact hKeep r hr
      · rw [since_append (journal_grows hPath) hNext]
        exact .inr (List.mem_append_right _ (List.mem_singleton_self _))

theorem stateOf_eq (h : Path scope w w') {id : ContextId} (hSpared : ¬ scope.governs id) :
    w'.stateOf id = w.stateOf id := by
  induction h with
  | refl => rfl
  | @tail v v' hPath hMove ih =>
    rw [← ih]
    cases hMove with
    | remember memory => rfl
    | store stores h => rfl
    | bean other beans => exact stateOf_modifyContext fun _ => rfl
    | subscribe other r => exact stateOf_modifyContext fun _ => rfl
    | note notes plain => rfl
    | @mark entry other before after notes sign state step =>
      rw [stateOf_note, stateOf_setState]
      split
      · rename_i hOther
        subst hOther
        rcases step with rfl | ⟨hGoverns, -⟩
        · rw [state]
          rfl
        · exact absurd hGoverns hSpared
      · rfl

end Path

end World

end Startup
