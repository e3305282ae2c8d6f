import Mathlib.Data.List.Induction
import Startup.Proofs.Context.Closing

/-!
# Closed for good

A context is activated only where it is created, so that only the rollback of a refresh takes a
closed context back. The rollback does not ask whether the context was closed in the meantime: a
listener that closes the context it hears being refreshed, and then fails, reopens it. As long as
listeners leave that to others, a closed context stays closed.
-/

namespace Startup

variable {σ α β : Type} {scope : Scope} {w w' : World σ} {id : ContextId} {state : ContextState}

namespace Entry

/-- Once closed, always closed: after entries that tell of a closed context, all that follow do. -/
def ClosesForGood (id : ContextId) (state : ContextState) (entries : List Entry) : Prop :=
  ∀ before after, before ++ after <+: entries →
    told id state before = .closed → told id state (before ++ after) = .closed

/-- A refresh is put back while the context is closed. -/
def Reopens (id : ContextId) (state : ContextState) (entries : List Entry) : Prop :=
  ∃ before name error after, entries = before ++ refreshFailed id name error :: after ∧
    told id state before = .closed

def NeverRevives (id : ContextId) (state : ContextState) (entries : List Entry) : Prop :=
  ∀ before entry after, entries = before ++ entry :: after →
    entry.sign = some (id, .active) → told id state before ≠ .closed

theorem not_reopens_nil : ¬ Reopens id state [] := by
  rintro ⟨before, name, error, after, hEntries, -⟩
  exact absurd hEntries.symm (List.append_ne_nil_of_right_ne_nil _ (List.cons_ne_nil _ _))

theorem reopens_append {a b : List Entry} (h : Reopens id state (a ++ b)) :
    Reopens id state a ∨ Reopens id (told id state a) b := by
  obtain ⟨before, name, error, after, hEntries, hClosed⟩ := h
  rcases List.append_eq_append_iff.mp hEntries with ⟨middle, rfl, rfl⟩ | ⟨middle, rfl, hRest⟩
  · rw [told_append] at hClosed
    exact .inr ⟨middle, name, error, after, rfl, hClosed⟩
  · cases middle with
    | nil =>
      rw [List.append_nil]
      exact .inr ⟨[], name, error, after, hRest.symm, hClosed⟩
    | cons entry middle =>
      cases hRest
      exact .inl ⟨before, name, error, middle, rfl, hClosed⟩

theorem not_reopens_singleton {entry : Entry}
    (h : state = .closed → ∀ name error, entry ≠ refreshFailed id name error) :
    ¬ Reopens id state [entry] := by
  rintro ⟨before, name, error, after, hEntries, hClosed⟩
  cases before with
  | nil =>
    cases hEntries
    exact h hClosed name error rfl
  | cons _ before => simp at hEntries

theorem sign_eq_created {entry : Entry} (h : entry.sign = some (id, .created)) :
    ∃ name error, entry = refreshFailed id name error := by
  unfold sign at h
  split at h
  case h_2 other name error =>
    cases h
    exact ⟨name, error, rfl⟩
  all_goals cases h

theorem ClosesForGood.not_reopens {entries : List Entry} (h : ClosesForGood id state entries) :
    ¬ Reopens id state entries := by
  rintro ⟨before, name, error, after, hEntries, hClosed⟩
  have hPrefix : before ++ [refreshFailed id name error] <+: entries := by
    refine ⟨after, ?_⟩
    rw [hEntries, List.append_assoc, List.singleton_append]
  have hStays := h before _ hPrefix hClosed
  rw [told_append, hClosed, told_singleton] at hStays
  simp [sign] at hStays

theorem NeverRevives.closesForGood {entries : List Entry} (hRevives : NeverRevives id state entries)
    (hReopens : ¬ Reopens id state entries) : ClosesForGood id state entries := by
  intro before after hPrefix hClosed
  induction after using List.reverseRecOn with
  | nil => rwa [List.append_nil]
  | append_singleton after entry ih =>
    rw [← List.append_assoc] at hPrefix ⊢
    have hBefore := ih ((List.prefix_append _ _).trans hPrefix)
    obtain ⟨rest, hRest⟩ := hPrefix
    have hSplit : entries = (before ++ after) ++ entry :: rest := by
      rw [← hRest, List.append_assoc _ [entry], List.singleton_append]
    rw [told_append, hBefore, told_singleton]
    cases hSign : entry.sign with
    | none => rfl
    | some sign =>
      obtain ⟨other, next⟩ := sign
      by_cases hOther : other = id
      · subst hOther
        cases next with
        | created =>
          obtain ⟨name, error, rfl⟩ := sign_eq_created hSign
          exact absurd ⟨_, _, _, _, hSplit, hBefore⟩ hReopens
        | active => exact absurd hBefore (hRevives _ _ _ hSplit hSign)
        | closed => simp
      · simp [hOther]

end Entry

namespace World.Path

theorem neverRevives (h : World.Path scope w w') (hState : w.stateOf id = some state) :
    Entry.NeverRevives id state (w'.since w) := by
  induction h with
  | refl =>
    intro before entry after hSplit
    rw [since_self] at hSplit
    simp at hSplit
  | @tail v v' hPath hMove ih =>
    rcases hMove.journal with ⟨hSame, -⟩ | ⟨last, hNext, -, -, hStep⟩
    · rwa [since, hSame]
    · -- only the last entry is new, and its move says where it came from
      intro before entry after hSplit hSign
      rw [since_append (journal_grows hPath) hNext] at hSplit
      rcases List.eq_nil_or_concat after with rfl | ⟨after, _, rfl⟩
      · obtain ⟨rfl, hLast⟩ := List.append_inj' hSplit rfl
        cases hLast
        obtain ⟨found, hFound, hFrom⟩ := hStep id _ hSign
        rw [World.Path.stateOf hPath hState] at hFound
        cases hFound
        rcases hFrom with hActive | ⟨-, hCreated⟩
        · rw [hActive]
          decide
        · rw [hCreated rfl]
          decide
      · rw [List.concat_eq_append, ← List.cons_append, ← List.append_assoc] at hSplit
        obtain ⟨hInit, -⟩ := List.append_inj' hSplit rfl
        exact ih before entry after hInit hSign

end World.Path

namespace World

/-- From one world to the other, no refresh of a closed context is put back. -/
def Unreopened (id : ContextId) (w w' : World σ) : Prop :=
  Path .full w w' ∧ ∀ state, w.stateOf id = some state → ¬ Entry.Reopens id state (w'.since w)

theorem Unreopened.trans {v : World σ} (h : Unreopened id w v) (hNext : Unreopened id v w') :
    Unreopened id w w' := by
  constructor
  · exact h.1.trans hNext.1
  · intro state hState hReopens
    rw [h.1.since_trans hNext.1] at hReopens
    rcases Entry.reopens_append hReopens with hReopens | hReopens
    · exact h.2 state hState hReopens
    · exact hNext.2 _ (h.1.stateOf hState) hReopens

theorem Unreopened.move {after : ContextState} {entry : Entry}
    (hMove : Move .full w ((w.setState id after).note entry))
    (hEntry : w.stateOf id = some .closed → ∀ name error, entry ≠ .refreshFailed id name error) :
    Unreopened id w ((w.setState id after).note entry) := by
  constructor
  · exact .single hMove
  · intro state hState
    have hSince : ((w.setState id after).note entry).since w = [entry] := since_eq rfl
    rw [hSince]
    apply Entry.not_reopens_singleton
    rintro rfl
    exact hEntry hState

theorem Path.unreopened (h : Path scope w w') (hSpared : ¬ scope.governs id) :
    Unreopened id w w' := by
  refine ⟨h.widen (fun _ _ => trivial) scope.modest, ?_⟩
  intro state hState
  induction h with
  | refl =>
    rw [since_self]
    exact Entry.not_reopens_nil
  | @tail v v' hPath hMove ih =>
    rcases hMove.journal with ⟨hSame, -⟩ | ⟨last, hNext, -, -, hStep⟩
    · rwa [since, hSame]
    · rw [since_append (journal_grows hPath) hNext]
      intro hReopens
      rcases Entry.reopens_append hReopens with hReopens | hReopens
      · exact ih hReopens
      · revert hReopens
        apply Entry.not_reopens_singleton
        rintro hClosed name error rfl
        -- the move would have to take a closed context back, which only its scope allows
        obtain ⟨before, hBefore, hFrom⟩ := hStep id .created rfl
        rw [stateOf hPath hState] at hBefore
        cases hBefore
        rcases hFrom with hCreated | ⟨hGoverns, -⟩
        · rw [hCreated] at hClosed
          cases hClosed
        · exact hSpared hGoverns

end World

def Act.NeverReopens (id : ContextId) (act : Act σ α) : Prop :=
  ∀ ⦃w a w'⦄, act w = some (a, w') → World.Unreopened id w w'

theorem Act.NeverReopens.bind {act : Act σ α} {f : α → Act σ β} (hAct : act.NeverReopens id)
    (hRest : ∀ a, (f a).NeverReopens id) : (act >>= f).NeverReopens id := by
  intro w b w' h
  obtain ⟨a, w₁, hFirst, hLast⟩ := bind_inv h
  exact (hAct hFirst).trans (hRest a hLast)

theorem Act.neverReopens_of_within {act : Act σ α} (h : act.Within (Scope.full.sparing id)) :
    act.NeverReopens id :=
  fun _ _ _ hAct => (h hAct).unreopened fun hGoverns => hGoverns rfl

namespace ContextId

variable {host : Host σ}

theorem sparing_sends (id : ContextId) (kind : EventKind) : (Scope.full.sparing id).Sends kind :=
  (Scope.full_sends kind).sparing id

/-- The listeners of a refresh find the context active and leave it so. -/
theorem refresh_neverReopens (hHost : host.Within (Scope.full.sparing id)) :
    (id.refresh host).NeverReopens id := by
  have hSpared : ¬ (Scope.full.sparing id).governs id := fun hGoverns => hGoverns rfl
  intro w outcome w' h
  cases refreshing_of_refresh h with
  | rejected hContext hState => exact World.Path.unreopened .refl hSpared
  | @failed context error w₁ hContext hState hPublish =>
    have hMove := move_refreshed trivial (Scope.full_sends _) hContext hState
    have hPath := path_of_publish_refreshed hHost (sparing_sends id _) hContext hPublish
    have hActive : w₁.stateOf id = some .active := by
      rw [hPath.stateOf_eq hSpared, World.stateOf_note, World.stateOf_setState, if_pos rfl,
        stateOf_of_context? hContext]
      rfl
    have hBack : World.Move .full w₁ ((w₁.setState id .created).note
        (.refreshFailed id context.displayName error)) :=
      .mark w₁ rfl rfl hActive (.inr ⟨trivial, nofun⟩)
    have hStart := World.Unreopened.move hMove fun _ _ _ => nofun
    apply (hStart.trans (hPath.unreopened hSpared)).trans
    apply World.Unreopened.move hBack
    intro hClosed
    rw [hActive] at hClosed
    cases hClosed
  | @succeeded context after w₁ hContext hState hPublish hAfter =>
    have hMove := move_refreshed trivial (Scope.full_sends _) hContext hState
    have hPath := path_of_publish_refreshed hHost (sparing_sends id _) hContext hPublish
    have hStart := World.Unreopened.move hMove fun _ _ _ => nofun
    have hLast : World.Path (Scope.full.sparing id) w₁
        (w₁.note (.refreshed id after.displayName after.beans.size)) :=
      .single_note w₁ (Scope.routine _ _ rfl) rfl
    exact hStart.trans ((hPath.trans hLast).unreopened hSpared)

theorem close_neverReopens (hHost : host.Within (Scope.full.sparing id)) :
    (id.close host).NeverReopens id := by
  have hSpared : ¬ (Scope.full.sparing id).governs id := fun hGoverns => hGoverns rfl
  intro w outcome w' h
  cases closing_of_close h with
  | idle hContext hState => exact World.Path.unreopened .refl hSpared
  | silent hContext hState =>
    refine .move (.mark w rfl rfl (stateOf_of_context? hContext) (.inr ⟨trivial, nofun⟩)) ?_
    exact fun _ _ _ => nofun
  | announced hContext hState hPublish =>
    have hPath := publish_within hHost id (sparing_sends id _) hPublish
    obtain ⟨before, hBefore⟩ := stateOf_isSome hPath hContext
    refine (hPath.unreopened hSpared).trans
      (.move (.mark _ rfl rfl hBefore (.inr ⟨trivial, nofun⟩)) ?_)
    exact fun _ _ _ => nofun

theorem answer_neverReopens (hHost : host.Within (Scope.full.sparing id)) (q : Request σ) :
    (host.answer q).NeverReopens id := by
  have hPlain (h : q.Within (Scope.full.sparing id)) : (host.answer q).NeverReopens id :=
    Act.neverReopens_of_within (Host.answer_within hHost q h)
  cases q with
  | refresh context =>
    by_cases hSame : context = id
    · subst hSame
      exact refresh_neverReopens hHost
    · exact hPlain ⟨hSame, sparing_sends id _⟩
  | close context =>
    by_cases hSame : context = id
    · subst hSame
      exact close_neverReopens hHost
    · exact hPlain ⟨hSame, sparing_sends id _⟩
  | publish context event => exact hPlain (sparing_sends id _)
  | broadcast multicaster event => exact hPlain (sparing_sends id _)
  | _ => exact hPlain trivial

theorem interpret_neverReopens (hHost : host.Within (Scope.full.sparing id))
    (program : Program σ α) : (program.interpret host.answer).NeverReopens id := by
  induction program with
  | done value => exact Act.neverReopens_of_within (Act.within_pure value)
  | ask q next ih => exact (answer_neverReopens hHost q).bind ih

theorem perform_neverReopens {directory : Directory σ}
    (hDirectory : directory.Within (Scope.full.sparing id)) (depth : Nat) (program : Program σ α) :
    ((Host.ofDepth directory depth).perform program).NeverReopens id := by
  cases depth with
  | zero => exact fun _ _ _ h => nomatch h
  | succ depth => exact interpret_neverReopens (Host.ofDepth_within hDirectory depth) program

/-- Whatever is asked of a context, by a program and by the listeners that are invoked meanwhile,
at any depth: the journal tells its state, a closed context refuses to be refreshed, and it stays
closed unless the rollback of a refresh finds it closed. That cannot be where listeners leave it to
others to refresh and close the context. -/
theorem closed_unless_put_back (directory : Directory σ) (depth : Nat) (program : Program σ α)
    {a : α} (hRun : (Host.ofDepth directory depth).perform program w = some (a, w'))
    (hState : w.stateOf id = some state) :
    w'.stateOf id = some (Entry.told id state (w'.since w)) ∧
      (Entry.ClosesForGood id state (w'.since w) ↔ ¬ Entry.Reopens id state (w'.since w)) ∧
      (directory.Within (Scope.full.sparing id) →
        Entry.ClosesForGood id state (w'.since w)) ∧
      ∀ (host : Host σ) (v : World σ) (context : Context), v.context? id = some context →
        context.state = .closed →
          id.refresh host v = some (.error (.invalidState context.identity.full refreshOperation
            ContextState.closed.name), v) := by
  have hPath : World.Path Scope.full w w' :=
    (Host.ofDepth_within directory.within_full depth).perform program program.within_full hRun
  have hRevives := hPath.neverRevives hState
  refine ⟨hPath.stateOf hState, ?_, ?_, ?_⟩
  · constructor
    · exact Entry.ClosesForGood.not_reopens
    · exact hRevives.closesForGood
  · intro hDirectory
    have hNever := perform_neverReopens hDirectory depth program hRun
    exact hRevives.closesForGood (hNever.2 state hState)
  · intro host v context hContext hClosed
    exact refresh_closed host hContext hClosed

def alone : World Unit :=
  { (default : World Unit) with contexts := [Context.new default .standalone] }

/-- Listeners that close the context that they hear being refreshed, and then fail. -/
def slamming : Directory Unit :=
  { (default : Directory Unit) with
    listener := fun _ =>
      { (default : Listener Unit) with
        onEvent := fun
          | .context ⟨.refreshed, _⟩ =>
            .ask (.close ⟨0⟩) fun _ => .done (.error (.plain "boom"))
          | _ => .done (.ok ()) } }

def attended : Program Unit (Except DeliveryError Unit) :=
  .ask (.subscribe (.managed ⟨0⟩) ⟨0⟩) fun _ => .ask (.refresh ⟨0⟩) .done

def retired : Program Unit (Except DeliveryError Unit) :=
  attended >>= fun _ => .ask (.close ⟨0⟩) .done

theorem closed_unless_put_back_retired :
    ∃ a w', (Host.ofDepth default 2).perform retired alone = some (a, w') ∧
      alone.stateOf ⟨0⟩ = some .created ∧
      Entry.ClosesForGood ⟨0⟩ .created (w'.since alone) := by
  refine ⟨_, _, rfl, rfl, ?_⟩
  exact (closed_unless_put_back default 2 retired rfl rfl).2.2.1 Directory.within_default

/-- The context is closed in the course of its refresh, and created again after it. -/
theorem slammed_reopens :
    ∃ a w', (Host.ofDepth slamming 3).perform attended alone = some (a, w') ∧
      alone.stateOf ⟨0⟩ = some .created ∧ w'.stateOf ⟨0⟩ = some .created ∧
      ¬ Entry.ClosesForGood ⟨0⟩ .created (w'.since alone) := by
  refine ⟨_, _, rfl, rfl, rfl, ?_⟩
  intro hGood
  exact hGood.not_reopens ⟨_, _, _, [], rfl, rfl⟩

end ContextId

end Startup
