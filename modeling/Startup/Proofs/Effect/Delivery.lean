import Startup.Proofs.Effect.Scope

/-!
# What a delivery does

A delivery gives every registration its turn, one after the other. It comes back without an error
only after the last turn; under the strategy that propagates, its error is the failure of a
listener that the journal tells of, and under the one that ignores it has none.
-/

namespace Startup

variable {σ : Type} {scope : Scope} {host : Host σ} {origin : Origin} {strategy : Strategy σ}
  {event : Event} {w w' : World σ}

namespace Host

/-- How the turn of a registration ends: the delivery goes on, or an error ends it. -/
inductive Turn (host : Host σ) (origin : Origin) (strategy : Strategy σ) (event : Event)
    (r : Registration) (w : World σ) : Except DeliveryError Unit → World σ → Prop
  | handled {w' : World σ}
      (hPerform : host.perform ((host.listener r.listener).onEvent event)
        (w.note (.invoking origin r.listener r.name event.kind)) = some (.ok (), w')) :
      Turn host origin strategy event r w (.ok ()) w'
  | judged {cause : Cause} {verdict : Except DeliveryError Unit} {w₁ w' : World σ}
      (hPerform : host.perform ((host.listener r.listener).onEvent event)
        (w.note (.invoking origin r.listener r.name event.kind)) = some (.error cause, w₁))
      (hStrategy : strategy r.name event.kind cause w₁ = some (verdict, w')) :
      Turn host origin strategy event r w verdict w'

theorem invokeAll_nil {invoked : Nat} {outcome : Except DeliveryError Nat}
    (h : host.invokeAll origin strategy event [] invoked w = some (outcome, w')) :
    outcome = .ok invoked ∧ w' = w := by
  cases h
  exact ⟨rfl, rfl⟩

theorem invokeAll_cons {r : Registration} {rest : List Registration} {invoked : Nat}
    {outcome : Except DeliveryError Nat}
    (h : host.invokeAll origin strategy event (r :: rest) invoked w = some (outcome, w')) :
    (∃ w₁, Turn host origin strategy event r w (.ok ()) w₁ ∧
      host.invokeAll origin strategy event rest (invoked + 1) w₁ = some (outcome, w')) ∨
    ∃ error, Turn host origin strategy event r w (.error error) w' ∧ outcome = .error error := by
  obtain ⟨_, _, hWrite, hRest⟩ := Act.bind_inv h
  obtain rfl := Act.write_inv hWrite
  obtain ⟨answer, w₁, hPerform, hAfter⟩ := Act.bind_inv hRest
  cases answer with
  | ok _ => exact .inl ⟨w₁, .handled hPerform, hAfter⟩
  | error cause =>
    obtain ⟨verdict, w₂, hStrategy, hLast⟩ := Act.bind_inv hAfter
    cases verdict with
    | ok _ => exact .inl ⟨w₂, .judged hPerform hStrategy, hLast⟩
    | error error =>
      cases hLast
      exact .inr ⟨error, .judged hPerform hStrategy, rfl⟩

/-- Every registration has its turn, one after the other, and none ends the delivery. -/
inductive Turns (host : Host σ) (origin : Origin) (strategy : Strategy σ) (event : Event) :
    List Registration → World σ → World σ → Prop
  | nil (w : World σ) : Turns host origin strategy event [] w w
  | cons {r : Registration} {rest : List Registration} {w w₁ w' : World σ}
      (hTurn : Turn host origin strategy event r w (.ok ()) w₁)
      (hRest : Turns host origin strategy event rest w₁ w') :
      Turns host origin strategy event (r :: rest) w w'

theorem Turn.invokeAll_cons {r : Registration} {w₁ : World σ}
    (h : Turn host origin strategy event r w (.ok ()) w₁) (rest : List Registration)
    (invoked : Nat) : host.invokeAll origin strategy event (r :: rest) invoked w =
      host.invokeAll origin strategy event rest (invoked + 1) w₁ := by
  have hWrite : Act.write (.invoking origin r.listener r.name event.kind) w =
      some ((), w.note (.invoking origin r.listener r.name event.kind)) := rfl
  cases h with
  | handled hPerform => rw [invokeAll, Act.bind_apply hWrite, Act.bind_apply hPerform]
  | judged hPerform hStrategy =>
    rw [invokeAll, Act.bind_apply hWrite, Act.bind_apply hPerform]
    exact Act.bind_apply hStrategy

/-- A delivery comes back without an error exactly after the turns of all registrations. -/
theorem invokeAll_ok_iff {registrations : List Registration} {invoked count : Nat} :
    host.invokeAll origin strategy event registrations invoked w = some (.ok count, w') ↔
      count = invoked + registrations.length ∧
        Turns host origin strategy event registrations w w' := by
  induction registrations generalizing invoked w with
  | nil =>
    constructor
    · intro h
      obtain ⟨hCount, rfl⟩ := invokeAll_nil h
      exact ⟨Except.ok.inj hCount, .nil _⟩
    · rintro ⟨rfl, h⟩
      cases h
      rfl
  | cons r rest ih =>
    have hCount : invoked + 1 + rest.length = invoked + (r :: rest).length := by
      rw [List.length_cons, Nat.add_assoc, Nat.add_comm 1]
    constructor
    · intro h
      rcases invokeAll_cons h with ⟨w₁, hTurn, hRest⟩ | ⟨error, -, hError⟩
      · obtain ⟨rfl, hTurns⟩ := ih.mp hRest
        exact ⟨hCount, .cons hTurn hTurns⟩
      · cases hError
    · rintro ⟨rfl, h⟩
      cases h with
      | cons hTurn hRest =>
        rw [hTurn.invokeAll_cons, ih]
        exact ⟨hCount.symm, hRest⟩

/-- In worlds of an invariant, the listeners of registrations answer an event, and keep it. -/
structure Answers (host : Host σ) (event : Event) (registrations : List Registration)
    (inv : World σ → Prop) : Prop where
  note : ∀ w entry, inv w → inv (w.note entry)
  onEvent : ∀ r ∈ registrations, ∀ w, inv w → ∃ answer w',
    host.perform ((host.listener r.listener).onEvent event) w = some (answer, w') ∧ inv w'

/-- No failure of a listener keeps the next one from its turn if failures are ignored. -/
theorem Answers.turns {registrations : List Registration} {inv : World σ → Prop}
    (h : Answers host event registrations inv) (origin : Origin) (hInv : inv w) :
    ∃ w', Turns host origin .ignore event registrations w w' := by
  induction registrations generalizing w with
  | nil => exact ⟨w, .nil w⟩
  | cons r rest ih =>
    have hRest : Answers host event rest inv :=
      ⟨h.note, fun s hs => h.onEvent s (List.mem_cons_of_mem _ hs)⟩
    obtain ⟨answer, w₁, hPerform, hKept⟩ :=
      h.onEvent r (List.mem_cons_self ..) _ (h.note w _ hInv)
    cases answer with
    | ok _ =>
      obtain ⟨w', hTurns⟩ := ih hRest hKept
      exact ⟨w', .cons (.handled hPerform) hTurns⟩
    | error cause =>
      obtain ⟨w', hTurns⟩ := ih hRest (h.note w₁ (.listenerIgnored r.name event.kind cause) hKept)
      exact ⟨w', .cons (.judged hPerform rfl) hTurns⟩

theorem propagate_within {kind : EventKind}
    (hFailed : ∀ name cause, scope.notes (.listenerFailed name kind cause)) (name : String)
    (cause : Cause) : (Strategy.propagate name kind cause : Act σ _).Within scope :=
  (Act.within_write (hFailed name cause) rfl).bind fun _ => Act.within_pure _

theorem ignore_within (kind : EventKind) (name : String) (cause : Cause) :
    (Strategy.ignore name kind cause : Act σ _).Within scope :=
  (Act.within_write (scope.routine _ rfl) rfl).bind fun _ => Act.within_pure _

theorem Turn.within {r : Registration} {verdict : Except DeliveryError Unit}
    (h : Turn host origin strategy event r w verdict w') (hHost : host.Within scope)
    (hStrategy : ∀ name cause, (strategy name event.kind cause).Within scope) :
    World.Path scope (w.note (.invoking origin r.listener r.name event.kind)) w' := by
  cases h with
  | handled hPerform => exact hHost.perform _ (hHost.directory.onEvent r.listener event) hPerform
  | judged hPerform hJudge =>
    have hFirst := hHost.perform _ (hHost.directory.onEvent r.listener event) hPerform
    exact hFirst.trans (hStrategy _ _ hJudge)

theorem invokeAll_within (hHost : host.Within scope)
    (hStrategy : ∀ name cause, (strategy name event.kind cause).Within scope)
    (registrations : List Registration) (invoked : Nat)
    (hNotes : ∀ r ∈ registrations, scope.notes (.invoking origin r.listener r.name event.kind)) :
    (host.invokeAll origin strategy event registrations invoked).Within scope := by
  induction registrations generalizing invoked with
  | nil => exact Act.within_pure _
  | cons r rest ih =>
    intro w outcome w' h
    have hStart := World.Path.single_note w (hNotes r (List.mem_cons_self ..)) rfl
    rcases invokeAll_cons h with ⟨w₁, hTurn, hRest⟩ | ⟨error, hTurn, -⟩
    · have hFirst := hStart.trans (hTurn.within hHost hStrategy)
      exact hFirst.trans
        (ih (invoked + 1) (fun r hr => hNotes r (List.mem_cons_of_mem _ hr)) hRest)
    · exact hStart.trans (hTurn.within hHost hStrategy)

theorem broadcast_within (hHost : host.Within scope) {strategy : Strategy σ} {event : Event}
    (hSends : scope.Sends event.kind)
    (hStrategy : ∀ name cause, (strategy name event.kind cause).Within scope)
    (multicaster : Multicaster) :
    (host.broadcast .other strategy multicaster event).Within scope :=
  (Act.within_write (hSends.broadcasting .other _) rfl).bind fun _ =>
    invokeAll_within hHost hStrategy _ 0 fun _ _ => hSends.invoking _ _ _

theorem invoking_mem_of_ok (hHost : host.Within scope) (hSends : scope.Sends event.kind)
    (hStrategy : ∀ name cause, (strategy name event.kind cause).Within scope)
    {registrations : List Registration} {invoked count : Nat}
    (h : host.invokeAll origin strategy event registrations invoked w = some (.ok count, w')) :
    ∀ r ∈ registrations, .invoking origin r.listener r.name event.kind ∈ w'.since w := by
  induction registrations generalizing invoked w with
  | nil => exact nofun
  | cons first rest ih =>
    rcases invokeAll_cons h with ⟨w₁, hTurn, hRest⟩ | ⟨error, -, hError⟩
    · have hStart := World.Path.single_note w (hSends.invoking origin first.listener first.name) rfl
      have hFirst := hTurn.within hHost hStrategy
      have hPath := invokeAll_within hHost hStrategy rest (invoked + 1)
        (fun _ _ => hSends.invoking _ _ _) hRest
      intro r hr
      rcases List.mem_cons.mp hr with rfl | hr
      · exact hStart.mem_since_of_left (hFirst.trans hPath) (World.mem_since_note w _)
      · exact (hStart.trans hFirst).mem_since_of_right hPath (ih hRest r hr)
    · cases hError

/-- A propagated error is the failure of a listener, and the journal tells of it. -/
theorem listenerFailed_mem_of_error (hHost : host.Within scope) (hSends : scope.Sends event.kind)
    {registrations : List Registration} {invoked : Nat} {error : DeliveryError}
    (h : host.invokeAll origin .propagate event registrations invoked w =
      some (.error error, w')) :
    ∃ name cause, error = .listenerFailed name event.kind cause ∧
      .listenerFailed name event.kind cause ∈ w'.since w := by
  induction registrations generalizing invoked w with
  | nil =>
    obtain ⟨hOutcome, -⟩ := invokeAll_nil h
    cases hOutcome
  | cons r rest ih =>
    have hStart := World.Path.single_note w (hSends.invoking origin r.listener r.name) rfl
    rcases invokeAll_cons h with ⟨w₁, hTurn, hRest⟩ | ⟨error, hTurn, hError⟩
    · obtain ⟨name, cause, hEq, hMem⟩ := ih hRest
      have hFirst := hTurn.within hHost (propagate_within hSends.failed)
      have hPath := invokeAll_within hHost (propagate_within hSends.failed) rest (invoked + 1)
        (fun _ _ => hSends.invoking _ _ _) hRest
      exact ⟨name, cause, hEq, (hStart.trans hFirst).mem_since_of_right hPath hMem⟩
    · cases hError
      cases hTurn with
      | @judged cause _ w₁ _ hPerform hJudge =>
        have hFirst := hHost.perform _ (hHost.directory.onEvent r.listener event) hPerform
        have hLast := World.Path.single_note w₁ (hSends.failed r.name cause) rfl
        cases hJudge
        exact ⟨r.name, cause, rfl,
          (hStart.trans hFirst).mem_since_of_right hLast (World.mem_since_note w₁ _)⟩

theorem ok_of_ignore {registrations : List Registration} {invoked : Nat}
    {outcome : Except DeliveryError Nat}
    (h : host.invokeAll origin .ignore event registrations invoked w = some (outcome, w')) :
    ∃ count, outcome = .ok count := by
  induction registrations generalizing invoked w with
  | nil => exact ⟨invoked, (invokeAll_nil h).1⟩
  | cons r rest ih =>
    rcases invokeAll_cons h with ⟨w₁, -, hRest⟩ | ⟨error, hTurn, -⟩
    · exact ih hRest
    · cases hTurn with
      | judged hPerform hJudge => cases hJudge

end Host

end Startup
