import Mathlib.Data.List.Infix
import Startup.Proofs.Lifecycle.Phases

/-!
# Publishers called in any order

A publisher may be called with any phases, in any worlds. It accepts the successes in their order,
and one failure after some of them or none. What it accepts depends on what it accepted before, and
not on how that was delivered; a call out of turn changes nothing.
-/

namespace Startup

variable {σ : Type}

namespace Phase

/-- Some of the successes in their order, and behind them at most one failure. -/
def Lawful (phases : List Phase) : Prop :=
  ∃ reached, reached <+: successes ∧ (phases = reached ∨ phases = reached ++ [failed])

theorem append_prefix_successes_iff {reached : List Phase} (h : reached <+: successes)
    (phase : Phase) :
    reached ++ [phase] <+: successes ↔ phase ≠ failed ∧ reached.getLast? = phase.predecessor? := by
  have hAll : ∀ some ∈ successes.inits, ∀ phase ∈ all, some ++ [phase] <+: successes ↔
      phase ≠ failed ∧ some.getLast? = phase.predecessor? := by
    decide
  exact hAll reached ((List.mem_inits _ _).mpr h) phase (mem_all phase)

namespace Lawful

variable {phases : List Phase} {phase : Phase}

protected theorem nil : Lawful [] :=
  ⟨[], List.nil_prefix, .inl rfl⟩

theorem prefix_of_not_mem (h : Lawful phases) (hFailed : failed ∉ phases) :
    phases <+: successes := by
  obtain ⟨reached, hReached, rfl | rfl⟩ := h
  · exact hReached
  · exact absurd (List.mem_append_right _ (List.mem_singleton_self _)) hFailed

theorem append_failed (h : Lawful phases) (hFailed : failed ∉ phases) :
    Lawful (phases ++ [failed]) :=
  ⟨phases, h.prefix_of_not_mem hFailed, .inr rfl⟩

theorem not_append_of_mem (hFailed : failed ∈ phases) : ¬ Lawful (phases ++ [phase]) := by
  rintro ⟨reached, hReached, hEq | hEq⟩
  · apply failed_not_mem_successes hReached
    rw [← hEq]
    exact List.mem_append_left _ hFailed
  · obtain ⟨rfl, -⟩ := List.append_inj' hEq rfl
    exact failed_not_mem_successes hReached hFailed

theorem getLast?_eq_failed_iff (h : Lawful phases) :
    phases.getLast? = some failed ↔ failed ∈ phases := by
  constructor
  · exact List.mem_of_getLast?
  · intro hFailed
    obtain ⟨reached, hReached, rfl | rfl⟩ := h
    · exact absurd hFailed (failed_not_mem_successes hReached)
    · exact List.getLast?_concat

/-- The last phase tells what may come next. -/
theorem append_iff (h : Lawful phases) :
    Lawful (phases ++ [phase]) ↔ Publisher.admits phases.getLast? phase = true := by
  by_cases hFailed : failed ∈ phases
  · have hLast := h.getLast?_eq_failed_iff.mpr hFailed
    rw [hLast]
    exact iff_of_false (not_append_of_mem hFailed) Bool.false_ne_true
  · have hLast : phases.getLast? ≠ some failed := mt h.getLast?_eq_failed_iff.mp hFailed
    by_cases hPhase : phase = failed
    · subst hPhase
      exact iff_of_true (h.append_failed hFailed) (Publisher.admits_failed hLast)
    · have hAdmits : Publisher.admits phases.getLast? phase = true ↔
          phases.getLast? = phase.predecessor? := by
        rw [Publisher.admits, if_neg hLast, if_neg hPhase, beq_iff_eq]
      have hSome := append_prefix_successes_iff (h.prefix_of_not_mem hFailed) phase
      rw [hAdmits]
      constructor
      · rintro ⟨reached, hReached, rfl | hEq⟩
        · exact (hSome.mp hReached).2
        · exact absurd (List.append_inj' hEq rfl).2 (by simpa using hPhase)
      · intro hTurn
        exact ⟨_, hSome.mpr ⟨hPhase, hTurn⟩, .inl rfl⟩

end Lawful

end Phase

namespace Publisher

/-- A call of a publisher and what came back. -/
structure Attempt where
  payload : RunPayload
  outcome : Except RunError Unit

/-- An attempt is accepted unless it was out of turn; its delivery may have failed. -/
def Attempt.accepted : Attempt → Bool
  | ⟨_, .ok _⟩ => true
  | ⟨_, .error (.invalidTransition _ _)⟩ => false
  | ⟨_, .error _⟩ => true

def accepted (attempts : List Attempt) : List Phase :=
  (attempts.filter Attempt.accepted).map fun attempt => attempt.payload.phase

/-- A publisher that was created and called any number of times. Between two calls the world may
change in any way. -/
inductive History (host : Host σ) : List Attempt → Publisher σ → Prop
  | created {application : Application σ} {arguments : List String} {p : Publisher σ}
      {w w' : World σ} (hCreate : create host application arguments w = some (p, w')) :
      History host [] p
  | called {attempts : List Attempt} {p q : Publisher σ} {payload : RunPayload}
      {outcome : Except RunError Unit} {w w' : World σ} (earlier : History host attempts p)
      (hAnnounce : p.announce host payload w = some ((outcome, q), w')) :
      History host (attempts ++ [⟨payload, outcome⟩]) q

variable {host : Host σ} {attempts : List Attempt} {p q : Publisher σ} {payload : RunPayload}
  {outcome : Except RunError Unit} {w w' : World σ}

theorem accepted_append (attempts : List Attempt) (attempt : Attempt) :
    accepted (attempts ++ [attempt]) =
      accepted attempts ++ if attempt.accepted then [attempt.payload.phase] else [] := by
  rw [accepted, List.filter_append, List.map_append, ← accepted, List.filter_singleton]
  cases attempt.accepted <;> rfl

theorem announce_refused (host : Host σ) (w : World σ)
    (h : admits p.last payload.phase = false) :
    p.announce host payload w =
      some ((.error (.invalidTransition (p.last.map .run) (.run payload.phase)), p), w) := by
  rw [announce, h]
  rfl

/-- Whether a call is accepted is decided before anything is delivered. -/
theorem accepted_iff_admits (h : p.announce host payload w = some ((outcome, q), w')) :
    Attempt.accepted ⟨payload, outcome⟩ = true ↔ admits p.last payload.phase = true := by
  cases announcing_of_announce h with
  | refused hAdmits => exact iff_of_false Bool.false_ne_true (by simp [hAdmits])
  | @delivered delivery multicaster _ hAdmits hDeliver =>
    refine iff_of_true ?_ hAdmits
    cases delivery <;> rfl

/-- What a publisher announced last is what it accepted last. -/
theorem History.standing (h : History host attempts p) :
    Phase.Lawful (accepted attempts) ∧ p.last = (accepted attempts).getLast? := by
  induction h with
  | created hCreate => exact ⟨.nil, (create_inv hCreate).2.1⟩
  | called earlier hAnnounce ih =>
    obtain ⟨hLawful, hLast⟩ := ih
    have hAccepted := accepted_iff_admits hAnnounce
    rw [accepted_append]
    cases announcing_of_announce hAnnounce with
    | refused hAdmits =>
      rw [hAdmits] at hAccepted
      rw [if_neg (mt hAccepted.mp Bool.false_ne_true), List.append_nil]
      exact ⟨hLawful, hLast⟩
    | delivered hAdmits hDeliver =>
      rw [if_pos (hAccepted.mpr hAdmits), List.getLast?_concat]
      rw [hLast] at hAdmits
      exact ⟨hLawful.append_iff.mpr hAdmits, rfl⟩

/-- Whatever a publisher was called with, and however its deliveries went: it has accepted a lawful
sequence of phases, it accepts next exactly what continues that lawfully, and a call that does not
is refused with no effect. A failure is accepted once, at any point, and nothing after it. -/
theorem accepts_in_order (h : History host attempts p) :
    Phase.Lawful (accepted attempts) ∧
    (∀ payload w outcome q w', p.announce host payload w = some ((outcome, q), w') →
      (Attempt.accepted ⟨payload, outcome⟩ = true ↔
        Phase.Lawful (accepted attempts ++ [payload.phase]))) ∧
    (∀ payload w, ¬ Phase.Lawful (accepted attempts ++ [payload.phase]) →
      p.announce host payload w = some ((.error (.invalidTransition
        ((accepted attempts).getLast?.map .run) (.run payload.phase)), p), w)) ∧
    (.failed ∉ accepted attempts → Phase.Lawful (accepted attempts ++ [.failed])) ∧
    (.failed ∈ accepted attempts →
      ∀ phase, ¬ Phase.Lawful (accepted attempts ++ [phase])) := by
  obtain ⟨hLawful, hLast⟩ := h.standing
  refine ⟨hLawful, ?_, ?_, hLawful.append_failed, ?_⟩
  · intro payload w outcome q w' hAnnounce
    rw [accepted_iff_admits hAnnounce, hLawful.append_iff, hLast]
  · intro payload w hUnlawful
    rw [hLawful.append_iff, ← hLast, Bool.not_eq_true] at hUnlawful
    rw [announce_refused host w hUnlawful, hLast]
  · intro hFailed phase
    exact Phase.Lawful.not_append_of_mem hFailed

/-- Listeners that fail whatever they hear. -/
def grumpy : Directory Unit :=
  { (default : Directory Unit) with
    listener := fun _ =>
      { (default : Listener Unit) with onEvent := fun _ => .done (.error (.plain "boom")) } }

def attended : Application Unit :=
  Application.plain.addListener ⟨0⟩

/-- The delivery of `starting` fails. It is accepted all the same, and `running` is out of turn. -/
theorem accepts_in_order_grumpy :
    ∃ error attempts p, History (Host.ofDepth grumpy 1) attempts p ∧
      attempts = [⟨.starting, .error (.delivery error)⟩] ∧ accepted attempts = [.starting] ∧
      ∀ w, p.announce (Host.ofDepth grumpy 1) (.running (.managed ⟨0⟩)) w =
        some ((.error (.invalidTransition (some (.run .starting)) (.run .running)), p), w) := by
  have hCreate : create (Host.ofDepth grumpy 1) attended [] default = some (_, _) := rfl
  have hHistory : History (Host.ofDepth grumpy 1) [⟨.starting, _⟩] _ :=
    .called (w := default) (.created hCreate) rfl
  obtain ⟨hLawful, -, hRefused, -⟩ := accepts_in_order hHistory
  refine ⟨_, _, _, hHistory, rfl, rfl, ?_⟩
  intro w
  exact hRefused _ w (mt hLawful.append_iff.mp (by decide))

end Publisher

end Startup
