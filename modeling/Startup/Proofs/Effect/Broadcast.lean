import Startup.Proofs.Context.Nesting

/-!
# Broadcasts

A broadcast invokes the matching registrations one after the other, up to the one whose failure
the strategy turns into an error. What the strategy is asked and when does not depend on it: it is
asked about each failure once, before the next registration has its turn. A strategy that writes
one line about each failure leaves a journal that tells the invocations one by one.
-/

namespace Startup

variable {σ : Type} {host : Host σ} {origin : Origin} {strategy : Strategy σ} {event : Event}
  {w w' : World σ}

/-- What is written before a broadcast. -/
def Multicaster.opening (multicaster : Multicaster) (origin : Origin) (event : Event) : Entry :=
  .broadcasting origin event.kind (multicaster.matching event.kind).length

namespace Host

/-- How a delivery comes back: all registrations had their turns, or the failure of one ended it
and those behind it had none. -/
inductive Course (host : Host σ) (origin : Origin) (strategy : Strategy σ) (event : Event) :
    List Registration → World σ → Except DeliveryError Nat → World σ → Prop
  | complete {registrations : List Registration} {w w' : World σ}
      (hTurns : Turns host origin strategy event registrations w w') :
      Course host origin strategy event registrations w (.ok registrations.length) w'
  | ended {before after : List Registration} {r : Registration} {error : DeliveryError}
      {w v w' : World σ} (hTurns : Turns host origin strategy event before w v)
      (hTurn : Turn host origin strategy event r v (.error error) w') :
      Course host origin strategy event (before ++ r :: after) w (.error error) w'

/-- A turn that does not come back, by the listener's fault or by that of the strategy. -/
inductive Halts (host : Host σ) (origin : Origin) (strategy : Strategy σ) (event : Event)
    (r : Registration) (w : World σ) : Prop
  | unanswered (hPerform : host.perform ((host.listener r.listener).onEvent event)
      (w.note (.invoking origin r.listener r.name event.kind)) = none)
  | undecided {cause : Cause} {w₁ : World σ}
      (hPerform : host.perform ((host.listener r.listener).onEvent event)
        (w.note (.invoking origin r.listener r.name event.kind)) = some (.error cause, w₁))
      (hStrategy : strategy r.name event.kind cause w₁ = none)

theorem Turns.invokeAll_append {before : List Registration} {v : World σ}
    (h : Turns host origin strategy event before w v) (after : List Registration)
    (invoked : Nat) :
    host.invokeAll origin strategy event (before ++ after) invoked w =
      host.invokeAll origin strategy event after (invoked + before.length) v := by
  induction h generalizing invoked with
  | nil w => rfl
  | cons hTurn hRest ih =>
    rw [List.cons_append, hTurn.invokeAll_cons, ih, List.length_cons, Nat.add_assoc,
      Nat.add_comm 1]

theorem Turn.invokeAll_error {r : Registration} {error : DeliveryError}
    (h : Turn host origin strategy event r w (.error error) w') (rest : List Registration)
    (invoked : Nat) :
    host.invokeAll origin strategy event (r :: rest) invoked w = some (.error error, w') := by
  have hWrite : Act.write (.invoking origin r.listener r.name event.kind) w =
      some ((), w.note (.invoking origin r.listener r.name event.kind)) := rfl
  cases h with
  | judged hPerform hStrategy =>
    rw [invokeAll, Act.bind_apply hWrite, Act.bind_apply hPerform]
    exact Act.bind_apply hStrategy

theorem Halts.invokeAll_eq_none {r : Registration} (h : Halts host origin strategy event r w)
    (rest : List Registration) (invoked : Nat) :
    host.invokeAll origin strategy event (r :: rest) invoked w = none := by
  have hWrite : Act.write (.invoking origin r.listener r.name event.kind) w =
      some ((), w.note (.invoking origin r.listener r.name event.kind)) := rfl
  rw [invokeAll, Act.bind_apply hWrite]
  cases h with
  | unanswered hPerform => exact Act.bind_eq_none hPerform
  | undecided hPerform hStrategy =>
    rw [Act.bind_apply hPerform]
    exact Act.bind_eq_none hStrategy

/-- Every turn comes back with a verdict, or does not come back. -/
theorem exists_turn_or_halts (host : Host σ) (origin : Origin) (strategy : Strategy σ)
    (event : Event) (r : Registration) (w : World σ) :
    (∃ verdict v, Turn host origin strategy event r w verdict v) ∨
      Halts host origin strategy event r w := by
  cases hPerform : host.perform ((host.listener r.listener).onEvent event)
      (w.note (.invoking origin r.listener r.name event.kind)) with
  | none => exact .inr (.unanswered hPerform)
  | some result =>
    obtain ⟨answer, w₁⟩ := result
    cases answer with
    | ok _ => exact .inl ⟨_, w₁, .handled hPerform⟩
    | error cause =>
      cases hStrategy : strategy r.name event.kind cause w₁ with
      | none => exact .inr (.undecided hPerform hStrategy)
      | some result => exact .inl ⟨_, _, .judged hPerform hStrategy⟩

/-- A delivery takes its course or is held up in one turn, whatever listeners and strategy do. -/
theorem exists_course_or_halts (host : Host σ) (origin : Origin) (strategy : Strategy σ)
    (event : Event) (registrations : List Registration) (w : World σ) :
    (∃ outcome w', Course host origin strategy event registrations w outcome w') ∨
      ∃ before r after v, registrations = before ++ r :: after ∧
        Turns host origin strategy event before w v ∧ Halts host origin strategy event r v := by
  induction registrations generalizing w with
  | nil => exact .inl ⟨_, w, .complete (.nil w)⟩
  | cons r rest ih =>
    rcases exists_turn_or_halts host origin strategy event r w with ⟨verdict, v, hTurn⟩ | hHalts
    · cases verdict with
      | error error => exact .inl ⟨_, v, .ended (.nil w) hTurn⟩
      | ok _ =>
        rcases ih v with ⟨outcome, w', hCourse⟩ | ⟨before, s, after, u, rfl, hTurns, hHalts⟩
        · cases hCourse with
          | complete hTurns => exact .inl ⟨_, w', .complete (.cons hTurn hTurns)⟩
          | ended hTurns hLast => exact .inl ⟨_, w', .ended (.cons hTurn hTurns) hLast⟩
        · exact .inr ⟨r :: before, s, after, u, rfl, .cons hTurn hTurns, hHalts⟩
    · exact .inr ⟨[], r, rest, w, rfl, .nil w, hHalts⟩

theorem Course.invokeAll_eq {registrations : List Registration}
    {outcome : Except DeliveryError Nat}
    (h : Course host origin strategy event registrations w outcome w') :
    host.invokeAll origin strategy event registrations 0 w = some (outcome, w') := by
  cases h with
  | complete hTurns => exact invokeAll_ok_iff.mpr ⟨(Nat.zero_add _).symm, hTurns⟩
  | ended hTurns hTurn => rw [hTurns.invokeAll_append, hTurn.invokeAll_error]

theorem invokeAll_eq_some_iff {registrations : List Registration}
    {outcome : Except DeliveryError Nat} :
    host.invokeAll origin strategy event registrations 0 w = some (outcome, w') ↔
      Course host origin strategy event registrations w outcome w' := by
  constructor
  · intro h
    rcases exists_course_or_halts host origin strategy event registrations w with
      ⟨other, v, hCourse⟩ | ⟨before, r, after, v, rfl, hTurns, hHalts⟩
    · rw [hCourse.invokeAll_eq] at h
      cases h
      exact hCourse
    · rw [hTurns.invokeAll_append, hHalts.invokeAll_eq_none] at h
      cases h
  · exact Course.invokeAll_eq

theorem invokeAll_eq_none_iff {registrations : List Registration} :
    host.invokeAll origin strategy event registrations 0 w = none ↔
      ∃ before r after v, registrations = before ++ r :: after ∧
        Turns host origin strategy event before w v ∧ Halts host origin strategy event r v := by
  constructor
  · intro h
    rcases exists_course_or_halts host origin strategy event registrations w with
      ⟨outcome, w', hCourse⟩ | hHeld
    · rw [hCourse.invokeAll_eq] at h
      cases h
    · exact hHeld
  · rintro ⟨before, r, after, v, rfl, hTurns, hHalts⟩
    rw [hTurns.invokeAll_append, hHalts.invokeAll_eq_none]

theorem broadcast_apply (host : Host σ) (origin : Origin) (strategy : Strategy σ)
    (multicaster : Multicaster) (event : Event) (w : World σ) :
    host.broadcast origin strategy multicaster event w =
      host.invokeAll origin strategy event (multicaster.matching event.kind) 0
        (w.note (multicaster.opening origin event)) := rfl

end Host

/-- A registration invoked: what its listener wrote to the journal itself, and its answer. -/
structure Invocation where
  registration : Registration
  written : List Entry
  answer : Except Cause Unit

namespace Invocation

variable {line : String → EventKind → Cause → Entry} {i : Invocation}

/-- What is written about the failure of an invocation, if it failed. -/
def report (line : String → EventKind → Cause → Entry) (kind : EventKind) (i : Invocation) :
    List Entry :=
  match i.answer with
  | .ok _ => []
  | .error cause => [line i.registration.name kind cause]

/-- Everything that is written about an invocation and by it. -/
def entries (origin : Origin) (line : String → EventKind → Cause → Entry) (kind : EventKind)
    (i : Invocation) : List Entry :=
  .invoking origin i.registration.listener i.registration.name kind ::
    (i.written ++ i.report line kind)

/-- The world after an invocation that ended in a world. -/
def reported (line : String → EventKind → Cause → Entry) (kind : EventKind) (i : Invocation)
    (w : World σ) : World σ :=
  match i.answer with
  | .ok _ => w
  | .error cause => w.note (line i.registration.name kind cause)

theorem journal_reported (line : String → EventKind → Cause → Entry) (kind : EventKind)
    (i : Invocation) (w : World σ) :
    (i.reported line kind w).journal = w.journal ++ i.report line kind := by
  unfold reported report
  split
  · exact (List.append_nil _).symm
  · rfl

/-- The listener of an invocation runs after it was announced. -/
structure Runs (host : Host σ) (origin : Origin) (event : Event) (i : Invocation)
    (w w' : World σ) : Prop where
  answers : host.perform ((host.listener i.registration.listener).onEvent event)
    (w.note (.invoking origin i.registration.listener i.registration.name event.kind)) =
      some (i.answer, w')
  writes : w'.journal = w.journal ++
    .invoking origin i.registration.listener i.registration.name event.kind :: i.written

/-- Invocations one after the other. -/
inductive Chain (host : Host σ) (origin : Origin) (line : String → EventKind → Cause → Entry)
    (event : Event) : List Invocation → World σ → World σ → Prop
  | nil (w : World σ) : Chain host origin line event [] w w
  | cons {i : Invocation} {rest : List Invocation} {w v w' : World σ}
      (hRuns : i.Runs host origin event w v)
      (hRest : Chain host origin line event rest (i.reported line event.kind v) w') :
      Chain host origin line event (i :: rest) w w'

theorem Chain.append {is js : List Invocation} {v : World σ}
    (h : Chain host origin line event is w v) (hNext : Chain host origin line event js v w') :
    Chain host origin line event (is ++ js) w w' := by
  induction h with
  | nil w => exact hNext
  | cons hRuns hRest ih => exact .cons hRuns (ih hNext)

theorem Chain.append_inv {is js : List Invocation}
    (h : Chain host origin line event (is ++ js) w w') :
    ∃ v, Chain host origin line event is w v ∧ Chain host origin line event js v w' := by
  induction is generalizing w with
  | nil => exact ⟨w, .nil w, h⟩
  | cons i is ih =>
    cases h with
    | cons hRuns hRest =>
      obtain ⟨v, hFirst, hLast⟩ := ih hRest
      exact ⟨v, .cons hRuns hFirst, hLast⟩

theorem Chain.journal {invocations : List Invocation}
    (h : Chain host origin line event invocations w w') :
    w'.journal = w.journal ++ invocations.flatMap (entries origin line event.kind) := by
  induction h with
  | nil w => exact (List.append_nil _).symm
  | cons hRuns hRest ih =>
    rw [ih, journal_reported, hRuns.writes, List.flatMap_cons, entries, List.append_assoc,
      List.append_assoc, List.cons_append, List.cons_append, List.append_assoc]

/-- What the journal tells of a broadcast: that it begins, and then one invocation after the
other. -/
theorem Chain.told {multicaster : Multicaster} {invocations : List Invocation}
    (h : Chain host origin line event invocations (w.note (multicaster.opening origin event)) w') :
    w'.journal = w.journal ++ multicaster.opening origin event ::
      invocations.flatMap (entries origin line event.kind) := by
  rw [h.journal, World.journal_note, List.append_assoc]
  rfl

/-- What a strategy makes of an invocation: nothing, if the listener did not fail. -/
def judgement (verdict : String → EventKind → Cause → Except DeliveryError Unit)
    (kind : EventKind) (i : Invocation) : Except DeliveryError Unit :=
  match i.answer with
  | .ok _ => .ok ()
  | .error cause => verdict i.registration.name kind cause

/-- A strategy that propagates passes what did not fail. -/
theorem judgement_propagate_eq_ok_iff {kind : EventKind} :
    i.judgement (fun name kind cause => .error (.listenerFailed name kind cause)) kind = .ok () ↔
      i.answer = .ok () := by
  unfold judgement
  split
  · rename_i hAnswer
    exact iff_of_true rfl hAnswer
  · rename_i hAnswer
    exact iff_of_false nofun (by rw [hAnswer]; nofun)

theorem judgement_propagate_eq_error_iff {kind : EventKind} {error : DeliveryError} :
    i.judgement (fun name kind cause => .error (.listenerFailed name kind cause)) kind =
        .error error ↔
      ∃ cause, i.answer = .error cause ∧
        error = .listenerFailed i.registration.name kind cause := by
  unfold judgement
  split
  · rename_i hAnswer
    refine iff_of_false nofun ?_
    rintro ⟨cause, hFailed, -⟩
    cases hAnswer.symm.trans hFailed
  · rename_i cause hAnswer
    constructor
    · rintro ⟨⟩
      exact ⟨cause, hAnswer, rfl⟩
    · rintro ⟨other, hFailed, rfl⟩
      cases hAnswer.symm.trans hFailed
      rfl

theorem judgement_ignore (kind : EventKind) (i : Invocation) :
    i.judgement (fun _ _ _ => .ok ()) kind = .ok () := by
  unfold judgement
  split <;> rfl

end Invocation

namespace Strategy

/-- Writes one line about a failure, and judges it by nothing else. -/
def noting (line : String → EventKind → Cause → Entry)
    (verdict : String → EventKind → Cause → Except DeliveryError Unit) : Strategy σ :=
  fun name kind cause => do
    Act.write (line name kind cause)
    return verdict name kind cause

theorem propagate_eq_noting : (propagate : Strategy σ) =
    noting .listenerFailed fun name kind cause => .error (.listenerFailed name kind cause) := rfl

theorem ignore_eq_noting :
    (ignore : Strategy σ) = noting .listenerIgnored fun _ _ _ => .ok () := rfl

end Strategy

namespace Host

variable {line : String → EventKind → Cause → Entry}
  {verdict : String → EventKind → Cause → Except DeliveryError Unit}

/-- Under a strategy that writes one line, a turn is an invocation with what is written about
it. -/
theorem turn_noting_iff (hHost : host.Within .full) {r : Registration}
    {judged : Except DeliveryError Unit} :
    Turn host origin (.noting line verdict) event r w judged w' ↔
      ∃ i v, Invocation.Runs host origin event i w v ∧ i.registration = r ∧
        judged = i.judgement verdict event.kind ∧ w' = i.reported line event.kind v := by
  -- what a listener writes comes behind the entry that announces its turn
  have hWritten {answer : Except Cause Unit} {v : World σ}
      (hPerform : host.perform ((host.listener r.listener).onEvent event)
        (w.note (.invoking origin r.listener r.name event.kind)) = some (answer, v)) :
      ∃ written, v.journal = w.journal ++
        .invoking origin r.listener r.name event.kind :: written := by
    obtain ⟨written, hJournal⟩ :=
      (hHost.perform _ (Program.within_full _) hPerform).journal_grows
    exact ⟨written, by rw [← hJournal, World.journal_note, List.append_assoc]; rfl⟩
  constructor
  · intro h
    cases h with
    | handled hPerform =>
      obtain ⟨written, hJournal⟩ := hWritten hPerform
      exact ⟨⟨r, written, .ok ()⟩, w', ⟨hPerform, hJournal⟩, rfl, rfl, rfl⟩
    | @judged cause _ v _ hPerform hStrategy =>
      obtain ⟨written, hJournal⟩ := hWritten hPerform
      cases hStrategy
      exact ⟨⟨r, written, .error cause⟩, v, ⟨hPerform, hJournal⟩, rfl, rfl, rfl⟩
  · rintro ⟨⟨_, written, answer⟩, v, ⟨hPerform, -⟩, rfl, rfl, rfl⟩
    cases answer with
    | ok _ => exact .handled hPerform
    | error cause => exact .judged hPerform rfl

theorem turns_noting_iff (hHost : host.Within .full) {registrations : List Registration} :
    Turns host origin (.noting line verdict) event registrations w w' ↔
      ∃ invocations, Invocation.Chain host origin line event invocations w w' ∧
        invocations.map Invocation.registration = registrations ∧
        ∀ i ∈ invocations, i.judgement verdict event.kind = .ok () := by
  constructor
  · intro h
    induction h with
    | nil w => exact ⟨[], .nil w, rfl, nofun⟩
    | cons hTurn _ ih =>
      obtain ⟨i, v, hRuns, rfl, hJudged, rfl⟩ := (turn_noting_iff hHost).mp hTurn
      obtain ⟨rest, hChain, rfl, hPassed⟩ := ih
      exact ⟨i :: rest, .cons hRuns hChain, rfl,
        List.forall_mem_cons.mpr ⟨hJudged.symm, hPassed⟩⟩
  · rintro ⟨invocations, hChain, rfl, hPassed⟩
    induction hChain with
    | nil w => exact .nil w
    | cons hRuns hRest ih =>
      obtain ⟨hFirst, hOthers⟩ := List.forall_mem_cons.mp hPassed
      exact .cons ((turn_noting_iff hHost).mpr ⟨_, _, hRuns, rfl, hFirst.symm, rfl⟩)
        (ih hOthers)

/-- A delivery under such a strategy: what it invoked, one after the other, and how it ended. -/
theorem course_noting_iff (hHost : host.Within .full) {registrations : List Registration}
    {outcome : Except DeliveryError Nat} :
    Course host origin (.noting line verdict) event registrations w outcome w' ↔
      ∃ invocations, Invocation.Chain host origin line event invocations w w' ∧
        (invocations.map Invocation.registration = registrations ∧
            (∀ i ∈ invocations, i.judgement verdict event.kind = .ok ()) ∧
            outcome = .ok registrations.length ∨
          ∃ earlier last after error, invocations = earlier ++ [last] ∧
            registrations =
              earlier.map Invocation.registration ++ last.registration :: after ∧
            (∀ i ∈ earlier, i.judgement verdict event.kind = .ok ()) ∧
            last.judgement verdict event.kind = .error error ∧ outcome = .error error) := by
  constructor
  · intro h
    cases h with
    | complete hTurns =>
      obtain ⟨invocations, hChain, hMap, hPassed⟩ := (turns_noting_iff hHost).mp hTurns
      exact ⟨invocations, hChain, .inl ⟨hMap, hPassed, rfl⟩⟩
    | ended hTurns hTurn =>
      obtain ⟨earlier, hChain, rfl, hPassed⟩ := (turns_noting_iff hHost).mp hTurns
      obtain ⟨last, v, hRuns, rfl, hJudged, rfl⟩ := (turn_noting_iff hHost).mp hTurn
      exact ⟨earlier ++ [last], hChain.append (.cons hRuns (.nil _)),
        .inr ⟨earlier, last, _, _, rfl, rfl, hPassed, hJudged.symm, rfl⟩⟩
  · rintro ⟨invocations, hChain, ⟨hMap, hPassed, rfl⟩ |
      ⟨earlier, last, after, error, rfl, rfl, hPassed, hJudged, rfl⟩⟩
    · exact .complete ((turns_noting_iff hHost).mpr ⟨invocations, hChain, hMap, hPassed⟩)
    · obtain ⟨v, hEarlier, hLast⟩ := hChain.append_inv
      cases hLast with
      | cons hRuns hNil =>
        cases hNil
        exact .ended ((turns_noting_iff hHost).mpr ⟨earlier, hEarlier, rfl, hPassed⟩)
          ((turn_noting_iff hHost).mpr ⟨last, _, hRuns, rfl, hJudged.symm, rfl⟩)

/-- A delivery that ignores failures invokes everyone. -/
theorem course_ignore_iff (hHost : host.Within .full) {registrations : List Registration}
    {outcome : Except DeliveryError Nat} :
    Course host origin .ignore event registrations w outcome w' ↔
      ∃ invocations, Invocation.Chain host origin .listenerIgnored event invocations w w' ∧
        invocations.map Invocation.registration = registrations ∧
        outcome = .ok registrations.length := by
  rw [Strategy.ignore_eq_noting, course_noting_iff hHost]
  constructor
  · rintro ⟨invocations, hChain, ⟨hMap, -, hOutcome⟩ | ⟨_, last, _, _, -, -, -, hJudged, -⟩⟩
    · exact ⟨invocations, hChain, hMap, hOutcome⟩
    · rw [Invocation.judgement_ignore] at hJudged
      cases hJudged
  · rintro ⟨invocations, hChain, hMap, hOutcome⟩
    exact ⟨invocations, hChain,
      .inl ⟨hMap, fun i _ => Invocation.judgement_ignore event.kind i, hOutcome⟩⟩

/-- A delivery that propagates failures invokes everyone, or everyone up to the first that fails,
whose failure it returns. -/
theorem course_propagate_iff (hHost : host.Within .full) {registrations : List Registration}
    {outcome : Except DeliveryError Nat} :
    Course host origin .propagate event registrations w outcome w' ↔
      ∃ invocations, Invocation.Chain host origin .listenerFailed event invocations w w' ∧
        (invocations.map Invocation.registration = registrations ∧
            (∀ i ∈ invocations, i.answer = .ok ()) ∧ outcome = .ok registrations.length ∨
          ∃ earlier last after cause, invocations = earlier ++ [last] ∧
            registrations =
              earlier.map Invocation.registration ++ last.registration :: after ∧
            (∀ i ∈ earlier, i.answer = .ok ()) ∧ last.answer = .error cause ∧
            outcome = .error (.listenerFailed last.registration.name event.kind cause)) := by
  rw [Strategy.propagate_eq_noting, course_noting_iff hHost]
  simp only [Invocation.judgement_propagate_eq_ok_iff, Invocation.judgement_propagate_eq_error_iff]
  constructor
  · rintro ⟨invocations, hChain, hAll |
      ⟨earlier, last, after, _, hSplit, hMap, hPassed, ⟨cause, hFailed, rfl⟩, hOutcome⟩⟩
    · exact ⟨invocations, hChain, .inl hAll⟩
    · exact ⟨invocations, hChain,
        .inr ⟨earlier, last, after, cause, hSplit, hMap, hPassed, hFailed, hOutcome⟩⟩
  · rintro ⟨invocations, hChain, hAll |
      ⟨earlier, last, after, cause, hSplit, hMap, hPassed, hFailed, hOutcome⟩⟩
    · exact ⟨invocations, hChain, .inl hAll⟩
    · exact ⟨invocations, hChain,
        .inr ⟨earlier, last, after, _, hSplit, hMap, hPassed, ⟨cause, hFailed, rfl⟩, hOutcome⟩⟩

/-- A broadcast invokes what matches in turn, whatever the listeners do and whatever the strategy
is, up to the first failure that the strategy turns into an error, and comes back with that error
or the number of the invoked; it does not come back exactly if a turn does not. Under the two
strategies of the library the journal gets one line before each invocation and one behind each
that failed. -/
theorem broadcast_course (directory : Directory σ) (depth : Nat) (origin : Origin)
    (multicaster : Multicaster) (event : Event) (w : World σ) :
    (∀ strategy outcome w',
      (ofDepth directory depth).broadcast origin strategy multicaster event w =
          some (outcome, w') ↔
        Course (ofDepth directory depth) origin strategy event (multicaster.matching event.kind)
          (w.note (multicaster.opening origin event)) outcome w') ∧
    (∀ strategy,
      (ofDepth directory depth).broadcast origin strategy multicaster event w = none ↔
        ∃ before r after v, multicaster.matching event.kind = before ++ r :: after ∧
          Turns (ofDepth directory depth) origin strategy event before
            (w.note (multicaster.opening origin event)) v ∧
          Halts (ofDepth directory depth) origin strategy event r v) ∧
    (∀ outcome w',
      (ofDepth directory depth).broadcast origin .ignore multicaster event w =
          some (outcome, w') ↔
        ∃ invocations, Invocation.Chain (ofDepth directory depth) origin .listenerIgnored event
            invocations (w.note (multicaster.opening origin event)) w' ∧
          w'.journal = w.journal ++ multicaster.opening origin event ::
            invocations.flatMap (Invocation.entries origin .listenerIgnored event.kind) ∧
          invocations.map Invocation.registration = multicaster.matching event.kind ∧
          outcome = .ok (multicaster.matching event.kind).length) ∧
    ∀ outcome w',
      (ofDepth directory depth).broadcast origin .propagate multicaster event w =
          some (outcome, w') ↔
        ∃ invocations, Invocation.Chain (ofDepth directory depth) origin .listenerFailed event
            invocations (w.note (multicaster.opening origin event)) w' ∧
          w'.journal = w.journal ++ multicaster.opening origin event ::
            invocations.flatMap (Invocation.entries origin .listenerFailed event.kind) ∧
          (invocations.map Invocation.registration = multicaster.matching event.kind ∧
              (∀ i ∈ invocations, i.answer = .ok ()) ∧
              outcome = .ok (multicaster.matching event.kind).length ∨
            ∃ earlier last after cause, invocations = earlier ++ [last] ∧
              multicaster.matching event.kind =
                earlier.map Invocation.registration ++ last.registration :: after ∧
              (∀ i ∈ earlier, i.answer = .ok ()) ∧ last.answer = .error cause ∧
              outcome = .error (.listenerFailed last.registration.name event.kind cause)) := by
  have hHost := ofDepth_within directory.within_full depth
  refine ⟨?_, ?_, ?_, ?_⟩
  · intro strategy outcome w'
    rw [broadcast_apply, invokeAll_eq_some_iff]
  · intro strategy
    rw [broadcast_apply, invokeAll_eq_none_iff]
  · intro outcome w'
    rw [broadcast_apply, invokeAll_eq_some_iff, course_ignore_iff hHost]
    exact exists_congr fun _ => and_congr_right fun hChain => (and_iff_right hChain.told).symm
  · intro outcome w'
    rw [broadcast_apply, invokeAll_eq_some_iff, course_propagate_iff hHost]
    exact exists_congr fun _ => and_congr_right fun hChain => (and_iff_right hChain.told).symm

/-- Listeners of which all but the first fail. -/
def halfhearted : Directory Unit :=
  { (default : Directory Unit) with
    listener := fun id =>
      { (default : Listener Unit) with
        onEvent := fun _ => .done (if id.index = 0 then .ok () else .error (.plain "boom")) } }

/-- A multicaster that invokes one that does not fail first, and then two that do. -/
def threefold : Multicaster :=
  ⟨[⟨⟨1⟩, "grim", .all, 1⟩, ⟨⟨2⟩, "sour", .all, 2⟩, ⟨⟨0⟩, "calm", .all, 0⟩]⟩

def heard : Event :=
  .context ⟨.refreshed, "context"⟩

/-- Two warnings if failures are ignored, and otherwise one error and one registration without a
turn. -/
theorem broadcast_course_halfhearted :
    (∃ w', (ofDepth halfhearted 1).broadcast .other .ignore threefold heard default =
      some (.ok 3, w') ∧ w'.journal.length = 6) ∧
    ∃ w', (ofDepth halfhearted 1).broadcast .other .propagate threefold heard default =
      some (.error (.listenerFailed "grim" heard.kind (.plain "boom")), w') ∧
        w'.journal.length = 4 := by
  obtain ⟨hCourse, -, -, hPropagate⟩ :=
    broadcast_course halfhearted 1 .other threefold heard default
  constructor
  · exact ⟨_, (hCourse _ _ _).mpr (.complete (.cons (.handled rfl)
      (.cons (.judged rfl rfl) (.cons (.judged rfl rfl) (.nil _))))), rfl⟩
  · refine ⟨_, (hPropagate _ _).mpr ⟨[⟨⟨⟨0⟩, "calm", .all, 0⟩, [], .ok ()⟩,
      ⟨⟨⟨1⟩, "grim", .all, 1⟩, [], .error (.plain "boom")⟩], .cons ⟨rfl, rfl⟩
        (.cons ⟨rfl, rfl⟩ (.nil _)), rfl, .inr ?_⟩, rfl⟩
    refine ⟨[⟨⟨⟨0⟩, "calm", .all, 0⟩, [], .ok ()⟩], _, [⟨⟨2⟩, "sour", .all, 2⟩], _, rfl, rfl, ?_,
      rfl, rfl⟩
    intro i hi
    obtain rfl := List.mem_singleton.mp hi
    rfl

end Host

end Startup
