import Startup.Proofs.Context.Enriching
import Startup.Proofs.Context.Quiet

/-!
# A refresh that fails is undone

A refresh activates the context before its listeners run, and takes that back if one of them fails.
What is left of it is only what the listeners that were invoked added to the context. So it may be
tried again, any number of times: in between the context refuses to publish, and closing it
announces nothing; an attempt that no listener fails goes to everyone that the context holds by
then.
-/

namespace Startup

variable {σ : Type} {host : Host σ} {directory : Directory σ} {depth : Nat} {id : ContextId}
  {event : Event} {context : Context} {w w' : World σ}

/-- An invocation on behalf of a context, with what it added to that. -/
abbrev Visit : Type :=
  Invocation × List Context.Addition

namespace Visit

def registration (visit : Visit) : Registration :=
  visit.1.registration

def answer (visit : Visit) : Except Cause Unit :=
  visit.1.answer

/-- Visits one after the other. -/
abbrev Chain (host : Host σ) (id : ContextId) (event : Event) :
    List Visit → World σ → World σ → Prop :=
  Invocation.Traced host (.context id) .listenerFailed event (World.Enriches id)

/-- How visits to registrations end: all were made and none failed, or they end with the first that
did, whose failure is the error. -/
inductive Verdict (kind : EventKind) (registrations : List Registration) :
    List Visit → Except DeliveryError Unit → Prop
  | complete {visits : List Visit} (hInvoked : visits.map registration = registrations)
      (hOk : ∀ visit ∈ visits, visit.answer = .ok ()) :
      Verdict kind registrations visits (.ok ())
  | ended {earlier : List Visit} {last : Visit} {rest : List Registration} {cause : Cause}
      (hInvoked : registrations = earlier.map registration ++ last.registration :: rest)
      (hOk : ∀ visit ∈ earlier, visit.answer = .ok ()) (hFailed : last.answer = .error cause) :
      Verdict kind registrations (earlier ++ [last])
        (.error (.listenerFailed last.registration.name kind cause))

end Visit

namespace Invocation

theorem context?_reported (line : String → EventKind → Cause → Entry) (kind : EventKind)
    (i : Invocation) (w : World σ) (id : ContextId) :
    (i.reported line kind w).context? id = w.context? id := by
  unfold reported
  split <;> rfl

/-- Listeners that leave a context alone leave its state as it is. -/
theorem Chain.stateOf_eq {origin : Origin} {line : String → EventKind → Cause → Entry}
    {invocations : List Invocation} (hHost : host.Within (Scope.full.sparing id))
    (h : Chain host origin line event invocations w w') : w'.stateOf id = w.stateOf id := by
  induction h with
  | nil w => rfl
  | @cons i rest w v w' hRuns _ ih =>
    have hPath := hHost.perform _ (hHost.directory.onEvent _ event) hRuns.answers
    have hSame : v.stateOf id = w.stateOf id := hPath.stateOf_eq fun hGoverns => hGoverns rfl
    rw [ih, World.stateOf, i.context?_reported]
    exact hSame

end Invocation

namespace Visit

theorem registration_invocation (visits : List Visit) :
    (visits.map Prod.fst).map Invocation.registration = visits.map registration :=
  List.map_map

/-- A delivery on behalf of a context makes visits, up to the first that fails. -/
theorem deliver_eq_some_iff (hWithin : host.Within .full) (hEdits : host.Edits)
    {outcome : Except DeliveryError Unit} :
    id.deliver host context event w = some (outcome, w') ↔
      ∃ visits, Chain host id event visits w w' ∧
        Verdict event.kind (context.multicaster.matching event.kind) visits outcome := by
  constructor
  · intro h
    obtain ⟨count, v, hInvoke, hPure⟩ := Act.bind_inv h
    cases hPure
    obtain ⟨invocations, hChain, hEnd⟩ :=
      (Host.course_propagate_iff hWithin).mp (Host.invokeAll_eq_some_iff.mp hInvoke)
    obtain ⟨visits, rfl, hVisits⟩ := hChain.traced hEdits (World.Enriches.ledger id)
    refine ⟨visits, hVisits, ?_⟩
    rcases hEnd with ⟨hInvoked, hOk, rfl⟩ |
      ⟨earlier, last, rest, cause, hSplit, hInvoked, hOk, hFailed, rfl⟩
    · rw [registration_invocation] at hInvoked
      exact .complete hInvoked fun visit hVisit => hOk _ (List.mem_map_of_mem hVisit)
    · obtain ⟨first, final, rfl, rfl, hFinal⟩ := List.map_eq_append_iff.mp hSplit
      obtain ⟨visit, rfl, rfl⟩ := List.map_eq_singleton_iff.mp hFinal
      rw [registration_invocation] at hInvoked
      exact .ended hInvoked (fun visit hVisit => hOk _ (List.mem_map_of_mem hVisit)) hFailed
  · rintro ⟨visits, hVisits, hVerdict⟩
    have hAnswers {visits : List Visit} (hOk : ∀ visit ∈ visits, visit.answer = .ok ()) :
        ∀ i ∈ visits.map Prod.fst, i.answer = .ok () := by
      intro i hi
      obtain ⟨visit, hVisit, rfl⟩ := List.mem_map.mp hi
      exact hOk visit hVisit
    cases hVerdict with
    | complete hInvoked hOk =>
      have hCourse := (Host.course_propagate_iff hWithin).mpr ⟨_, hVisits.chain,
        .inl ⟨(registration_invocation visits).trans hInvoked, hAnswers hOk, rfl⟩⟩
      exact Act.bind_apply (Host.invokeAll_eq_some_iff.mpr hCourse)
    | @ended earlier last rest cause hInvoked hOk hFailed =>
      have hSplit : (earlier ++ [last]).map Prod.fst =
          earlier.map Prod.fst ++ [last.1] := List.map_append
      rw [← registration_invocation] at hInvoked
      have hCourse := (Host.course_propagate_iff hWithin).mpr ⟨_, hVisits.chain,
        .inr ⟨_, _, rest, cause, hSplit, hInvoked, hAnswers hOk, hFailed, rfl⟩⟩
      exact Act.bind_apply (Host.invokeAll_eq_some_iff.mpr hCourse)

end Visit

namespace ContextId

/-- The world in which the listeners of a refresh begin. -/
def activated (id : ContextId) (context : Context) (w : World σ) : World σ :=
  (w.setState id .active).note (id.opening context (refreshedEvent context))

/-- How the refresh of a created context ends, by the visits that it makes to what it held. -/
inductive Attempt (host : Host σ) (id : ContextId) (context : Context) (w : World σ)
    (visits : List Visit) : Except DeliveryError Unit → World σ → Prop
  | succeeded {after : Context} {v : World σ}
      (hChain : Visit.Chain host id (refreshedEvent context) visits (id.activated context w) v)
      (hVerdict : Visit.Verdict (.context .refreshed)
        (context.multicaster.matching (.context .refreshed)) visits (.ok ()))
      (hAfter : v.context? id = some after) :
      Attempt host id context w visits (.ok ())
        (v.note (.refreshed id after.displayName after.beans.size))
  | failed {error : DeliveryError} {v : World σ}
      (hChain : Visit.Chain host id (refreshedEvent context) visits (id.activated context w) v)
      (hVerdict : Visit.Verdict (.context .refreshed)
        (context.multicaster.matching (.context .refreshed)) visits (.error error)) :
      Attempt host id context w visits (.error error)
        ((v.setState id .created).note (.refreshFailed id context.displayName error))

theorem context?_activated (hContext : w.context? id = some context) :
    (id.activated context w).context? id = some { context with state := .active } := by
  rw [activated, World.context?_note, World.setState, World.context?_modifyContext, if_pos rfl,
    hContext, Option.map_some]

theorem publish_activated (hContext : w.context? id = some context) (host : Host σ) :
    id.publish host (refreshedEvent context) (w.setState id .active) =
      id.deliver host context (refreshedEvent context) (id.activated context w) := by
  have hActive : (w.setState id .active).context? id = some { context with state := .active } :=
    context?_activated hContext
  rw [publish_active hActive rfl]
  rfl

theorem Refreshing.refresh_eq {outcome : Except DeliveryError Unit}
    (h : Refreshing host id w outcome w') : id.refresh host w = some (outcome, w') := by
  have hSet : setState id .active w = some ((), w.setState id .active) := rfl
  cases h with
  | rejected hContext hState =>
    rw [refresh, Act.bind_apply (Act.context_apply hContext), if_neg hState]
    rfl
  | failed hContext hState hPublish =>
    rw [refresh, Act.bind_apply (Act.context_apply hContext), if_pos hState, Act.bind_apply hSet]
    exact (Act.bind_apply hPublish).trans rfl
  | succeeded hContext hState hPublish hAfter =>
    rw [refresh, Act.bind_apply (Act.context_apply hContext), if_pos hState, Act.bind_apply hSet]
    exact (Act.bind_apply hPublish).trans (Act.bind_apply (Act.context_apply hAfter))

theorem close_created (hContext : w.context? id = some context)
    (hCreated : context.state = .created) :
    id.close host w =
      some (.ok (), (w.setState id .closed).note (.closed id context.displayName)) := by
  rw [close, Act.bind_apply (Act.context_apply hContext)]
  simp only [hCreated, reduceCtorEq, if_false]
  rfl

/-- A refresh of a created context comes back as an attempt does, and in no other way. -/
theorem refresh_eq_some_iff (hWithin : host.Within .full) (hEdits : host.Edits)
    (hContext : w.context? id = some context) (hCreated : context.state = .created)
    {outcome : Except DeliveryError Unit} :
    id.refresh host w = some (outcome, w') ↔
      ∃ visits, Attempt host id context w visits outcome w' := by
  have hDeliver {result : Except DeliveryError Unit} {v : World σ} :
      id.publish host (refreshedEvent context) (w.setState id .active) = some (result, v) ↔
        ∃ visits,
          Visit.Chain host id (refreshedEvent context) visits (id.activated context w) v ∧
          Visit.Verdict (.context .refreshed) (context.multicaster.matching (.context .refreshed))
            visits result := by
    rw [publish_activated hContext]
    exact Visit.deliver_eq_some_iff hWithin hEdits
  constructor
  · intro h
    cases refreshing_of_refresh h with
    | rejected hHeld hState =>
      cases hContext.symm.trans hHeld
      exact absurd hCreated hState
    | failed hHeld hState hPublish =>
      cases hContext.symm.trans hHeld
      obtain ⟨visits, hChain, hVerdict⟩ := hDeliver.mp hPublish
      exact ⟨visits, .failed hChain hVerdict⟩
    | succeeded hHeld hState hPublish hAfter =>
      cases hContext.symm.trans hHeld
      obtain ⟨visits, hChain, hVerdict⟩ := hDeliver.mp hPublish
      exact ⟨visits, .succeeded hChain hVerdict hAfter⟩
  · rintro ⟨visits, hAttempt⟩
    apply Refreshing.refresh_eq
    cases hAttempt with
    | succeeded hChain hVerdict hAfter =>
      exact .succeeded hContext hCreated (hDeliver.mpr ⟨visits, hChain, hVerdict⟩) hAfter
    | failed hChain hVerdict =>
      exact .failed hContext hCreated (hDeliver.mpr ⟨visits, hChain, hVerdict⟩)

/-- A refresh of a created context does not come back exactly if a listener does not. -/
theorem refresh_eq_none_iff (hEdits : host.Edits) (hContext : w.context? id = some context)
    (hCreated : context.state = .created) :
    id.refresh host w = none ↔ ∃ before r after v,
      context.multicaster.matching (.context .refreshed) = before ++ r :: after ∧
      Host.Turns host (.context id) .propagate (refreshedEvent context) before
        (id.activated context w) v ∧
      Host.Halts host (.context id) .propagate (refreshedEvent context) r v := by
  refine Iff.trans ?_ Host.invokeAll_eq_none_iff
  have hSet : setState id .active w = some ((), w.setState id .active) := rfl
  constructor
  · intro h
    cases hInvoke : host.invokeAll (.context id) .propagate (refreshedEvent context)
      (context.multicaster.matching (.context .refreshed)) 0 (id.activated context w) with
    | none => rfl
    | some result =>
      obtain ⟨count, v⟩ := result
      have hPublish : id.publish host (refreshedEvent context) (w.setState id .active) =
          some (count.map fun _ => (), v) := by
        rw [publish_activated hContext]
        exact Act.bind_apply hInvoke
      cases count with
      | error error =>
        rw [(Refreshing.failed hContext hCreated hPublish).refresh_eq] at h
        cases h
      | ok count =>
        obtain ⟨_, hEnriches⟩ :=
          (World.Enriches.ledger id).edits (publish_edits hEdits id _ hPublish)
        obtain ⟨after, hAfter, -⟩ := hEnriches _ (context?_activated hContext)
        rw [(Refreshing.succeeded hContext hCreated hPublish hAfter).refresh_eq] at h
        cases h
  · intro hInvoke
    have hPublish : id.publish host (refreshedEvent context) (w.setState id .active) = none := by
      rw [publish_activated hContext]
      exact Act.bind_eq_none hInvoke
    rw [refresh, Act.bind_apply (Act.context_apply hContext), if_pos hCreated,
      Act.bind_apply hSet]
    exact Act.bind_eq_none hPublish

namespace Attempt

variable {visits : List Visit} {error : DeliveryError}

theorem error_eq (h : Attempt host id context w visits (.error error) w') :
    ∃ name cause, error = .listenerFailed name (.context .refreshed) cause := by
  cases h with
  | failed _ hVerdict =>
    cases hVerdict
    exact ⟨_, _, rfl⟩

/-- Whatever its listeners did, an attempt that fails leaves a created context, which has gained
what was added on the visits and nothing else. -/
theorem undone (h : Attempt host id context w visits (.error error) w')
    (hContext : w.context? id = some context) :
    ∃ after, w'.context? id = some after ∧ after.state = .created ∧
      context.Gains (visits.flatMap Prod.snd) after := by
  cases h with
  | @failed _ v hChain hVerdict =>
    obtain ⟨after, hAfter, hGains⟩ :=
      hChain.total (World.Enriches.ledger id) _ (context?_activated hContext)
    refine ⟨{ after with state := .created }, ?_, rfl, ?_⟩
    · rw [World.context?_note, World.setState, World.context?_modifyContext, if_pos rfl, hAfter,
        Option.map_some]
    · exact ⟨hGains.identity, hGains.displayName, hGains.kind, hGains.beans, hGains.registrations⟩

theorem activated (h : Attempt host id context w visits (.ok ()) w')
    (hHost : host.Within (Scope.full.sparing id)) (hContext : w.context? id = some context) :
    ∃ after, w'.context? id = some after ∧ after.state = .active ∧
      context.Gains (visits.flatMap Prod.snd) after := by
  cases h with
  | succeeded hChain hVerdict hRead =>
    obtain ⟨after, hAfter, hGains⟩ :=
      hChain.total (World.Enriches.ledger id) _ (context?_activated hContext)
    refine ⟨after, hAfter, ?_, ?_⟩
    · have hState := hChain.chain.stateOf_eq hHost
      rw [stateOf_of_context? hAfter, stateOf_of_context? (context?_activated hContext)] at hState
      exact Option.some.inj hState
    · exact ⟨hGains.identity, hGains.displayName, hGains.kind, hGains.beans, hGains.registrations⟩

end Attempt

/-- Any number of refreshes that fail, and programs in between that leave the context to others. -/
inductive Attempts (host : Host σ) (id : ContextId) :
    List DeliveryError → World σ → World σ → Prop
  | none (w : World σ) : Attempts host id [] w w
  | failed {errors : List DeliveryError} {error : DeliveryError} {w v w' : World σ}
      (hBefore : Attempts host id errors w v) (hRefresh : id.refresh host v = some (.error error, w')) :
      Attempts host id (errors ++ [error]) w w'
  | meanwhile {errors : List DeliveryError} {α : Type} {program : Program σ α} {answer : α}
      {w v w' : World σ} (hBefore : Attempts host id errors w v)
      (hProgram : program.Within (Scope.full.sparing id))
      (hPerform : host.perform program v = some (answer, w')) : Attempts host id errors w w'

/-- After each of them the context is created, and has only gained. -/
theorem Attempts.standing {errors : List DeliveryError} {v : World σ}
    (hSparing : host.Within (Scope.full.sparing id)) (hWithin : host.Within .full)
    (hEdits : host.Edits) (h : Attempts host id errors w v)
    (hContext : w.context? id = some context) (hCreated : context.state = .created) :
    (∀ error ∈ errors, ∃ name cause, error = .listenerFailed name (.context .refreshed) cause) ∧
      ∃ held additions, v.context? id = some held ∧ held.state = .created ∧
        context.Gains additions held := by
  induction h with
  | none w => exact ⟨nofun, context, [], hContext, hCreated, .refl context⟩
  | failed hBefore hRefresh ih =>
    obtain ⟨hErrors, held, additions, hHeld, hState, hGains⟩ := ih hContext
    obtain ⟨visits, hAttempt⟩ := (refresh_eq_some_iff hWithin hEdits hHeld hState).mp hRefresh
    obtain ⟨after, hAfter, hUndone, hMore⟩ := hAttempt.undone hHeld
    refine ⟨?_, after, _, hAfter, hUndone, hGains.trans hMore⟩
    intro error hError
    rcases List.mem_append.mp hError with hOld | hNew
    · exact hErrors error hOld
    · exact List.mem_singleton.mp hNew ▸ hAttempt.error_eq
  | meanwhile hBefore hProgram hPerform ih =>
    obtain ⟨hErrors, held, additions, hHeld, hState, hGains⟩ := ih hContext
    obtain ⟨others, hEnriches⟩ := (World.Enriches.ledger id).edits (hEdits _ hPerform)
    obtain ⟨after, hAfter, hMore⟩ := hEnriches held hHeld
    have hSame := (hSparing.perform _ hProgram hPerform).stateOf_eq fun hGoverns => hGoverns rfl
    rw [stateOf_of_context? hAfter, stateOf_of_context? hHeld, hState] at hSame
    exact ⟨hErrors, after, _, hAfter, Option.some.inj hSame, hGains.trans hMore⟩

/-- As long as listeners leave a context to others, refreshes that fail are undone, whichever
listener fails and however often: each ends with the failure of a listener, and leaves a created
context that has gained what was added meanwhile. It publishes nothing and closes in silence, and
its next refresh visits what it holds by then, to succeed or fail in the same way. -/
theorem failed_refresh_undone {errors : List DeliveryError} {v : World σ}
    (hSparing : directory.Within (Scope.full.sparing id)) (hContext : w.context? id = some context)
    (hCreated : context.state = .created)
    (hAttempts : Attempts (Host.ofDepth directory depth) id errors w v) :
    (∀ error ∈ errors, ∃ name cause, error = .listenerFailed name (.context .refreshed) cause) ∧
    ∃ held additions, v.context? id = some held ∧ held.state = .created ∧
      context.Gains additions held ∧
      (∀ event, id.publish (Host.ofDepth directory depth) event v =
        some (.error (.contextInactive held.identity.full event.kind), v)) ∧
      id.close (Host.ofDepth directory depth) v =
        some (.ok (), (v.setState id .closed).note (.closed id held.displayName)) ∧
      (∀ outcome v', id.refresh (Host.ofDepth directory depth) v = some (outcome, v') ↔
        ∃ visits, Attempt (Host.ofDepth directory depth) id held v visits outcome v') ∧
      (id.refresh (Host.ofDepth directory depth) v = none ↔ ∃ before r after u,
        held.multicaster.matching (.context .refreshed) = before ++ r :: after ∧
        Host.Turns (Host.ofDepth directory depth) (.context id) .propagate (refreshedEvent held)
          before (id.activated held v) u ∧
        Host.Halts (Host.ofDepth directory depth) (.context id) .propagate (refreshedEvent held)
          r u) ∧
      (∀ visits error v', Attempt (Host.ofDepth directory depth) id held v visits (.error error) v' →
        ∃ after, v'.context? id = some after ∧ after.state = .created ∧
          held.Gains (visits.flatMap Prod.snd) after) ∧
      ∀ visits v', Attempt (Host.ofDepth directory depth) id held v visits (.ok ()) v' →
        ∃ after, v'.context? id = some after ∧ after.state = .active ∧
          held.Gains (visits.flatMap Prod.snd) after := by
  have hHost := Host.ofDepth_within hSparing depth
  have hWithin := Host.ofDepth_within directory.within_full depth
  have hEdits : (Host.ofDepth directory depth).Edits := Host.ofDepth_edits directory depth
  obtain ⟨hErrors, held, additions, hHeld, hState, hGains⟩ :=
    hAttempts.standing hHost hWithin hEdits hContext hCreated
  have hInactive : held.state ≠ .active := by
    rw [hState]
    decide
  refine ⟨hErrors, held, additions, hHeld, hState, hGains, ?_, ?_, ?_, ?_, ?_, ?_⟩
  · intro event
    exact publish_inactive hHeld hInactive
  · exact close_created hHeld hState
  · intro outcome v'
    exact refresh_eq_some_iff hWithin hEdits hHeld hState
  · exact refresh_eq_none_iff hEdits hHeld hState
  · intro visits error v' hAttempt
    exact hAttempt.undone hHeld
  · intro visits v' hAttempt
    exact hAttempt.activated hHost hHeld

/-- A listener that fails two refreshes, after it added another listener and a bean each time. -/
def faltering : Directory Nat :=
  { (default : Directory Nat) with
    listener := fun id =>
      { (default : Listener Nat) with
        onEvent := fun event =>
          if id.index = 0 ∧ event.kind = .context .refreshed then
            .ask .memory fun (failures : Nat) =>
              if failures < 2 then
                .ask (.remember (failures + 1)) fun _ =>
                  .ask (.subscribe (.managed ⟨0⟩) ⟨1⟩) fun _ =>
                    .ask (.register (.managed ⟨0⟩) (.bool true)) fun _ =>
                      .done (.error (.plain "boom"))
              else .done (.ok ())
          else .done (.ok ()) } }

theorem faltering_within (scope : Scope) : faltering.Within scope where
  onEvent id event := by
    change Program.Within scope (if _ then _ else _)
    split
    · refine ⟨trivial, fun failures => ?_⟩
      dsimp only
      split
      · exact ⟨trivial, fun _ => ⟨trivial, fun _ => ⟨trivial, fun _ => trivial⟩⟩⟩
      · exact trivial
    · exact trivial
  onContext _ _ hSupply := nomatch hSupply
  publish _ _ := trivial
  subscribe _ _ := trivial

/-- A world with one created context, which holds that listener. -/
def prepared : World Nat :=
  { (default : World Nat) with contexts := [{ Context.new default .standalone with
    multicaster := ⟨[⟨⟨0⟩, "listener", .all, 0⟩]⟩ }] }

/-- The world after one more refresh. -/
def retried (w : World Nat) : World Nat :=
  ((refresh (Host.ofDepth faltering 2) ⟨0⟩ w).map Prod.snd).getD w

/-- The third refresh succeeds, and goes to the listeners that the first two left behind, too. -/
theorem failed_refresh_undone_faltering :
    ∃ errors v v' after, errors.length = 2 ∧
      Attempts (Host.ofDepth faltering 2) ⟨0⟩ errors prepared v ∧
      refresh (Host.ofDepth faltering 2) ⟨0⟩ v = some (.ok (), v') ∧
      v'.context? ⟨0⟩ = some after ∧ after.state = .active ∧
      Entry.calls (v'.since v) =
        [.event (.context ⟨0⟩) ⟨0⟩ (.context .refreshed),
          .event (.context ⟨0⟩) ⟨1⟩ (.context .refreshed),
          .event (.context ⟨0⟩) ⟨1⟩ (.context .refreshed)] := by
  have hHere : prepared.context? ⟨0⟩ = some _ := rfl
  have hFirst : refresh (Host.ofDepth faltering 2) ⟨0⟩ prepared =
      some (.error _, retried prepared) := rfl
  have hSecond : refresh (Host.ofDepth faltering 2) ⟨0⟩ (retried prepared) =
      some (.error _, retried (retried prepared)) := rfl
  have hThird : refresh (Host.ofDepth faltering 2) ⟨0⟩ (retried (retried prepared)) =
      some (.ok (), retried (retried (retried prepared))) := rfl
  have hAttempts := Attempts.failed (.failed (.none prepared) hFirst) hSecond
  obtain ⟨-, held, _, hHeld, -, -, -, -, hRefresh, -, -, hActivated⟩ :=
    failed_refresh_undone (faltering_within _) hHere rfl hAttempts
  obtain ⟨visits, hAttempt⟩ := (hRefresh _ _).mp hThird
  obtain ⟨after, hAfter, hActive, -⟩ := hActivated _ _ hAttempt
  exact ⟨_, _, _, after, rfl, hAttempts, hThird, hAfter, hActive, rfl⟩

end ContextId

end Startup
