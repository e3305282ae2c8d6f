import Startup.Proofs.Lifecycle.Announcing
import Startup.Proofs.Multicaster.Sequence

/-!
# A failure is delivered once

Whatever context a failure is announced with, and whoever provides it, the failure takes exactly
one of two ways: an active context publishes it and nothing else happens, or else everyone known
has a turn, whichever of them fail.
-/

namespace Startup

variable {σ : Type} {host : Host σ} {w w' : World σ}

/-- What a context shows of itself. -/
structure ContextRef.Showing where
  identity : String
  active : Bool
  listeners : Option (List ListenerId)

namespace ContextRef

def showing? (host : Host σ) (w : World σ) : ContextRef → Option Showing
  | managed id => (w.context? id).map fun context =>
    ⟨context.identity.full, context.isActive, some context.multicaster.listeners⟩
  | foreign id =>
    let context := host.directory.foreign id
    some ⟨context.identity w.memory, context.isActive w.memory, context.listeners w.memory⟩

variable {ref : ContextRef} {shown : Showing}

@[simp] theorem showing?_note (w : World σ) (entry : Entry) :
    ref.showing? host (w.note entry) = ref.showing? host w := by
  cases ref <;> rfl

theorem isActive_apply (h : ref.showing? host w = some shown) :
    ref.isActive host w = some (shown.active, w) := by
  cases ref with
  | managed id =>
    obtain ⟨context, hContext, rfl⟩ := Option.map_eq_some_iff.mp h
    rw [isActive, Act.bind_apply (Act.context_apply hContext)]
    rfl
  | foreign id =>
    cases h
    rfl

theorem listeners_apply (h : ref.showing? host w = some shown) :
    ref.listeners host w = some (shown.listeners, w) := by
  cases ref with
  | managed id =>
    obtain ⟨context, hContext, rfl⟩ := Option.map_eq_some_iff.mp h
    rw [listeners, Act.bind_apply (Act.context_apply hContext)]
    rfl
  | foreign id =>
    cases h
    rfl

theorem identity_apply (h : ref.showing? host w = some shown) :
    ref.identity host w = some (shown.identity, w) := by
  cases ref with
  | managed id =>
    obtain ⟨context, hContext, rfl⟩ := Option.map_eq_some_iff.mp h
    rw [identity, Act.bind_apply (Act.context_apply hContext)]
    rfl
  | foreign id =>
    cases h
    rfl

theorem showing?_of_path {scope : Scope} (h : ref.showing? host w = some shown)
    (hPath : World.Path scope w w') : ∃ later, ref.showing? host w' = some later := by
  cases ref with
  | managed id =>
    obtain ⟨context, hContext, -⟩ := Option.map_eq_some_iff.mp h
    obtain ⟨after, hAfter, -⟩ := hPath.keeps hContext
    rw [showing?, hAfter]
    exact ⟨_, rfl⟩
  | foreign id => exact ⟨_, rfl⟩

end ContextRef

namespace Publisher

/-- How a publisher takes over the listeners of a context that is not active: those that it does
not know are registered behind its own. -/
inductive Joins (host : Host σ) (context : Option ContextRef) (multicaster : Multicaster)
    (w : World σ) : List Registration → World σ → Prop
  | alone (hNone : context = none) : Joins host context multicaster w [] w
  | untold {ref : ContextRef} {shown : ContextRef.Showing} (hRef : context = some ref)
      (hShown : ref.showing? host w = some shown) (hListeners : shown.listeners = none) :
      Joins host context multicaster w []
        (w.note (.cannotEnumerate shown.identity multicaster.size))
  | told {ref : ContextRef} {shown later : ContextRef.Showing} {ids : List ListenerId}
      {fresh : List Registration} {v : World σ} (hRef : context = some ref)
      (hShown : ref.showing? host w = some shown) (hListeners : shown.listeners = some ids)
      (hFresh : fresh.map Registration.listener = multicaster.newcomers ids)
      (hEnlist : host.enlistAll multicaster (multicaster.newcomers ids) w =
        some (⟨multicaster.registrations ++ fresh⟩, v))
      (hLater : ref.showing? host v = some later) :
      Joins host context multicaster w fresh
        (v.note (.copiedListeners fresh.length later.identity))

theorem joins_of_showing {ref : ContextRef} {shown : ContextRef.Showing}
    (hShown : ref.showing? host w = some shown) (multicaster : Multicaster) :
    ∃ fresh v, Joins host (some ref) multicaster w fresh v ∧
      joinContext host ref multicaster w = some (⟨multicaster.registrations ++ fresh⟩, v) := by
  cases hListeners : shown.listeners with
  | none =>
    refine ⟨[], _, .untold rfl hShown hListeners, ?_⟩
    rw [joinContext, Act.bind_apply (ContextRef.listeners_apply hShown), hListeners]
    dsimp only
    rw [Act.bind_apply (ContextRef.identity_apply hShown), List.append_nil]
    rfl
  | some ids =>
    obtain ⟨after, v, hEnlist⟩ :=
      host.exists_enlistAll (multicaster.newcomers ids) multicaster w
    obtain ⟨fresh, rfl, hCaptures, -⟩ := Host.enlistAll_inv hEnlist
    have hFresh := Host.Captures.map_listener hCaptures
    have hPath : World.Path Scope.full w v := Host.enlistAll_within host _ _ hEnlist
    obtain ⟨later, hLater⟩ := ContextRef.showing?_of_path hShown hPath
    refine ⟨fresh, _, .told rfl hShown hListeners hFresh hEnlist hLater, ?_⟩
    have hCount : 0 + (multicaster.newcomers ids).length = fresh.length := by
      rw [← hFresh, List.length_map, Nat.zero_add]
    rw [joinContext, Act.bind_apply (ContextRef.listeners_apply hShown), hListeners]
    dsimp only
    rw [copyListeners_eq, hCount, bind_assoc, Act.bind_apply hEnlist, pure_bind]
    rw [Act.bind_apply (ContextRef.identity_apply hLater)]
    rfl

def afterFailure (p : Publisher σ) (multicaster : Multicaster) : Publisher σ :=
  { p with last := some .failed, multicaster := multicaster }

/-- What the delivery of a failure comes down to is what its announcement comes down to. -/
theorem announce_failed {context : Option ContextRef} {cause : Cause} {p : Publisher σ}
    {multicaster : Multicaster} {act : Act σ (Except DeliveryError Unit)} {v : World σ}
    (hLast : p.last ≠ some .failed)
    (hDeliver : deliverFailure host context p.multicaster (p.event (.failed context cause))
        (w.note (.publishing .failed p.application.name)) =
      (do return (← act, multicaster) : Act σ _) v) :
    p.announce host (.failed context cause) w =
      (do return ((← act).mapError .delivery, p.afterFailure multicaster) : Act σ _) v := by
  have hAdmits : admits p.last (RunPayload.failed context cause).phase = true :=
    admits_failed hLast
  rw [announce, if_pos hAdmits]
  change (deliverFailure host context p.multicaster (p.event (.failed context cause))
    (w.note (.publishing .failed p.application.name))).bind _ = (act v).bind _
  rw [hDeliver]
  change ((act v).bind _).bind _ = _
  cases act v <;> rfl

theorem deliverFailure_active {ref : ContextRef} {shown : ContextRef.Showing}
    (hShown : ref.showing? host w = some shown) (hActive : shown.active = true)
    (multicaster : Multicaster) (event : Event) :
    deliverFailure host (some ref) multicaster event w =
      (do return (← ref.publish host event, multicaster) : Act σ _)
        (w.note (.failedThroughContext shown.identity)) := by
  rw [deliverFailure, Act.bind_apply (ContextRef.isActive_apply hShown), if_pos hActive,
    Act.bind_apply (ContextRef.identity_apply hShown)]
  rfl

/-- Without an active context a failure is broadcast to what the publisher knew and what joined. -/
theorem deliverFailure_inactive {context : Option ContextRef}
    (hInactive : ∀ ref, context = some ref →
      ∃ shown, ref.showing? host w = some shown ∧ shown.active = false)
    (multicaster : Multicaster) (event : Event) :
    ∃ fresh v, Joins host context multicaster w fresh v ∧
      deliverFailure host context multicaster event w =
        (do return (← broadcast host .ignore ⟨multicaster.registrations ++ fresh⟩ event,
          ⟨multicaster.registrations ++ fresh⟩) : Act σ _) v := by
  cases context with
  | none =>
    refine ⟨[], w, .alone rfl, ?_⟩
    rw [List.append_nil]
    rfl
  | some ref =>
    obtain ⟨shown, hShown, hActive⟩ := hInactive ref rfl
    obtain ⟨fresh, v, hJoins, hJoin⟩ := joins_of_showing hShown multicaster
    refine ⟨fresh, v, hJoins, ?_⟩
    rw [deliverFailure, Act.bind_apply (ContextRef.isActive_apply hShown), hActive,
      if_neg Bool.false_ne_true, Act.bind_apply hJoin]

theorem broadcast_ignore_iff {multicaster : Multicaster} {event : Event}
    {outcome : Except DeliveryError Unit} :
    broadcast host .ignore multicaster event w = some (outcome, w') ↔
      outcome = .ok () ∧ Host.Turns host .other .ignore event (multicaster.matching event.kind)
        (w.note (.broadcasting .other event.kind (multicaster.matching event.kind).length)) w' := by
  constructor
  · intro h
    obtain ⟨answer, w₁, hBroadcast, hPure⟩ := Act.bind_inv h
    obtain ⟨_, _, hWrite, hInvoke⟩ := Act.bind_inv hBroadcast
    cases Act.write_inv hWrite
    cases hPure
    obtain ⟨count, rfl⟩ := Host.ok_of_ignore hInvoke
    exact ⟨rfl, (Host.invokeAll_ok_iff.mp hInvoke).2⟩
  · rintro ⟨rfl, hTurns⟩
    have hInvoke := Host.invokeAll_ok_iff.mpr ⟨(Nat.zero_add _).symm, hTurns⟩
    have hBroadcast : host.broadcast .other .ignore multicaster event w = some (.ok _, w') :=
      hInvoke
    rw [broadcast, Act.bind_apply hBroadcast]
    rfl

/-- A failure goes through an active context, which publishes it once and gives the answer, or else
to everyone known, each in turn, and then the answer is no error. -/
theorem announce_failed_one_way (host : Host σ) (context : Option ContextRef) (cause : Cause)
    {p : Publisher σ} (w : World σ) (hLast : p.last ≠ some .failed) :
    (∀ ref shown, context = some ref → ref.showing? host w = some shown → shown.active = true →
      p.announce host (.failed context cause) w =
        (do return ((← ref.publish host (p.event (.failed context cause))).mapError .delivery,
          p.afterFailure p.multicaster) : Act σ _)
          ((w.note (.publishing .failed p.application.name)).note
            (.failedThroughContext shown.identity))) ∧
    ((∀ ref, context = some ref →
        ∃ shown, ref.showing? host w = some shown ∧ shown.active = false) →
      ∃ fresh v sequence,
        Joins host context p.multicaster (w.note (.publishing .failed p.application.name)) fresh v ∧
        Multicaster.InSequence ⟨p.multicaster.registrations ++ fresh⟩ (.run .failed) sequence ∧
        (∀ answer w', p.announce host (.failed context cause) w = some (answer, w') ↔
          answer = (.ok (), p.afterFailure ⟨p.multicaster.registrations ++ fresh⟩) ∧
          Host.Turns host .other .ignore (p.event (.failed context cause)) sequence
            (v.note (.broadcasting .other (.run .failed) sequence.length)) w') ∧
        ∀ inv, Host.Answers host (p.event (.failed context cause)) sequence inv → inv v →
          ∃ answer w', p.announce host (.failed context cause) w = some (answer, w')) := by
  constructor
  · rintro ref shown rfl hShown hActive
    rw [← ContextRef.showing?_note w (.publishing .failed p.application.name)] at hShown
    exact announce_failed hLast (deliverFailure_active hShown hActive p.multicaster _)
  · intro hInactive
    obtain ⟨fresh, v, hJoins, hDeliver⟩ := deliverFailure_inactive
      (w := w.note (.publishing .failed p.application.name)) hInactive p.multicaster
      (p.event (.failed context cause))
    have hAnnounce := announce_failed hLast hDeliver
    have hIff (answer w') : p.announce host (.failed context cause) w = some (answer, w') ↔
        answer = (.ok (), p.afterFailure ⟨p.multicaster.registrations ++ fresh⟩) ∧
        Host.Turns host .other .ignore (p.event (.failed context cause))
          (Multicaster.matching ⟨p.multicaster.registrations ++ fresh⟩ (.run .failed))
          (v.note (.broadcasting .other (.run .failed) (Multicaster.matching
            ⟨p.multicaster.registrations ++ fresh⟩ (.run .failed)).length)) w' := by
      rw [hAnnounce]
      constructor
      · intro h
        obtain ⟨outcome, w₁, hBroadcast, hPure⟩ := Act.bind_inv h
        cases hPure
        obtain ⟨rfl, hTurns⟩ := broadcast_ignore_iff.mp hBroadcast
        exact ⟨rfl, hTurns⟩
      · rintro ⟨rfl, hTurns⟩
        rw [Act.bind_apply (broadcast_ignore_iff.mpr ⟨rfl, hTurns⟩)]
        rfl
    refine ⟨fresh, v, _, hJoins, Multicaster.inSequence_matching _ _, hIff, ?_⟩
    intro inv hAnswers hInv
    obtain ⟨w', hTurns⟩ := hAnswers.turns .other (hAnswers.note v _ hInv)
    exact ⟨_, w', (hIff _ w').mpr ⟨rfl, hTurns⟩⟩

/-- A publisher that knows one listener. -/
def early : Publisher Unit :=
  ⟨.plain, [], ⟨[⟨⟨0⟩, "listener", .all, 0⟩]⟩, some .starting⟩

/-- A world with one context, which holds that listener and another one twice. -/
def crowded (state : ContextState) : World Unit :=
  { (default : World Unit) with contexts := [{ Context.new default .standalone with
    multicaster := ⟨[⟨⟨0⟩, "listener", .all, 0⟩, ⟨⟨1⟩, "listener", .all, 0⟩,
      ⟨⟨1⟩, "listener", .all, 0⟩]⟩
    state := state }] }

def boom : Cause :=
  .plain "boom"

theorem announce_failed_crowded :
    (∃ w', early.announce (Host.ofDepth default 1) (.failed (some (.managed ⟨0⟩)) boom)
      (crowded .active) = some ((.ok (), early.afterFailure early.multicaster), w')) ∧
    ∃ fresh w', fresh.map Registration.listener = [⟨1⟩] ∧
      early.announce (Host.ofDepth default 1) (.failed (some (.managed ⟨0⟩)) boom)
        (crowded .created) =
          some ((.ok (), early.afterFailure ⟨early.multicaster.registrations ++ fresh⟩), w') := by
  constructor
  · obtain ⟨hActive, -⟩ := announce_failed_one_way (Host.ofDepth default 1)
      (some (.managed ⟨0⟩)) boom (crowded .active) (p := early) (by decide)
    exact ⟨_, hActive _ _ rfl rfl rfl⟩
  · obtain ⟨-, hInactive⟩ := announce_failed_one_way (Host.ofDepth default 1)
      (some (.managed ⟨0⟩)) boom (crowded .created) (p := early) (by decide)
    obtain ⟨fresh, v, sequence, hJoins, -, hIff, hReturns⟩ := hInactive (by
      rintro _ ⟨⟩
      exact ⟨_, rfl, rfl⟩)
    have hAnswers : Host.Answers (Host.ofDepth default 1)
        (early.event (.failed (some (.managed ⟨0⟩)) boom)) sequence fun _ : World Unit => True :=
      ⟨fun _ _ _ => trivial, fun _ _ w _ => ⟨_, w, rfl, trivial⟩⟩
    obtain ⟨answer, w', hAnnounce⟩ := hReturns _ hAnswers trivial
    obtain ⟨rfl, -⟩ := (hIff answer w').mp hAnnounce
    refine ⟨fresh, w', ?_, hAnnounce⟩
    cases hJoins with
    | alone hNone => cases hNone
    | untold hRef hShown hListeners =>
      cases hRef
      cases hShown
      cases hListeners
    | told hRef hShown hListeners hFresh _ _ =>
      cases hRef
      cases hShown
      cases hListeners
      rw [hFresh]
      decide +kernel

end Publisher

end Startup
