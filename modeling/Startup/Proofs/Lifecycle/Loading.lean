import Startup.Proofs.Lifecycle.Attempts
import Startup.Proofs.Lifecycle.Failing
import Startup.Proofs.Lifecycle.Hearing
import Startup.Proofs.Multicaster.Order

/-!
# The hand-over before a context is loaded

`contextLoaded` first gives the listeners of the application to the context, one after the other,
each told of the context before if it wants to be, and then goes to the publisher's own
registrations. A context delivers to what it was given in the order of that alone, among what it
held already; where listeners declare what they declared to the publisher, this is the order in
which the publisher delivers.
-/

namespace Startup

variable {σ : Type} {host : Host σ} {w w' : World σ}

theorem ContextRef.identity_eq_some_iff {ref : ContextRef} {name : String} :
    ref.identity host w = some (name, w') ↔
      (∃ shown, ref.showing? host w = some shown ∧ shown.identity = name) ∧ w' = w := by
  constructor
  · intro h
    cases hShown : ref.showing? host w with
    | some shown =>
      rw [identity_apply hShown] at h
      cases h
      exact ⟨⟨shown, rfl, rfl⟩, rfl⟩
    | none =>
      cases ref with
      | managed id =>
        obtain ⟨context, v, hRead, -⟩ := Act.bind_inv h
        obtain ⟨hContext, -⟩ := Act.context_inv hRead
        rw [showing?, hContext] at hShown
        cases hShown
      | foreign id => cases hShown
  · rintro ⟨⟨shown, hShown, rfl⟩, rfl⟩
    exact identity_apply hShown

/-- Whether two registrations came of the same declaration. -/
structure Registration.SameTerms (r s : Registration) : Prop where
  filter_eq : r.filter = s.filter
  order_eq : r.order = s.order

namespace Publisher

/-- How a listener that is about to be handed over is told of the context, if it wants to be. -/
inductive Told (host : Host σ) (context : ContextRef) (listener : ListenerId) :
    World σ → World σ → Prop
  | unaware {w : World σ} (hSupply : (host.listener listener).onContext = none) :
      Told host context listener w w
  | aware {supply : ContextRef → Program σ Unit} {shown : ContextRef.Showing} {w w' : World σ}
      (hSupply : (host.listener listener).onContext = some supply)
      (hShown : context.showing? host w = some shown)
      (hPerform : host.perform (supply context)
        (w.note (.supplyingContext shown.identity listener (host.listener listener).name)) =
          some ((), w')) :
      Told host context listener w w'

theorem supply_eq_some_iff {context : ContextRef} {listener : ListenerId} :
    supply host context listener w = some ((), w') ↔ Told host context listener w w' := by
  rw [supply]
  constructor
  · intro h
    cases hSupply : (host.listener listener).onContext with
    | none =>
      rw [hSupply] at h
      cases h
      exact .unaware hSupply
    | some program =>
      rw [hSupply] at h
      obtain ⟨name, v, hIdentity, hRest⟩ := Act.bind_inv h
      obtain ⟨⟨shown, hShown, rfl⟩, rfl⟩ := ContextRef.identity_eq_some_iff.mp hIdentity
      obtain ⟨_, _, hWrite, hPerform⟩ := Act.bind_inv hRest
      cases Act.write_inv hWrite
      exact .aware hSupply hShown hPerform
  · intro h
    cases h with
    | unaware hSupply =>
      rw [hSupply]
      rfl
    | aware hSupply hShown hPerform =>
      rw [hSupply]
      exact (Act.bind_apply (ContextRef.identity_apply hShown)).trans hPerform

/-- One listener handed over: the worlds before, once it was told, and once it was added. -/
structure Handing (σ : Type) where
  listener : ListenerId
  before : World σ
  told : World σ
  added : World σ

/-- Listeners handed over one after the other. -/
inductive HandingOver (host : Host σ) (context : ContextRef) :
    List (Handing σ) → World σ → World σ → Prop
  | nil (w : World σ) : HandingOver host context [] w w
  | cons {handing : Handing σ} {rest : List (Handing σ)} {w' : World σ}
      (hTold : Told host context handing.listener handing.before handing.told)
      (hAdded : context.subscribe host handing.listener handing.told = some ((), handing.added))
      (hRest : HandingOver host context rest handing.added w') :
      HandingOver host context (handing :: rest) handing.before w'

theorem handOver_eq_some_iff {context : ContextRef} {listeners : List ListenerId} :
    handOver host context listeners w = some ((), w') ↔
      ∃ handings, handings.map Handing.listener = listeners ∧
        HandingOver host context handings w w' := by
  constructor
  · intro h
    induction listeners generalizing w with
    | nil =>
      cases h
      exact ⟨[], rfl, .nil _⟩
    | cons listener rest ih =>
      rw [handOver_cons] at h
      obtain ⟨_, u, hSupply, hNext⟩ := Act.bind_inv h
      obtain ⟨_, v, hSubscribe, hLast⟩ := Act.bind_inv hNext
      obtain ⟨handings, rfl, hRest⟩ := ih hLast
      exact ⟨⟨listener, w, u, v⟩ :: handings, rfl,
        .cons (supply_eq_some_iff.mp hSupply) hSubscribe hRest⟩
  · rintro ⟨handings, rfl, h⟩
    induction h with
    | nil w => rfl
    | cons hTold hAdded hRest ih =>
      rw [List.map_cons, handOver_cons, Act.bind_apply (supply_eq_some_iff.mpr hTold),
        Act.bind_apply hAdded, ih]

theorem HandingOver.told {context : ContextRef} {handings : List (Handing σ)}
    (h : HandingOver host context handings w w') :
    ∀ handing ∈ handings, Told host context handing.listener handing.before handing.told := by
  induction h with
  | nil w => exact nofun
  | cons hTold hAdded hRest ih => exact List.forall_mem_cons.mpr ⟨hTold, ih⟩

/-- The registration that comes of a hand-over, with what the listener declares then. -/
def Handing.registration (host : Host σ) (handing : Handing σ) : Registration :=
  host.registrationIn handing.listener handing.told

theorem captures_registration (host : Host σ) (handings : List (Handing σ)) :
    List.Forall₂ host.Captures (handings.map Handing.listener)
      (handings.map (Handing.registration host)) := by
  rw [List.forall₂_map_left_iff, List.forall₂_map_right_iff, List.forall₂_same]
  intro handing _
  exact host.captures_registrationIn handing.listener handing.told

/-- A context holds what it held and behind it one registration for each listener, unless it is
given more while the listeners are told of it. -/
theorem HandingOver.held {id : ContextId} {handings : List (Handing σ)}
    {held : List Registration} (h : HandingOver host (.managed id) handings w w')
    (hHeld : w.multicasterOf id = some ⟨held⟩)
    (hNone : ∀ handing ∈ handings,
      handing.told.multicasterOf id = handing.before.multicasterOf id) :
    w'.multicasterOf id = some ⟨held ++ handings.map (Handing.registration host)⟩ := by
  induction h generalizing held with
  | nil w => rw [hHeld, List.map_nil, List.append_nil]
  | cons hTold hAdded hRest ih =>
    obtain ⟨hFirst, hOthers⟩ := List.forall_mem_cons.mp hNone
    rw [← hFirst] at hHeld
    rw [ih (ContextId.subscribe_registers hHeld hAdded) hOthers, List.append_assoc]
    rfl

/-- What `contextLoaded` does before it is broadcast. -/
structure Loading (host : Host σ) (context : ContextRef) (p : Publisher σ)
    (handings : List (Handing σ)) (w w' : World σ) : Prop where
  listeners_eq : handings.map Handing.listener = p.application.listeners
  handingOver : HandingOver host context handings
    (w.note (.publishing .contextLoaded p.application.name)) w'

variable {attempts : List Attempt} {p : Publisher σ}

theorem announce_contextLoaded_iff {context : ContextRef}
    {answer : Except RunError Unit × Publisher σ} (hLast : p.last = some .contextInitialized) :
    p.announce host (.contextLoaded context) w = some (answer, w') ↔
      ∃ handings v shown outcome, Loading host context p handings w v ∧
        context.showing? host v = some shown ∧
        host.broadcast .other .propagate p.multicaster (p.event (.contextLoaded context))
          (v.note (.handedOver p.application.listeners.length shown.identity)) =
            some (outcome, w') ∧
        answer = ((outcome.map fun _ => ()).mapError .delivery,
          { p with last := some .contextLoaded }) := by
  constructor
  · intro h
    obtain ⟨outcome, p'⟩ := answer
    have hPhase : (RunPayload.contextLoaded context).phase ≠ .failed := nofun
    obtain ⟨rfl, delivery, rfl, hDeliver⟩ := announce_in_turn hLast hPhase h
    obtain ⟨_, v, hHandOver, hNext⟩ := Act.bind_inv hDeliver
    obtain ⟨handings, hListeners, hHanding⟩ := handOver_eq_some_iff.mp hHandOver
    obtain ⟨name, _, hIdentity, hRest⟩ := Act.bind_inv hNext
    obtain ⟨⟨shown, hShown, rfl⟩, rfl⟩ := ContextRef.identity_eq_some_iff.mp hIdentity
    obtain ⟨_, _, hWrite, hLast⟩ := Act.bind_inv hRest
    cases Act.write_inv hWrite
    obtain ⟨_, _, hBroadcast, hPure⟩ := Act.bind_inv hLast
    cases hPure
    obtain ⟨count, _, hInvoked, hCount⟩ := Act.bind_inv hBroadcast
    cases hCount
    exact ⟨handings, _, shown, count, ⟨hListeners, hHanding⟩, hShown, hInvoked, rfl⟩
  · rintro ⟨handings, v, shown, outcome, ⟨hListeners, hHanding⟩, hShown, hBroadcast, rfl⟩
    have hAdmits : admits p.last (RunPayload.contextLoaded context).phase = true := by
      rw [hLast]
      rfl
    have hHandOver := handOver_eq_some_iff.mpr ⟨handings, hListeners, hHanding⟩
    have hDeliver : { p with last := some .contextLoaded }.deliver host
        (p.event (.contextLoaded context)) (.contextLoaded context)
        (w.note (.publishing .contextLoaded p.application.name)) =
          some ((outcome.map fun _ => (), p.multicaster), w') := by
      have hPublic : broadcast host .propagate p.multicaster (p.event (.contextLoaded context))
          (v.note (.handedOver p.application.listeners.length shown.identity)) =
            some (outcome.map fun _ => (), w') := Act.bind_apply hBroadcast
      have hWrite : Act.write (.handedOver p.application.listeners.length shown.identity) v =
        some ((), v.note (.handedOver p.application.listeners.length shown.identity)) := rfl
      rw [deliver, Act.bind_apply hHandOver, Act.bind_apply (ContextRef.identity_apply hShown),
        Act.bind_apply hWrite, Act.bind_apply hPublic]
      rfl
    have hStart : Act.write (.publishing .contextLoaded p.application.name) w =
      some ((), w.note (.publishing .contextLoaded p.application.name)) := rfl
    rw [announce, if_pos hAdmits]
    exact (Act.bind_apply hStart).trans (Act.bind_apply hDeliver)

theorem create_captures {application : Application σ} {arguments : List String}
    (h : create host application arguments w = some (p, w')) :
    List.Forall₂ host.Captures p.application.listeners p.multicaster.registrations := by
  obtain ⟨multicaster, v, hEnlist, hPure⟩ := Act.bind_inv h
  cases hPure
  obtain ⟨fresh, rfl, hFresh, -⟩ := Host.enlistAll_inv hEnlist
  exact hFresh

/-- Until it announces a failure, a publisher knows the listeners of its application, each with
what it declared when the publisher was created, and no others. -/
theorem History.captures (h : History host attempts p) (hLast : p.last ≠ some .failed) :
    List.Forall₂ host.Captures p.application.listeners p.multicaster.registrations := by
  induction h with
  | created hCreate => exact create_captures hCreate
  | called earlier hAnnounce ih =>
    cases announcing_of_announce hAnnounce with
    | refused hAdmits => exact ih hLast
    | delivered hAdmits hDeliver =>
      -- nothing but a failure makes a publisher know more, and nothing is delivered behind one
      have hPhase := fun hFailed => hLast (congrArg some hFailed)
      rw [deliver_multicaster hPhase hDeliver]
      apply ih
      intro hBefore
      rw [admits, if_pos hBefore] at hAdmits
      cases hAdmits

theorem captures_eq_of_sameTerms {ids : List ListenerId} {first second : List Registration}
    (hFirst : List.Forall₂ host.Captures ids first)
    (hSecond : List.Forall₂ host.Captures ids second)
    (hTerms : List.Forall₂ Registration.SameTerms first second) : second = first := by
  induction hFirst generalizing second with
  | nil =>
    cases hSecond
    rfl
  | cons hCaptures _ ih =>
    cases hSecond with
    | cons hAgain hOthers =>
      cases hTerms with
      | cons hSame hRest =>
        obtain ⟨_, rfl⟩ := hCaptures
        obtain ⟨_, rfl⟩ := hAgain
        obtain ⟨hFilter, hOrder⟩ := hSame
        rw [ih hOthers hRest]
        simp only at hFilter hOrder
        rw [hFilter, hOrder]

/-- Before `contextLoaded` is broadcast to the publisher's own registrations, the listeners of the
application are handed over, each told of the context if it wants to be and then added, and nothing
else is done. Whatever the broadcast comes to, a context holds them behind what it held, with what
they declare now, and it delivers to them as if to them alone, merged into the deliveries to the
rest; if they declare what they declared to the publisher, in the publisher's order. -/
theorem contextLoaded_hands_over (directory : Directory σ) (depth : Nat)
    (hHistory : History (Host.ofDepth directory depth) attempts p)
    (hLast : p.last = some .contextInitialized) (context : ContextRef) (w : World σ) :
    (∀ answer w', p.announce (Host.ofDepth directory depth) (.contextLoaded context) w =
        some (answer, w') ↔
      ∃ handings v shown outcome, Loading (Host.ofDepth directory depth) context p handings w v ∧
        context.showing? (Host.ofDepth directory depth) v = some shown ∧
        (Host.ofDepth directory depth).broadcast .other .propagate p.multicaster
          (p.event (.contextLoaded context))
          (v.note (.handedOver p.application.listeners.length shown.identity)) =
            some (outcome, w') ∧
        answer = ((outcome.map fun _ => ()).mapError .delivery,
          { p with last := some .contextLoaded })) ∧
    ∀ id held handings v, context = .managed id → w.multicasterOf id = some ⟨held⟩ →
      Loading (Host.ofDepth directory depth) context p handings w v →
      (∀ handing ∈ handings, handing.told.multicasterOf id = handing.before.multicasterOf id) →
      ∃ handed, handed = handings.map (Handing.registration (Host.ofDepth directory depth)) ∧
        v.multicasterOf id = some ⟨held ++ handed⟩ ∧
        (∀ entry outcome w', (Host.ofDepth directory depth).broadcast .other .propagate
            p.multicaster (p.event (.contextLoaded context)) (v.note entry) =
              some (outcome, w') →
          ∃ more, w'.multicasterOf id = some ⟨held ++ handed ++ more⟩) ∧
        (∀ kind, Multicaster.matching ⟨held ++ handed⟩ kind =
          (Multicaster.matching ⟨held⟩ kind).merge (Multicaster.matching ⟨handed⟩ kind)
            Registration.precedes) ∧
        (List.Forall₂ Registration.SameTerms p.multicaster.registrations handed →
          ∀ kind, Multicaster.matching ⟨handed⟩ kind = p.multicaster.matching kind) := by
  refine ⟨fun _ _ => announce_contextLoaded_iff hLast, ?_⟩
  rintro id held handings v rfl hHeld hLoading hNone
  have hAfter := hLoading.handingOver.held hHeld hNone
  refine ⟨_, rfl, hAfter, ?_, Multicaster.matching_append held _, ?_⟩
  · intro entry outcome w' hBroadcast
    have hHost := Host.ofDepth_within directory.within_full depth
    have hSends : Scope.full.Sends (p.event (.contextLoaded (.managed id))).kind :=
      Scope.full_sends _
    have hPath := Host.broadcast_within hHost hSends (Host.propagate_within hSends.failed)
      p.multicaster hBroadcast
    exact World.Path.held hPath hAfter
  · intro hTerms kind
    have hBootstrap := hHistory.captures (by rw [hLast]; nofun)
    have hHanded := captures_registration (Host.ofDepth directory depth) handings
    rw [hLoading.listeners_eq] at hHanded
    rw [captures_eq_of_sameTerms hBootstrap hHanded hTerms]

def duo : Application σ :=
  Application.plain.addListeners [⟨0⟩, ⟨1⟩]

/-- A publisher of an application with two listeners. -/
def knowing (registrations : List Registration) (last : Option Phase) : Publisher σ :=
  ⟨duo, [], ⟨registrations⟩, last⟩

/-- Announces what comes before `contextLoaded`. -/
def rehearse (host : Host σ) : Act σ (Publisher σ) := do
  let p ← create host duo []
  let (_, p) ← p.announce host .starting
  let (_, p) ← p.announce host (.environmentPrepared default)
  let (_, p) ← p.announce host (.contextInitialized (.managed ⟨0⟩))
  return p

theorem history_of_rehearse (h : rehearse host w = some (p, w')) :
    ∃ attempts, History host attempts p := by
  obtain ⟨_, _, hCreate, hRest⟩ := Act.bind_inv h
  obtain ⟨_, _, hStarting, hRest⟩ := Act.bind_inv hRest
  obtain ⟨_, _, hPrepared, hRest⟩ := Act.bind_inv hRest
  obtain ⟨_, _, hInitialized, hPure⟩ := Act.bind_inv hRest
  cases hPure
  exact ⟨_, .called (.called (.called (.created hCreate) hStarting) hPrepared) hInitialized⟩

/-- A world with one context, which holds some registrations. -/
def furnished (held : List Registration) (memory : σ) : World σ :=
  ⟨[{ Context.new default .standalone with multicaster := ⟨held⟩ }], [], fun _ => default, [],
    memory⟩

/-- Listeners of which a later one comes before an earlier one, and the first wants to be told of
contexts. -/
def curious : Directory Unit :=
  { (default : Directory Unit) with
    listener := fun id =>
      { (default : Listener Unit) with
        declare := fun memory => (⟨.all, -id.index⟩, memory)
        onContext := if id.index = 0 then some fun _ => .done () else none } }

theorem told_curious {context : ContextRef} {listener : ListenerId} {w w' : World Unit}
    (h : Told (Host.ofDepth curious 1) context listener w w') {id : ContextId} :
    w'.multicasterOf id = w.multicasterOf id := by
  cases h with
  | unaware hSupply => rfl
  | aware hSupply hShown hPerform =>
    simp only [Host.listener, Host.directory_ofDepth, curious] at hSupply
    split at hSupply
    · cases hSupply
      cases hPerform
      rfl
    · cases hSupply

def inverted : List Registration :=
  [⟨⟨0⟩, "listener", .all, 0⟩, ⟨⟨1⟩, "listener", .all, -1⟩]

def settled : List Registration :=
  [⟨⟨2⟩, "settled", .all, 0⟩]

/-- Two listeners handed over to a context that holds another one. -/
theorem contextLoaded_hands_over_curious :
    ∃ attempts handings v handed, History (Host.ofDepth curious 1) attempts
        (knowing inverted (some .contextInitialized)) ∧
      Loading (Host.ofDepth curious 1) (.managed ⟨0⟩)
        (knowing inverted (some .contextInitialized)) handings (furnished settled ()) v ∧
      v.multicasterOf ⟨0⟩ = some ⟨settled ++ handed⟩ ∧
      handed.map Registration.listener = [⟨0⟩, ⟨1⟩] ∧
      ∀ kind, (Multicaster.matching ⟨handed⟩ kind).map Registration.listener = [⟨1⟩, ⟨0⟩] := by
  obtain ⟨attempts, hHistory⟩ : ∃ attempts, History (Host.ofDepth curious 1) attempts
      (knowing inverted (some .contextInitialized)) :=
    history_of_rehearse (w := furnished [] ()) rfl
  obtain ⟨hIff, hManaged⟩ :=
    contextLoaded_hands_over curious 1 hHistory rfl (.managed ⟨0⟩) (furnished settled ())
  obtain ⟨handings, v, -, -, hLoading, -⟩ := (hIff _ _).mp rfl
  obtain ⟨handed, rfl, hHeld, -, -, hOrder⟩ := hManaged ⟨0⟩ _ handings v rfl rfl hLoading
    fun handing hMem => told_curious (hLoading.handingOver.told handing hMem)
  have hCaptures := captures_registration (Host.ofDepth curious 1) handings
  rw [hLoading.listeners_eq] at hCaptures
  refine ⟨attempts, handings, v, _, hHistory, hLoading, hHeld,
    Host.Captures.map_listener hCaptures, ?_⟩
  intro kind
  rw [hOrder]
  · rfl
  · generalize handings.map (Handing.registration (Host.ofDepth curious 1)) = handed at hCaptures
    cases hCaptures with
    | cons hFirst hRest =>
      cases hRest with
      | cons hSecond hNil =>
        cases hNil
        obtain ⟨_, rfl⟩ := hFirst
        obtain ⟨_, rfl⟩ := hSecond
        exact .cons ⟨rfl, rfl⟩ (.cons ⟨rfl, rfl⟩ .nil)

/-- Listeners of which the first one declares a higher order than the other one from its second
registration on. -/
def wavering : Directory Nat :=
  { (default : Directory Nat) with
    listener := fun id =>
      { (default : Listener Nat) with
        declare := fun count =>
          if id.index = 0 then (⟨.all, if count = 0 then 0 else 5⟩, count + 1)
          else (⟨.all, 1⟩, count) } }

def steadfast : List Registration :=
  [⟨⟨0⟩, "listener", .all, 0⟩, ⟨⟨1⟩, "listener", .all, 1⟩]

/-- The publisher delivers to the first one first, and an otherwise empty context that both were
handed over to delivers to it last. -/
theorem wavering_swapped :
    (∃ attempts, History (Host.ofDepth wavering 1) attempts
      (knowing steadfast (some .contextInitialized))) ∧
    (∀ listener, (wavering.listener listener).onContext = none) ∧
    (furnished [] 1).multicasterOf ⟨0⟩ = some ⟨[]⟩ ∧
    ∃ w' held, (knowing steadfast (some .contextInitialized)).announce (Host.ofDepth wavering 1)
        (.contextLoaded (.managed ⟨0⟩)) (furnished [] 1) =
          some ((.ok (), knowing steadfast (some .contextLoaded)), w') ∧
      w'.multicasterOf ⟨0⟩ = some held ∧
      ∀ kind, ((Multicaster.mk steadfast).matching kind).map Registration.listener =
          [⟨0⟩, ⟨1⟩] ∧
        (held.matching kind).map Registration.listener = [⟨1⟩, ⟨0⟩] :=
  ⟨history_of_rehearse (w := furnished [] 0) rfl, fun _ => rfl, rfl, _, _, rfl, rfl,
    fun _ => ⟨rfl, rfl⟩⟩

end Publisher

end Startup
