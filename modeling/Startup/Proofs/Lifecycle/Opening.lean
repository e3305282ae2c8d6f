import Startup.Proofs.Binding.MainSettings
import Startup.Proofs.Effect.Assigning
import Startup.Proofs.Lifecycle.Advancing
import Startup.Proofs.Lifecycle.Plan
import Startup.Proofs.Property.Layers

/-!
# The opening of a run

A run prepares its environment, shows it to its listeners, and binds its settings at the moment the
last of them has returned. What they assigned counts before the layers that the environment was
prepared from. The context is made next, and gets the same environment.
-/

namespace Startup

variable {σ : Type} {host : Host σ} {application : Application σ}
  {system : List (String × String)} {arguments : List String} {w w' : World σ}

/-- Where a prepared environment is announced without an error, all listeners of it were invoked in
turn and none failed. -/
theorem Publisher.announce_environmentPrepared_inv (hHost : host.Within .full)
    {environment : Environment} {p q : Publisher σ}
    (h : p.announce host (.environmentPrepared environment) w = some ((.ok (), q), w')) :
    ∃ invocations,
      Invocation.Chain host .other .listenerFailed (p.event (.environmentPrepared environment))
        invocations ((w.note (.publishing .environmentPrepared p.application.name)).note
          (p.multicaster.opening .other (p.event (.environmentPrepared environment)))) w' ∧
      invocations.map Invocation.registration =
        p.multicaster.matching (.run .environmentPrepared) ∧
      ∀ i ∈ invocations, i.answer = .ok () := by
  generalize hAnswer : (Except.ok (), q) = answer at h
  cases announcing_of_announce h with
  | refused hAdmits => cases hAnswer
  | @delivered outcome multicaster _ hAdmits hDeliver =>
    cases outcome with
    | error error => cases hAnswer
    | ok _ =>
      obtain ⟨delivery, _, hBroadcast, hPure⟩ := Act.bind_inv hDeliver
      cases hPure
      obtain ⟨count, _, hInvoke, hPure⟩ := Act.bind_inv hBroadcast
      rw [Host.broadcast_apply, Host.invokeAll_eq_some_iff,
        Host.course_propagate_iff hHost] at hInvoke
      obtain ⟨invocations, hChain, ⟨hInvoked, hOk, rfl⟩ | ⟨_, _, _, _, -, -, -, -, rfl⟩⟩ := hInvoke
      · cases hPure
        exact ⟨invocations, hChain, hInvoked, hOk⟩
      · cases hPure

namespace Application

/-- What a run is shown of the process environment. -/
def shownSystem (application : Application σ) (system : List (String × String)) :
    Option (List (String × String)) :=
  if application.includesSystem then some system else none

/-- The moments of a run up to its context: the environment is prepared, its listeners have
returned, and the settings are bound. -/
structure Opening (host : Host σ) (application : Application σ) (system : List (String × String))
    (arguments : List String) (w : World σ) where
  publisher : Publisher σ
  started : World σ
  start_eq : application.start host arguments w = some ((.ok (), publisher), started)
  environment : Environment
  prepared : World σ
  prepare_eq : Environment.prepare application.defaults (application.shownSystem system) arguments
    started = some (.ok environment, prepared)
  announcer : Publisher σ
  heard : World σ
  announce_eq : publisher.announce host (.environmentPrepared environment) prepared =
    some ((.ok (), announcer), heard)
  properties : Properties
  store_eq : heard.stores[environment.store.index]? = some properties
  settings : MainSettings
  settings_eq : properties.settings = .ok settings

namespace Opening

variable (o : Opening host application system arguments w)

def id : ContextId :=
  o.heard.next

def made : Context :=
  Stage.madeContext application o.settings o.environment o.heard

def created : World σ :=
  (o.heard.adding o.made).note (.createdContext o.made.kind o.made.identity.full)

/-- The event that tells the listeners of the environment. -/
def event : Event :=
  o.publisher.event (.environmentPrepared o.environment)

/-- The world in which the first listener begins. -/
def announced : World σ :=
  (o.prepared.note (.publishing .environmentPrepared o.publisher.application.name)).note
    (o.publisher.multicaster.opening .other o.event)

/-- What the listeners of the environment did: all of them were invoked, one after the other, none
failed, and each assigned some pairs. -/
structure Hears (visits : List (Invocation × List (String × String))) : Prop where
  traced : Invocation.Traced host .other .listenerFailed o.event
    (World.Assigns o.environment.store) visits o.announced o.heard
  invoked : visits.map (fun visit => visit.1.registration) =
    o.publisher.multicaster.matching (.run .environmentPrepared)
  answered : ∀ visit ∈ visits, visit.1.answer = .ok ()

/-- The layers that the environment was prepared from, over the document that the lower ones show. -/
structure Layers (document : List (String × Json)) (layers : Properties) : Prop where
  shown : Properties.Holds (Properties.shown application.defaults (application.shownSystem system)
    Properties.documentKey) document
  prepared : o.prepared.stores[o.environment.store.index]? = some layers
  layered : ∀ key, Properties.Layered arguments document
    (Properties.shown application.defaults (application.shownSystem system)) key (layers.get? key)

theorem exists_hears (hHost : host.Within .full) (hEdits : host.Edits) :
    ∃ visits, o.Hears visits := by
  obtain ⟨invocations, hChain, hInvoked, hOk⟩ :=
    Publisher.announce_environmentPrepared_inv hHost o.announce_eq
  obtain ⟨visits, rfl, hTraced⟩ :=
    hChain.traced hEdits (World.Assigns.ledger o.environment.store)
  refine ⟨visits, hTraced, List.map_map.symm.trans hInvoked, fun visit hVisit => ?_⟩
  exact hOk _ (List.mem_map_of_mem hVisit)

theorem exists_layers : ∃ document layers, o.Layers document layers := by
  obtain ⟨layers, hPrepare, hStore⟩ := Environment.prepare_ok_inv o.prepare_eq
  obtain ⟨document, hHolds, hLayered⟩ := Properties.layered_of_prepare hPrepare
  exact ⟨document, layers, hHolds, hStore, hLayered⟩

/-- What the listeners assigned comes over the layers. -/
theorem properties_eq {visits : List (Invocation × List (String × String))}
    {document : List (String × Json)} {layers : Properties} (hHears : o.Hears visits)
    (hLayers : o.Layers document layers) :
    o.properties = layers.setAll (visits.flatMap Prod.snd) :=
  Option.some.inj (o.store_eq.symm.trans
    (hHears.traced.total (World.Assigns.ledger o.environment.store) layers hLayers.prepared))

theorem context?_created : o.created.context? o.id = some o.made :=
  o.heard.context?_adding o.made

/-- Before its context a run makes none. -/
theorem id_eq (hHost : host.Within .full) : o.id = w.next := by
  obtain ⟨⟨hUnderway, hNone⟩, -⟩ := start_inv hHost (Scope.full_sends _) o.start_eq
  have hPrepared : o.prepared.contexts.length = o.started.contexts.length := by
    rcases Environment.prepare_inv .full o.prepare_eq with ⟨_, hError, -⟩ | ⟨_, _, _, v, -, hPath, hv⟩
    · cases hError
    · rw [hv]
      exact hPath.length_contexts
  have hHeard := Publisher.length_contexts_announce hHost o.announce_eq
  exact congrArg ContextId.mk ((hHeard.trans hPrepared).trans (hUnderway.unmade hNone))

theorem advances_created (hHost : host.Within .full) : w.Advances o.created := by
  have hStarted := start_advances hHost _ o.start_eq
  have hPrepared := Environment.prepare_advances _ _ _ o.prepare_eq
  have hHeard := Publisher.announce_advances hHost _ _ o.announce_eq
  have hCreated : o.heard.Advances o.created := (World.Advances.adding _ _).trans (.note _ rfl)
  exact ((hStarted.trans hPrepared).trans hHeard).trans hCreated

/-- What an opening comes to for its run. The context is made when the listeners have returned, and
is of the kind that the properties name by then. Its environment is the one that the listeners were
told of, so all share one store, which stays: whatever is set through one is read through another. -/
structure Configures (context : Context) (w' : World σ) : Prop where
  made : o.created.context? w.next = some o.made
  kept : o.made.Keeps context
  kind : o.properties.NamesKind application.kind context.kind
  told : ∃ told, o.event = .run told ∧ told.payload = .environmentPrepared o.environment
  bean : o.made.beans.find? .environment = some (.environment o.environment)
  shared : ∀ v held pairs, v.stores[o.environment.store.index]? = some held →
    host.answer (.assign o.environment.store pairs) v =
        some ((), v.assign o.environment.store pairs) ∧
      host.answer (.properties o.environment.store) (v.assign o.environment.store pairs) =
        some (held.setAll pairs, v.assign o.environment.store pairs)
  stays : o.environment.store.index < w'.stores.length

theorem configures (hHost : host.Within .full) {v : World σ} (hAdvances : o.created.Advances v)
    (hContexts : w'.contexts = v.contexts) (hStores : w'.stores = v.stores) {context : Context}
    (hContext : w'.context? w.next = some context) : o.Configures context w' := by
  have hMade : o.created.context? w.next = some o.made := o.id_eq hHost ▸ o.context?_created
  have hSame : v.context? w.next = w'.context? w.next :=
    congrArg (fun contexts => contexts[w.next.index]?) hContexts.symm
  obtain ⟨after, hAfter, hKept⟩ := hAdvances.keeps _ _ hMade
  cases (hSame ▸ hAfter).symm.trans hContext
  refine ⟨hMade, hKept, ?_, ⟨_, rfl, rfl⟩, rfl, ?_, ?_⟩
  · rw [hKept.kind]
    exact (MainSettings.of_settings o.settings_eq application.kind).1
  · intro v held pairs hHeld
    exact host.answer_assigned hHeld pairs
  · obtain ⟨hIndex, -⟩ := List.getElem?_eq_some_iff.mp o.store_eq
    rw [hStores]
    exact Nat.lt_of_lt_of_le hIndex hAdvances.stores

end Opening

/-- A launch that has made a context has come through all moments before. -/
theorem opening_of_launch {publisher : Publisher σ} {started launched : World σ}
    {progress : Progress σ} {outcome : Except RunError (ContextId × MainSettings)}
    (hStart : application.start host arguments w = some ((.ok (), publisher), started))
    (hLaunch : (application.launch host system arguments).run.run ⟨publisher, none⟩ started =
      some ((outcome, progress), launched))
    (hMade : progress.context ≠ none) :
    ∃ (o : Opening host application system arguments w) (rest : Except RunError Unit),
      (application.remainder host o.id).run.run ⟨o.announcer, some o.id⟩ o.created =
        some ((rest, progress), launched) ∧
      outcome = rest.map fun _ => (o.id, o.settings) := by
  -- a stage that fails before the context is made leaves the run without one
  rw [launch_eq_remainder] at hLaunch
  rcases Stage.bind_inv hLaunch with ⟨_, -, hError⟩ | ⟨environment, _, prepared, hFirst, hLaunch⟩
  · obtain ⟨_, -, -, rfl⟩ := Stage.attempt_inv hError
    exact absurd rfl hMade
  obtain ⟨hPrepare, rfl⟩ := Stage.attempt_ok_inv hFirst
  rcases Stage.bind_inv hLaunch with ⟨_, -, hError⟩ | ⟨_, _, heard, hSecond, hLaunch⟩
  · obtain ⟨_, -, rfl⟩ := Stage.announce_inv hError
    exact absurd rfl hMade
  obtain ⟨announcer, hAnnounce, rfl⟩ := Stage.announce_inv hSecond
  rcases Stage.bind_inv hLaunch with ⟨_, -, hError⟩ | ⟨settings, _, _, hThird, hLaunch⟩
  · obtain ⟨_, -, -, rfl⟩ := Stage.attempt_inv hError
    exact absurd rfl hMade
  obtain ⟨hBind, rfl⟩ := Stage.attempt_ok_inv hThird
  obtain ⟨properties, _, hRead, hPure⟩ := Act.bind_inv hBind
  obtain ⟨hStore, rfl⟩ := Act.properties_inv hRead
  obtain ⟨hSettings, rfl⟩ := Act.pure_inv hPure
  have hCreate := Stage.createContext_eq host application settings environment ⟨announcer, none⟩
    heard
  rcases Stage.bind_inv hLaunch with ⟨_, -, hError⟩ | ⟨context, _, _, hFourth, hLaunch⟩
  · cases hCreate.symm.trans hError
  cases hCreate.symm.trans hFourth
  obtain ⟨rest, hRest, hOutcome⟩ := Stage.bind_pure_inv hLaunch
  exact ⟨⟨publisher, started, hStart, environment, prepared, hPrepare, announcer, heard, hAnnounce,
    properties, hStore, settings, hSettings⟩, rest, hRest, hOutcome⟩

end Application

end Startup
