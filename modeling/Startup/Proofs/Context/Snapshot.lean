import Startup.Proofs.Context.Observing
import Startup.Proofs.Effect.Broadcast

/-!
# Deliveries to a snapshot

A publication goes to what the collection of the context held when it was asked. Listeners that
join meanwhile do not hear of it; they stay where they were put, behind all that joined before,
and every publication that starts later goes to them too, also one that is nested in the first.
-/

namespace Startup

variable {σ : Type}

namespace ContextId

/-- A publication through an active context is a delivery to what matches in a collection, at
whatever depth it is asked. -/
def DeliversTo (directory : Directory σ) (id : ContextId) (event : Event) (w : World σ)
    (held : Multicaster) : Prop :=
  ∀ depth outcome w',
    id.publish (Host.ofDepth directory depth) event w = some (outcome, w') ↔
      ∃ count, Host.Course (Host.ofDepth directory depth) (.context id) .propagate event
          (held.matching event.kind) (w.note (held.opening (.context id) event)) count w' ∧
        outcome = count.map fun _ => ()

theorem deliversTo_of_active (directory : Directory σ) {id : ContextId} (event : Event)
    {w : World σ} {context : Context} (hContext : w.context? id = some context)
    (hActive : context.state = .active) : id.DeliversTo directory event w context.multicaster := by
  intro depth outcome w'
  rw [publish_active hContext hActive]
  constructor
  · intro h
    obtain ⟨count, v, hInvoke, hPure⟩ := Act.bind_inv h
    cases hPure
    exact ⟨count, Host.invokeAll_eq_some_iff.mp hInvoke, rfl⟩
  · rintro ⟨count, hCourse, rfl⟩
    exact Act.bind_apply hCourse.invokeAll_eq

variable {directory : Directory σ} {id : ContextId} {event : Event} {w w' : World σ}

theorem deliversTo_of_stateOf {held : Multicaster} (hHeld : w.multicasterOf id = some held)
    (hActive : w.stateOf id = some .active) : id.DeliversTo directory event w held := by
  obtain ⟨context, hContext, rfl⟩ := Option.map_eq_some_iff.mp hHeld
  rw [stateOf_of_context? hContext] at hActive
  exact deliversTo_of_active directory event hContext (Option.some.inj hActive)

theorem published_since {a b : World σ} (hGrown : a.journal <+: b.journal)
    {moments : List (Moment σ)} (h : b.view = a.view.after moments) :
    (b.since a).filter Entry.isPublication = moments.flatMap Moment.announces := by
  have hPublished : b.view.published = a.view.published ++ moments.flatMap Moment.announces := by
    rw [h, View.published_after]
  rw [World.view, World.view, World.journal_eq_append_since hGrown, List.filter_append]
    at hPublished
  exact List.append_cancel_left hPublished

/-- A publication is refused, without any effect, or goes to what matched when it was asked. What
joins during it is held from then on, in the order of time, whether or not the delivery fails, and
every publication that starts later, within this one or after it, goes to that as well. -/
theorem publish_serves_snapshot (directory : Directory σ) (depth : Nat) (event : Event)
    {w : World σ} {id : ContextId} {context : Context} (hContext : w.context? id = some context) :
    (context.state ≠ .active → id.publish (Host.ofDepth directory depth) event w =
      some (.error (.contextInactive context.identity.full event.kind), w)) ∧
    (context.state = .active → id.DeliversTo directory event w context.multicaster) ∧
    (∀ before m after,
      (Observer.ofDepth directory depth).publish id event w = before ++ m :: after →
      m.world.multicasterOf id =
        some ⟨context.multicaster.registrations ++ Moment.joined id before⟩) ∧
    (∀ before nested u after, (Observer.ofDepth directory depth).publish id event w =
        before ++ .publishes id nested u :: after →
      u.stateOf id = some .active → id.DeliversTo directory nested u
        ⟨context.multicaster.registrations ++ Moment.joined id before⟩) ∧
    ∀ outcome w', id.publish (Host.ofDepth directory depth) event w = some (outcome, w') →
      (w'.since w).filter Entry.isPublication =
        ((Observer.ofDepth directory depth).publish id event w).flatMap Moment.announces ∧
      w'.multicasterOf id = some ⟨context.multicaster.registrations ++
        Moment.joined id ((Observer.ofDepth directory depth).publish id event w)⟩ ∧
      ∀ later u, World.Path .full w' u → u.stateOf id = some .active →
        ∃ more, id.DeliversTo directory later u ⟨context.multicaster.registrations ++
          Moment.joined id ((Observer.ofDepth directory depth).publish id event w) ++ more⟩ := by
  have hShows := (Observer.sees_ofDepth directory depth).publish id event
  rw [Observer.host_ofDepth] at hShows
  have hCollections (moments : List (Moment σ)) : (w.view.after moments).collections id =
      some ⟨context.multicaster.registrations ++ Moment.joined id moments⟩ := by
    have hHeld : w.view.collections id = some context.multicaster :=
      multicasterOf_of_context? hContext
    rw [View.collections_after, hHeld, Option.map_some]
  have hMoments {before : List (Moment σ)} {m : Moment σ} {after : List (Moment σ)}
      (hSplit : (Observer.ofDepth directory depth).publish id event w = before ++ m :: after) :
      m.world.multicasterOf id =
        some ⟨context.multicaster.registrations ++ Moment.joined id before⟩ := by
    have hLeads := hShows.leads w
    rw [hSplit] at hLeads
    rw [← hCollections, ← hLeads.world_view]
    rfl
  refine ⟨publish_inactive hContext, deliversTo_of_active directory event hContext, ?_, ?_, ?_⟩
  · intro before m after
    exact hMoments
  · intro before nested u after hSplit hActive
    exact deliversTo_of_stateOf (hMoments hSplit) hActive
  · intro outcome w' hPublish
    have hView := hShows.ends hPublish
    have hHeld : w'.multicasterOf id = some ⟨context.multicaster.registrations ++
        Moment.joined id ((Observer.ofDepth directory depth).publish id event w)⟩ := by
      rw [← hCollections, ← hView]
      rfl
    have hPath : World.Path .full w w' :=
      publish_within (Host.ofDepth_within directory.within_full depth) id
        (Scope.full_sends event.kind) hPublish
    refine ⟨published_since hPath.journal_grows hView, hHeld, ?_⟩
    intro later u hLater hActive
    obtain ⟨more, hMore⟩ := hLater.held hHeld
    exact ⟨more, deliversTo_of_stateOf hMore hActive⟩

/-- A listener that on a refresh adds another one to the context, publishes through it, and then
fails. -/
def recruiting : Directory Unit :=
  { (default : Directory Unit) with
    listener := fun id =>
      { (default : Listener Unit) with
        onEvent := fun event =>
          if id.index = 0 ∧ event.kind = .context .refreshed then
            .ask (.subscribe (.managed ⟨0⟩) ⟨1⟩) fun _ =>
              .ask (.publish (.managed ⟨0⟩) (.context ⟨.closed, "context"⟩)) fun _ =>
                .done (.error (.plain "boom"))
          else .done (.ok ()) } }

/-- A world with one active context, which holds that listener. -/
def staffed : World Unit :=
  { (default : World Unit) with contexts := [{ Context.new default .standalone with
    multicaster := ⟨[⟨⟨0⟩, "listener", .all, 0⟩]⟩
    state := .active }] }

/-- The new listener hears of the nested publication and not of the one that it joined during, and
stays although that fails. -/
theorem publish_serves_snapshot_recruiting :
    ∃ w', publish (Host.ofDepth recruiting 3) ⟨0⟩ (.context ⟨.refreshed, "context"⟩) staffed =
      some (.error (.listenerFailed "listener" (.context .refreshed) (.plain "boom")), w') ∧
      w'.multicasterOf ⟨0⟩ =
        some ⟨[⟨⟨0⟩, "listener", .all, 0⟩, ⟨⟨1⟩, "listener", .all, 0⟩]⟩ ∧
      Entry.calls (w'.since staffed) =
        [.event (.context ⟨0⟩) ⟨0⟩ (.context .refreshed),
          .event (.context ⟨0⟩) ⟨0⟩ (.context .closed),
          .event (.context ⟨0⟩) ⟨1⟩ (.context .closed)] := by
  have hHere : staffed.context? ⟨0⟩ = some _ := rfl
  obtain ⟨-, -, -, -, hEnds⟩ := publish_serves_snapshot recruiting 3
    (.context ⟨.refreshed, "context"⟩) (w := staffed) hHere
  have hPublish : publish (Host.ofDepth recruiting 3) ⟨0⟩ (.context ⟨.refreshed, "context"⟩)
      staffed = some (_, _) := rfl
  obtain ⟨-, hHeld, -⟩ := hEnds _ _ hPublish
  exact ⟨_, hPublish, hHeld, rfl⟩

end ContextId

end Startup
