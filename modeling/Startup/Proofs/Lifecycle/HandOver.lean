import Startup.Lifecycle.Publisher
import Startup.Proofs.Context.Nesting
import Startup.Proofs.Effect.Enlisting

/-!
# Listeners on the move

The listeners of an application are registered with its publisher first, and with its context
when they are handed over. Once a context holds a listener it never loses it, and what a publisher
takes over from a context comes after what it had.
-/

namespace Startup

variable {σ : Type} {scope : Scope} {host : Host σ} {w w' : World σ} {id : ContextId}

namespace World

def Holds (w : World σ) (id : ContextId) (listener : ListenerId) : Prop :=
  ∃ context, w.context? id = some context ∧ listener ∈ context.multicaster.listeners

theorem Path.holds (h : Path scope w w') {listener : ListenerId} (hHolds : w.Holds id listener) :
    w'.Holds id listener := by
  obtain ⟨context, hContext, hListener⟩ := hHolds
  obtain ⟨after, hAfter, hKeeps⟩ := h.keeps hContext
  exact ⟨after, hAfter, (hKeeps.registrations.map Registration.listener).subset hListener⟩

end World

theorem ContextId.subscribe_holds {listener : ListenerId} {context : Context}
    (hContext : w.context? id = some context)
    (h : id.subscribe host listener w = some ((), w')) : w'.Holds id listener := by
  obtain ⟨r, w₁, hEnlist, hModify⟩ := Act.bind_inv h
  have hPath : World.Path Scope.full w w₁ := Host.enlist_within host listener hEnlist
  obtain ⟨between, hBetween, -⟩ := hPath.keeps hContext
  rw [Act.modifyContext_apply] at hModify
  cases hModify
  refine ⟨_, (World.context?_modifyContext ..).trans (by rw [if_pos rfl, hBetween]; rfl), ?_⟩
  change listener ∈ (between.multicaster.registrations ++ [r]).map Registration.listener
  rw [List.map_append, ← (Host.enlist_inv hEnlist).1.listener_eq]
  exact List.mem_append_right _ (List.mem_singleton_self _)

namespace Multicaster

/-- The listeners that are not registered, each once, as they first occur. -/
def newcomers (m : Multicaster) (ids : List ListenerId) : List ListenerId :=
  (ids.filter fun id => !m.contains id).eraseDups

theorem newcomers_cons_of_contains {m : Multicaster} {id : ListenerId} (h : m.contains id = true)
    (ids : List ListenerId) : m.newcomers (id :: ids) = m.newcomers ids := by
  rw [newcomers, List.filter_cons_of_neg (by simp [h]), newcomers]

theorem contains_register (m : Multicaster) (r : Registration) (id : ListenerId) :
    (m.register r).contains id = (m.contains id || r.listener == id) := by
  simp [contains, register]

theorem newcomers_cons_of_not_contains {m : Multicaster} {r : Registration}
    (h : m.contains r.listener = false) (ids : List ListenerId) :
    m.newcomers (r.listener :: ids) = r.listener :: (m.register r).newcomers ids := by
  rw [newcomers, List.filter_cons_of_pos (by simp [h]), List.eraseDups_cons, List.filter_filter,
    newcomers]
  congr 3
  funext id
  rw [contains_register, Bool.not_or, Bool.and_comm, Bool.beq_comm]

end Multicaster

namespace Publisher

theorem create_within (host : Host σ) (application : Application σ) (arguments : List String) :
    (create host application arguments).Within scope :=
  (Host.enlistAll_within host _ _).bind fun _ => Act.within_pure _

theorem create_inv {application : Application σ} {arguments : List String} {p : Publisher σ}
    (h : create host application arguments w = some (p, w')) :
    p.application = application ∧ p.last = none ∧ ∀ listener ∈ application.listeners,
      ∃ r ∈ p.multicaster.registrations, r.listener = listener ∧ .registered r ∈ w'.since w := by
  obtain ⟨multicaster, w₁, hEnlist, hPure⟩ := Act.bind_inv h
  cases hPure
  obtain ⟨fresh, rfl, hFresh, hTold⟩ := Host.enlistAll_inv hEnlist
  refine ⟨rfl, rfl, ?_⟩
  intro listener hMem
  rw [← Host.Captures.map_listener hFresh] at hMem
  obtain ⟨r, hRegistration, rfl⟩ := List.mem_map.mp hMem
  exact ⟨r, List.mem_append_right _ hRegistration, rfl, hTold r hRegistration⟩

def supply (host : Host σ) (context : ContextRef) (listener : ListenerId) : Act σ Unit := do
  match (host.listener listener).onContext with
  | some supply =>
    Act.write (.supplyingContext (← context.identity host) listener (host.listener listener).name)
    host.perform (supply context)
  | none => pure ()

theorem handOver_cons (host : Host σ) (context : ContextRef) (listener : ListenerId)
    (rest : List ListenerId) :
    handOver host context (listener :: rest) =
      supply host context listener >>= fun _ => context.subscribe host listener >>= fun _ =>
        handOver host context rest := by
  rw [handOver, supply]
  cases (host.listener listener).onContext with
  | none => rw [pure_bind]
  | some _ => simp only [bind_assoc]

theorem supply_within (hHost : host.Within scope) (context : ContextRef) (listener : ListenerId) :
    (supply host context listener).Within scope := by
  rw [supply]
  cases hSupply : (host.listener listener).onContext with
  | none => exact Act.within_pure ()
  | some program =>
    refine (context.identity_within host).bind fun _ => ?_
    refine (Act.within_write (scope.routine _ rfl) rfl).bind fun _ => ?_
    exact hHost.perform _ (hHost.directory.onContext listener program hSupply context)

theorem handOver_within (hHost : host.Within scope) (context : ContextRef)
    (listeners : List ListenerId) : (handOver host context listeners).Within scope := by
  induction listeners with
  | nil => exact Act.within_pure ()
  | cons listener rest ih =>
    rw [handOver_cons]
    refine (supply_within hHost context listener).bind fun _ => ?_
    exact (context.subscribe_within hHost listener).bind fun _ => ih

theorem handOver_holds (hHost : host.Within scope) {listeners : List ListenerId}
    {context : Context} (hContext : w.context? id = some context)
    (h : handOver host (.managed id) listeners w = some ((), w')) :
    ∀ listener ∈ listeners, w'.Holds id listener := by
  induction listeners generalizing w context with
  | nil => exact nofun
  | cons first rest ih =>
    rw [handOver_cons] at h
    obtain ⟨_, w₁, hSupply, hRest⟩ := Act.bind_inv h
    obtain ⟨_, w₂, hSubscribe, hLast⟩ := Act.bind_inv hRest
    obtain ⟨told, hTold, -⟩ := (supply_within hHost _ first hSupply).keeps hContext
    have hHolds : w₂.Holds id first := ContextId.subscribe_holds hTold hSubscribe
    have ⟨between, hBetween, _⟩ := hHolds
    intro listener hListener
    rcases List.mem_cons.mp hListener with rfl | hListener
    · exact World.Path.holds (handOver_within hHost _ rest hLast) hHolds
    · exact ih hBetween hLast listener hListener

/-- Copying listeners one by one, against the collection that grows with them, enlists the
newcomers. -/
theorem copyListeners_eq (host : Host σ) (ids : List ListenerId) (multicaster : Multicaster)
    (copied : Nat) :
    copyListeners host ids multicaster copied = (do
      let joined ← host.enlistAll multicaster (multicaster.newcomers ids)
      return (joined, copied + (multicaster.newcomers ids).length)) := by
  induction ids generalizing multicaster copied with
  | nil => rfl
  | cons id ids ih =>
    rw [copyListeners]
    split
    · rename_i hContains
      rw [ih, Multicaster.newcomers_cons_of_contains hContains]
    · rename_i hContains
      -- what is registered now is no newcomer to the rest, since it stands in the collection
      funext w
      obtain ⟨r, w₁, hEnlist⟩ : ∃ r w₁, host.enlist id w = some (r, w₁) := ⟨_, _, rfl⟩
      obtain rfl := (Host.enlist_inv hEnlist).1.listener_eq
      rw [Multicaster.newcomers_cons_of_not_contains (Bool.eq_false_iff.mpr hContains),
        Host.enlistAll, bind_assoc, Act.bind_apply hEnlist, Act.bind_apply hEnlist, ih,
        List.length_cons, Nat.add_assoc, Nat.add_comm 1]

theorem copyListeners_within (host : Host σ) (ids : List ListenerId) (multicaster : Multicaster)
    (copied : Nat) : (copyListeners host ids multicaster copied).Within scope := by
  rw [copyListeners_eq]
  exact (Host.enlistAll_within host _ multicaster).bind fun _ => Act.within_pure _

theorem copyListeners_keeps {ids : List ListenerId} {multicaster after : Multicaster}
    {copied count : Nat}
    (h : copyListeners host ids multicaster copied w = some ((after, count), w')) :
    multicaster.registrations <+: after.registrations := by
  rw [copyListeners_eq] at h
  obtain ⟨joined, w₁, hEnlist, hPure⟩ := Act.bind_inv h
  cases hPure
  obtain ⟨fresh, rfl, -⟩ := Host.enlistAll_inv hEnlist
  exact List.prefix_append _ _

theorem joinContext_within (host : Host σ) (context : ContextRef) (multicaster : Multicaster) :
    (joinContext host context multicaster).Within scope := by
  refine (context.listeners_within host).bind fun listeners => ?_
  cases listeners with
  | none =>
    refine (context.identity_within host).bind fun _ => ?_
    exact (Act.within_write (scope.routine _ rfl) rfl).bind fun _ => Act.within_pure _
  | some ids =>
    refine (copyListeners_within host ids multicaster 0).bind fun _ => ?_
    refine (context.identity_within host).bind fun _ => ?_
    exact (Act.within_write (scope.routine _ rfl) rfl).bind fun _ => Act.within_pure _

theorem joinContext_keeps {context : ContextRef} {multicaster after : Multicaster}
    (h : joinContext host context multicaster w = some (after, w')) :
    multicaster.registrations <+: after.registrations := by
  obtain ⟨listeners, w₁, -, hRest⟩ := Act.bind_inv h
  cases listeners with
  | none =>
    obtain ⟨_, _, -, hWrite⟩ := Act.bind_inv hRest
    obtain ⟨_, _, -, hPure⟩ := Act.bind_inv hWrite
    cases hPure
    exact List.prefix_rfl
  | some ids =>
    obtain ⟨⟨joined, count⟩, w₂, hCopy, hTail⟩ := Act.bind_inv hRest
    obtain ⟨_, _, -, hWrite⟩ := Act.bind_inv hTail
    obtain ⟨_, _, -, hPure⟩ := Act.bind_inv hWrite
    cases hPure
    exact copyListeners_keeps hCopy

end Publisher

end Startup
