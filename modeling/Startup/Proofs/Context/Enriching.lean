import Startup.Proofs.Effect.Tracing

/-!
# What programs make of a context

A context keeps its identity, its name and its kind for good. Whatever programs run, all that they
do to it besides its state is to add beans and listeners, one behind the other: a listener comes
behind those that were there, and a bean takes the place of the one of its type, if there was one.
-/

namespace Startup

variable {σ : Type} {id : ContextId} {w w' : World σ}

namespace Context

inductive Addition where
  | bean (added : Bean)
  | listener (r : Registration)

namespace Addition

def bean? : Addition → Option Bean
  | .bean added => some added
  | .listener _ => none

def listener? : Addition → Option Registration
  | .bean _ => none
  | .listener r => some r

end Addition

/-- A context with more beans and listeners, whatever its state. The last bean of a type counts, and
one that was there before if none was added. -/
structure Gains (before : Context) (additions : List Addition) (after : Context) : Prop where
  identity : after.identity = before.identity
  displayName : after.displayName = before.displayName
  kind : after.kind = before.kind
  beans : ∀ type, after.beans.find? type =
    ((additions.filterMap Addition.bean?).reverse.find? fun bean => bean.type = type).or
      (before.beans.find? type)
  registrations : after.multicaster.registrations =
    before.multicaster.registrations ++ additions.filterMap Addition.listener?

namespace Gains

theorem nothing {before after : Context} (h : after = { before with state := after.state }) :
    before.Gains [] after := by
  rw [h]
  exact ⟨rfl, rfl, rfl, fun _ => rfl, (List.append_nil _).symm⟩

theorem refl (context : Context) : context.Gains [] context :=
  nothing rfl

theorem trans {a b c : Context} {additions others : List Addition} (h : a.Gains additions b)
    (hNext : b.Gains others c) : a.Gains (additions ++ others) c where
  identity := hNext.identity.trans h.identity
  displayName := hNext.displayName.trans h.displayName
  kind := hNext.kind.trans h.kind
  beans type := by
    rw [hNext.beans, h.beans, List.filterMap_append, List.reverse_append, List.find?_append,
      Option.or_assoc]
  registrations := by
    rw [hNext.registrations, h.registrations, List.filterMap_append, List.append_assoc]

theorem bean (context : Context) (bean : Bean) :
    context.Gains [.bean bean] { context with beans := context.beans.register bean } where
  identity := rfl
  displayName := rfl
  kind := rfl
  beans type := by
    change _ = ([bean].find? _).or _
    rw [Beans.find?_register, List.find?_singleton]
    by_cases hType : type = bean.type
    · simp [hType]
    · simp [hType, Ne.symm hType]
  registrations := (List.append_nil _).symm

theorem listener (context : Context) (r : Registration) :
    context.Gains [.listener r]
      { context with multicaster := context.multicaster.register r } :=
  ⟨rfl, rfl, rfl, fun _ => rfl, rfl⟩

end Gains

end Context

/-- If the context is there, it stays and gains some additions. -/
def World.Enriches (id : ContextId) (w : World σ) (additions : List Context.Addition)
    (w' : World σ) : Prop :=
  ∀ context, w.context? id = some context →
    ∃ after, w'.context? id = some after ∧ context.Gains additions after

namespace World.Enriches

theorem of_contexts (h : w'.contexts = w.contexts) : w.Enriches id [] w' := by
  intro context hContext
  have hSame : w'.context? id = w.context? id :=
    congrArg (fun contexts => contexts[id.index]?) h
  exact ⟨context, hSame.trans hContext, .refl context⟩

/-- What is done to one context is nothing to the others. -/
theorem modifyContext {other : ContextId} {f : Context → Context}
    {additions : List Context.Addition} (hf : ∀ context : Context, context.Gains additions (f context)) :
    w.Enriches id (if id = other then additions else []) (w.modifyContext other f) := by
  intro context hContext
  rw [context?_modifyContext, hContext]
  split
  · exact ⟨f context, rfl, hf context⟩
  · exact ⟨context, rfl, .refl context⟩

theorem ledger (id : ContextId) : Ledger (Enriches (σ := σ) id) where
  refl _ := of_contexts rfl
  note _ _ := of_contexts rfl
  edit := by
    intro w v h
    cases h with
    | note entry => exact ⟨[], of_contexts rfl⟩
    | remember memory => exact ⟨[], of_contexts rfl⟩
    | store properties => exact ⟨[], of_contexts rfl⟩
    | assign store pairs => exact ⟨[], of_contexts rfl⟩
    | state other state => exact ⟨_, modifyContext fun context => .nothing rfl⟩
    | bean other bean => exact ⟨_, modifyContext fun context => .bean context bean⟩
    | listener other r => exact ⟨_, modifyContext fun context => .listener context r⟩
  trans := by
    intro w v w' additions others h hNext context hContext
    obtain ⟨between, hBetween, hGains⟩ := h context hContext
    obtain ⟨after, hAfter, hMore⟩ := hNext between hBetween
    exact ⟨after, hAfter, hGains.trans hMore⟩

end World.Enriches

end Startup
