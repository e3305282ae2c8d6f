import Startup.Proofs.Effect.Tracing

/-!
# What programs assign to a store

Nothing that programs do takes a property out of a store. If a store is there, all that becomes of
it is that pairs are assigned, one row after the other, and the last pair of a key counts.
-/

namespace Startup

variable {σ : Type} {store : StoreId} {w w' : World σ}

/-- If the store is there, it stays and some pairs are assigned to it. -/
def World.Assigns (store : StoreId) (w : World σ) (pairs : List (String × String))
    (w' : World σ) : Prop :=
  ∀ properties, w.stores[store.index]? = some properties →
    w'.stores[store.index]? = some (properties.setAll pairs)

namespace World.Assigns

theorem of_store (h : w'.stores[store.index]? = w.stores[store.index]?) :
    w.Assigns store [] w' := by
  intro properties hStore
  exact h.trans hStore

theorem assign (w : World σ) (store other : StoreId) (pairs : List (String × String)) :
    w.Assigns store (if other.index = store.index then pairs else []) (w.assign other pairs) := by
  intro properties hStore
  change (w.stores.modify other.index _)[store.index]? = _
  rw [List.getElem?_modify, hStore]
  split <;> rfl

theorem ledger (store : StoreId) : Ledger (Assigns (σ := σ) store) where
  refl _ := of_store rfl
  note _ _ := of_store rfl
  edit := by
    intro w v h
    cases h with
    | assign other pairs => exact ⟨_, assign w store other pairs⟩
    | store added =>
      refine ⟨[], fun properties hStore => ?_⟩
      obtain ⟨hIndex, -⟩ := List.getElem?_eq_some_iff.mp hStore
      exact (List.getElem?_append_left hIndex).trans hStore
    | _ => exact ⟨[], of_store rfl⟩
  trans := by
    intro w v w' pairs others h hNext properties hStore
    rw [Properties.setAll_append]
    exact hNext _ (h _ hStore)

end World.Assigns

/-- What is assigned to a store is there for whoever reads the store next. -/
theorem Host.answer_assigned (host : Host σ) {store : StoreId} {held : Properties}
    (hStore : w.stores[store.index]? = some held) (pairs : List (String × String)) :
    host.answer (.assign store pairs) w = some ((), w.assign store pairs) ∧
      host.answer (.properties store) (w.assign store pairs) =
        some (held.setAll pairs, w.assign store pairs) := by
  have hAssigned := World.Assigns.assign w store store pairs held hStore
  rw [if_pos rfl] at hAssigned
  refine ⟨rfl, ?_⟩
  change Act.properties store (w.assign store pairs) = _
  rw [Act.properties_eq, hAssigned, Option.map_some]

end Startup
