import Mathlib.Data.List.Nodup
import Startup.Proofs.Property.Segments
import Startup.Proofs.Property.Tree

/-!
# Texts put into a tree in any order

A tree that was made by insertions has a leaf below each of its groups, so what finds no place in it
leaves it as it was. Some texts find their places just if none of them is in the way of another one
or of a leaf that was there before, which has nothing to do with their order; and in whatever order
they come, the same leaves make the same tree.
-/

namespace Startup.PropertyTree

variable {tree : PropertyTree} {children : List (String × PropertyTree)} {path : List String}
  {entries others : List (String × String)} {text : String}

/-- What insertions make of nothing, those that find no place among them. -/
inductive Grown : PropertyTree → Prop
  | empty : Grown empty
  | insert {tree : PropertyTree} (h : Grown tree) (key text : String) :
      Grown (tree.insertKey key text).1

theorem Grown.exists_sound (h : Grown tree) :
    ∃ children, tree = group children ∧ Sound (group children) := by
  induction h with
  | empty => exact ⟨[], rfl, sound_empty⟩
  | insert _ key text ih =>
    obtain ⟨children, rfl, hSound⟩ := ih
    have hInserting := inserting_key hSound key text
    generalize (group children).insertKey key text = result at hInserting
    cases hInserting with
    | placed hPlaced => exact ⟨_, rfl, hPlaced.sound⟩
    | blocked segment _ => exact ⟨children, rfl, hSound⟩

theorem Fits.perm (h : Fits entries tree) (hPerm : entries.Perm others) : Fits others tree where
  free entry hEntry := h.free entry (hPerm.mem_iff.mpr hEntry)
  apart := (hPerm.pairwise_iff fun hApart hCrosses => hApart hCrosses.symm).mp h.apart

theorem overlaid_congr (hPerm : entries.Perm others) :
    Overlaid entries tree path text ↔ Overlaid others tree path text := by
  simp only [Overlaid, hPerm.mem_iff]

/-- Different keys are cut into different segments. -/
theorem definite_of_nodup (hKeys : (entries.map Prod.fst).Nodup) : Definite entries := by
  intro a hA b hB hPath
  rw [List.inj_on_of_nodup_map hKeys hA hB (Text.splitOn_injective hPath)]

theorem extend_of_not_fits (hSound : Sound (group children))
    (hFits : ¬ Fits entries (group children)) :
    ∃ segment, (group children).extend entries = .error (.valueAndGroup segment) := by
  induction entries generalizing children with
  | nil => exact absurd ⟨nofun, .nil⟩ hFits
  | cons entry entries ih =>
    obtain ⟨key, text⟩ := entry
    have hInserting := inserting_key hSound key text
    rw [extend]
    generalize (group children).insertKey key text = result at hInserting
    cases hInserting with
    | blocked segment hBlocked => exact ⟨segment, rfl⟩
    | placed hPlaced => exact ih hPlaced.sound (mt hPlaced.fits_cons_iff.mpr hFits)

/-- A text finds its place in a tree that was made by insertions, or a leaf on its way or behind it
is named as the conflict and the tree stays as it was. Texts under different keys find their places
in one order just if they do in any other, and make the same tree then. -/
theorem insert_confluent (hTree : Grown tree) :
    (∀ key text after, tree.insertKey key text = (after, none) →
      Placed (Text.splitOn '.' key) text tree after) ∧
    (∀ key text after conflict, tree.insertKey key text = (after, some conflict) →
      Blocked (Text.splitOn '.' key) tree ∧ after = tree ∧
        ∃ segment, conflict = .valueAndGroup segment) ∧
    ∀ entries others, (entries.map Prod.fst).Nodup → entries.Perm others →
      (Fits entries tree → ∃ grown, tree.extend entries = .ok grown ∧
        tree.extend others = .ok grown) ∧
      (¬ Fits entries tree → ∃ segment another,
        tree.extend entries = .error (.valueAndGroup segment) ∧
          tree.extend others = .error (.valueAndGroup another)) := by
  obtain ⟨children, rfl, hSound⟩ := hTree.exists_sound
  refine ⟨fun key text after h => ?_, fun key text after conflict h => ?_,
    fun entries others hKeys hPerm => ⟨fun hFits => ?_, fun hFits => ?_⟩⟩
  · have hInserting := inserting_key hSound key text
    rw [h] at hInserting
    cases hInserting with
    | placed hPlaced => exact hPlaced
  · have hInserting := inserting_key hSound key text
    rw [h] at hInserting
    cases hInserting with
    | blocked segment hBlocked => exact ⟨hBlocked, rfl, segment, rfl⟩
  · obtain ⟨grown, hExtend, hGrown, hLeaves⟩ := extend_of_fits hSound hFits
    obtain ⟨again, hAgain, hSame, hAlike⟩ := extend_of_fits hSound (hFits.perm hPerm)
    have hOthers : (others.map Prod.fst).Nodup := (hPerm.map Prod.fst).nodup_iff.mp hKeys
    have hEqual : group again = group grown := by
      apply hSame.ext hGrown
      intro path
      apply Option.ext
      intro text
      rw [hLeaves (definite_of_nodup hKeys), hAlike (definite_of_nodup hOthers),
        overlaid_congr hPerm]
    exact ⟨group grown, hExtend, hEqual ▸ hAgain⟩
  · obtain ⟨segment, hExtend⟩ := extend_of_not_fits hSound hFits
    obtain ⟨another, hAnother⟩ := extend_of_not_fits hSound fun hOther =>
      hFits (hOther.perm hPerm.symm)
    exact ⟨segment, another, hExtend, hAnother⟩

/-- A tree in which `tls` found no place behind `tls.enabled`. -/
def crossedTree : PropertyTree :=
  (((empty.insertKey "tls.enabled" "true").1.insertKey "" "none").1.insertKey "tls" "on").1

theorem insert_confluent_crossed :
    Grown crossedTree ∧
      crossedTree.insertKey "tls.enabled.by" "ca" = (crossedTree, some (.valueAndGroup "enabled")) ∧
      Blocked ["tls", "enabled", "by"] crossedTree ∧
      (∃ grown, crossedTree.extend [("tls.port", "1"), ("tls.enabled", "off")] = .ok grown ∧
        crossedTree.extend [("tls.enabled", "off"), ("tls.port", "1")] = .ok grown) ∧
      ∃ segment another,
        crossedTree.extend [("a", "1"), ("a.b", "2")] = .error (.valueAndGroup segment) ∧
          crossedTree.extend [("a.b", "2"), ("a", "1")] = .error (.valueAndGroup another) := by
  have hTree : Grown crossedTree := ((Grown.empty.insert _ _).insert _ _).insert _ _
  obtain ⟨-, hBlocked, hOrders⟩ := insert_confluent hTree
  have hConflict : crossedTree.insertKey "tls.enabled.by" "ca" =
      (crossedTree, some (.valueAndGroup "enabled")) := rfl
  have hSplit : Text.splitOn '.' "tls.enabled.by" = ["tls", "enabled", "by"] := rfl
  refine ⟨hTree, hConflict, hSplit ▸ (hBlocked _ _ _ _ hConflict).1, ?_, ?_⟩
  · obtain ⟨hSucceeds, hFails⟩ := hOrders [("tls.port", "1"), ("tls.enabled", "off")]
      [("tls.enabled", "off"), ("tls.port", "1")] (by decide) (.swap ..)
    apply hSucceeds
    by_contra hFits
    obtain ⟨segment, _, hExtend, _⟩ := hFails hFits
    have hReturns : (crossedTree.extend [("tls.port", "1"), ("tls.enabled", "off")]).toBool =
        true := rfl
    rw [hExtend] at hReturns
    cases hReturns
  · refine (hOrders _ _ (by decide) (.swap ..)).2 fun hFits => ?_
    have hShort : Text.splitOn '.' "a" = ["a"] := rfl
    have hLong : Text.splitOn '.' "a.b" = ["a", "b"] := rfl
    have hApart := (List.pairwise_cons.mp hFits.apart).1 _ List.mem_cons_self
    rw [hShort, hLong] at hApart
    exact hApart ⟨by decide, .inl (by decide)⟩

end Startup.PropertyTree
