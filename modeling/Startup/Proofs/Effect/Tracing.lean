import Startup.Proofs.Effect.Broadcast
import Startup.Proofs.Effect.Edits

/-!
# Invocations with what they changed

Of something that edits only add to, there is a ledger: what is added is a row of items, and the
rows of edits that follow each other add up. A row of invocations is read together with what each of
them added.
-/

namespace Startup

variable {σ α : Type} {host : Host σ} {origin : Origin}
  {line : String → EventKind → Cause → Entry} {event : Event} {w w' : World σ}
  {adds : World σ → List α → World σ → Prop}

/-- Edits add rows of items, which add up; an entry that is written adds none. -/
structure World.Ledger (adds : World σ → List α → World σ → Prop) : Prop where
  refl : ∀ w, adds w [] w
  note : ∀ w entry, adds w [] (w.note entry)
  edit : ∀ {w v}, Edit w v → ∃ items, adds w items v
  trans : ∀ {w v w' items others}, adds w items v → adds v others w' → adds w (items ++ others) w'

theorem World.Ledger.edits (hLedger : Ledger adds) (h : Edits w w') : ∃ items, adds w items w' := by
  induction h with
  | refl => exact ⟨[], hLedger.refl w⟩
  | tail _ hEdit ih =>
    obtain ⟨items, hItems⟩ := ih
    obtain ⟨others, hOthers⟩ := hLedger.edit hEdit
    exact ⟨items ++ others, hLedger.trans hItems hOthers⟩

namespace Invocation

/-- Invocations one after the other, each with what its listener added. -/
inductive Traced (host : Host σ) (origin : Origin) (line : String → EventKind → Cause → Entry)
    (event : Event) (adds : World σ → List α → World σ → Prop) :
    List (Invocation × List α) → World σ → World σ → Prop
  | nil (w : World σ) : Traced host origin line event adds [] w w
  | cons {i : Invocation} {items : List α} {rest : List (Invocation × List α)} {w v w' : World σ}
      (hRuns : i.Runs host origin event w v) (hAdds : adds w items v)
      (hRest : Traced host origin line event adds rest (i.reported line event.kind v) w') :
      Traced host origin line event adds ((i, items) :: rest) w w'

theorem Runs.edits {i : Invocation} (hHost : host.Edits) (h : i.Runs host origin event w w') :
    World.Edits w w' :=
  (hHost _ h.answers).head (.note w _)

theorem Chain.traced {invocations : List Invocation} (hHost : host.Edits)
    (hLedger : World.Ledger adds) (h : Chain host origin line event invocations w w') :
    ∃ traced, traced.map Prod.fst = invocations ∧
      Traced host origin line event adds traced w w' := by
  induction h with
  | nil w => exact ⟨[], rfl, .nil w⟩
  | cons hRuns _ ih =>
    obtain ⟨items, hItems⟩ := hLedger.edits (hRuns.edits hHost)
    obtain ⟨rest, rfl, hRest⟩ := ih
    exact ⟨(_, items) :: rest, rfl, .cons hRuns hItems hRest⟩

namespace Traced

variable {traced : List (Invocation × List α)}

theorem chain (h : Traced host origin line event adds traced w w') :
    Chain host origin line event (traced.map Prod.fst) w w' := by
  induction h with
  | nil w => exact .nil w
  | cons hRuns _ _ ih => exact .cons hRuns ih

/-- What the invocations added, one after the other, is what was added in all. -/
theorem total (hLedger : World.Ledger adds) (h : Traced host origin line event adds traced w w') :
    adds w (traced.flatMap Prod.snd) w' := by
  induction h with
  | nil w => exact hLedger.refl w
  | @cons i items rest w v w' _ hAdds _ ih =>
    have hReported : adds v [] (i.reported line event.kind v) := by
      unfold reported
      split
      · exact hLedger.refl v
      · exact hLedger.note v _
    exact hLedger.trans hAdds (hLedger.trans hReported ih)

end Traced

end Invocation

end Startup
