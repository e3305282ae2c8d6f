import Startup.Proofs.Context.Nesting

/-!
# Closing contexts

Whatever listeners do when a context announces that it is closed, it is closed afterwards, and only
an active context makes that announcement.
-/

namespace Startup.ContextId

variable {σ : Type} {scope : Scope} {w w' : World σ} {id : ContextId}

theorem stateOf_close {host : Host σ} (hHost : host.Within scope)
    (hSends : scope.Sends (.context .closed)) {outcome : Except DeliveryError Unit}
    (h : id.close host w = some (outcome, w')) : w'.stateOf id = some .closed := by
  cases closing_of_close h with
  | idle hContext hState => rw [stateOf_of_context? hContext, hState]
  | silent hContext hState =>
    rw [World.stateOf_note, World.stateOf_setState, if_pos rfl, stateOf_of_context? hContext]
    rfl
  | @announced context _ w₁ hContext hState hPublish =>
    have hSent : scope.Sends (closedEvent context).kind := hSends
    obtain ⟨before, hBefore⟩ := stateOf_isSome (publish_within hHost id hSent hPublish) hContext
    rw [World.stateOf_note, World.stateOf_setState, if_pos rfl, hBefore]
    rfl

/-- Only an active context announces that it is closed. -/
theorem close_announces {host : Host σ} (hHost : host.Within scope)
    (hSends : scope.Sends (.context .closed)) {outcome : Except DeliveryError Unit}
    (h : id.close host w = some (outcome, w')) :
    (∃ count, .broadcasting (.context id) (.context .closed) count ∈ w'.since w) ↔
      w.stateOf id = some .active := by
  cases closing_of_close h with
  | idle hContext hState =>
    rw [stateOf_of_context? hContext, hState, World.since_self]
    exact ⟨nofun, nofun⟩
  | @silent context hContext hState =>
    have hSince : ((w.setState id .closed).note (.closed id context.displayName)).since w =
        [.closed id context.displayName] := World.since_eq rfl
    rw [stateOf_of_context? hContext, hState, hSince]
    exact ⟨by simp, nofun⟩
  | @announced context _ w₁ hContext hState hPublish =>
    constructor
    · intro _
      rw [stateOf_of_context? hContext, hState]
    · intro _
      rw [publish_active hContext hState] at hPublish
      have hSent : scope.Sends (closedEvent context).kind := hSends
      have hPath := deliver_within hHost id context hSent.failed (fun _ _ => hSent.invoking _ _ _)
        hPublish
      have hOpening := World.mem_since_note w (id.opening context (closedEvent context))
      refine ⟨(context.multicaster.matching (.context .closed)).length, ?_⟩
      exact World.mem_since_of_grows List.prefix_rfl (List.prefix_append _ _)
        (hPath.journal_grows.trans (List.prefix_append _ _)) hOpening

end Startup.ContextId
