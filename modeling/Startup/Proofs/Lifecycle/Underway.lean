import Startup.Proofs.Lifecycle.Stages

/-!
# Runs underway

What holds of a run at every moment between its stages, by the phases that it has announced: its
publisher announced them last, its context is the one behind those that were there before, and
what the listeners and initializers did stays within a scope.
-/

namespace Startup

variable {σ : Type}

def Phase.successes : List Phase :=
  [starting, environmentPrepared, contextInitialized, contextLoaded, started, running]

/-- A phase is the one after some of the successes. -/
def Phase.Follows (reached : List Phase) (phase : Phase) : Prop :=
  reached ++ [phase] <+: successes ∧ reached.getLast? = phase.predecessor? ∧ phase ≠ failed

instance (reached : List Phase) (phase : Phase) : Decidable (phase.Follows reached) :=
  inferInstanceAs (Decidable (_ ∧ _))

/-- What the journal of a run tells: the phases that were announced, and else what is within a scope
or written by the run. -/
structure Chronicle (scope : Scope) (origin : World σ) (reached : List Phase) (w : World σ) :
    Prop where
  grown : origin.journal <+: w.journal
  notes : ∀ entry ∈ w.since origin, scope.notes entry ∨ entry.isOfRun
  phases : Entry.phases (w.since origin) = reached

structure Making (origin : World σ) (context : Option ContextId) (w : World σ) : Prop where
  unmade : context = none → w.contexts.length = origin.contexts.length
  made : ∀ id, context = some id → id = origin.next ∧
    ∃ context, w.context? id = some context ∧
      ∀ r ∈ context.multicaster.registrations, .registered r ∈ w.since origin

structure Underway (scope : Scope) (application : Application σ) (origin : World σ)
    (reached : List Phase) (progress : Progress σ) (w : World σ) : Prop
    extends Chronicle scope origin reached w, Making origin progress.context w where
  last : progress.publisher.last = reached.getLast?
  app : progress.publisher.application = application
  known : ∀ listener ∈ application.listeners,
    ∃ r ∈ progress.publisher.multicaster.registrations,
      r.listener = listener ∧ .registered r ∈ w.since origin
  held : .contextLoaded ∈ reached →
    ∀ listener ∈ application.listeners, w.Holds origin.next listener
  active : .started ∈ reached → ¬ scope.governs origin.next →
    w.stateOf origin.next = some .active

variable {scope wide : Scope} {application : Application σ} {origin w w' : World σ}
  {reached : List Phase} {progress : Progress σ}

namespace Chronicle

theorem mem_since (h : Chronicle scope origin reached w) (hNext : w.journal <+: w'.journal)
    {entry : Entry} (hEntry : entry ∈ w.since origin) : entry ∈ w'.since origin := by
  rw [World.since_trans h.grown hNext]
  exact List.mem_append_left _ hEntry

theorem path (h : Chronicle scope origin reached w) (hPath : World.Path wide w w')
    (hNotes : ∀ entry, wide.notes entry → scope.notes entry) :
    Chronicle scope origin reached w' := by
  have hSince := World.since_trans h.grown hPath.journal_grows
  refine ⟨h.grown.trans hPath.journal_grows, ?_, ?_⟩
  · intro entry hEntry
    rw [hSince] at hEntry
    rcases List.mem_append.mp hEntry with hEntry | hEntry
    · exact h.notes entry hEntry
    · exact .inl (hNotes entry (hPath.notes_of_mem_since hEntry))
  · rw [hSince, Entry.phases_append, h.phases, Entry.phases_eq_nil, List.append_nil]
    exact fun entry hEntry => wide.modest entry (hPath.notes_of_mem_since hEntry)

theorem note (h : Chronicle scope origin reached w) (entry : Entry) (hRun : entry.isOfRun) :
    Chronicle scope origin (reached ++ Entry.phases [entry]) (w.note entry) := by
  have hSince := World.since_append h.grown (World.journal_note w entry)
  refine ⟨h.grown.trans (List.prefix_append _ _), ?_, ?_⟩
  · intro other hOther
    rw [hSince] at hOther
    rcases List.mem_append.mp hOther with hOther | hOther
    · exact h.notes other hOther
    · rw [List.mem_singleton.mp hOther]
      exact .inr hRun
  · rw [hSince, Entry.phases_append, h.phases]

end Chronicle

namespace Making

variable {context : Option ContextId}

theorem path (h : Making origin context w) (hGrown : origin.journal <+: w.journal)
    (hPath : World.Path wide w w') : Making origin context w' := by
  have hSince := World.since_trans hGrown hPath.journal_grows
  constructor
  · intro hNone
    rw [hPath.length_contexts, h.unmade hNone]
  · intro id hId
    obtain ⟨hNext, held, hContext, hRegistered⟩ := h.made id hId
    obtain ⟨after, hAfter, -⟩ := hPath.keeps hContext
    refine ⟨hNext, after, hAfter, ?_⟩
    intro r hr
    rw [hSince]
    rcases hPath.registered hContext hAfter r hr with hr | hr
    · exact List.mem_append_left _ (hRegistered r hr)
    · exact List.mem_append_right _ hr

theorem note (h : Making origin context w) (hGrown : origin.journal <+: w.journal)
    (entry : Entry) : Making origin context (w.note entry) := by
  refine ⟨h.unmade, ?_⟩
  intro id hId
  obtain ⟨hNext, held, hContext, hRegistered⟩ := h.made id hId
  refine ⟨hNext, held, hContext, ?_⟩
  intro r hr
  rw [World.since_append hGrown (World.journal_note w entry)]
  exact List.mem_append_left _ (hRegistered r hr)

end Making

namespace Underway

theorem known_later (h : Underway scope application origin reached progress w)
    (hNext : w.journal <+: w'.journal) : ∀ listener ∈ application.listeners,
      ∃ r ∈ progress.publisher.multicaster.registrations,
        r.listener = listener ∧ .registered r ∈ w'.since origin := by
  intro listener hListener
  obtain ⟨r, hr, hEq, hTold⟩ := h.known listener hListener
  exact ⟨r, hr, hEq, h.mem_since hNext hTold⟩

/-- Calls within a scope keep a run where it is, except that those that may refresh and close more
contexts have to leave its context active. -/
theorem path (h : Underway scope application origin reached progress w)
    (hPath : World.Path wide w w') (hNotes : ∀ entry, wide.notes entry → scope.notes entry)
    (hActive : .started ∈ reached → ¬ scope.governs origin.next →
      w'.stateOf origin.next = some .active) :
    Underway scope application origin reached progress w' where
  toChronicle := h.toChronicle.path hPath hNotes
  toMaking := h.toMaking.path h.grown hPath
  last := h.last
  app := h.app
  known := h.known_later hPath.journal_grows
  held hLoaded listener hListener := hPath.holds (h.held hLoaded listener hListener)
  active := hActive

theorem within (h : Underway scope application origin reached progress w)
    (hPath : World.Path scope w w') : Underway scope application origin reached progress w' :=
  h.path hPath (fun _ => id) fun hStarted hSpared =>
    (hPath.stateOf_eq hSpared).trans (h.active hStarted hSpared)

theorem note (h : Underway scope application origin reached progress w) (entry : Entry)
    (hRun : entry.isOfRun) (hPhase : entry.phase? = none) :
    Underway scope application origin reached progress (w.note entry) where
  toChronicle := by
    have hNote := h.toChronicle.note entry hRun
    rwa [Entry.phases, List.filterMap_cons_none hPhase, List.filterMap_nil, List.append_nil]
      at hNote
  toMaking := h.toMaking.note h.grown entry
  last := h.last
  app := h.app
  known := h.known_later (List.prefix_append _ _)
  held := h.held
  active := h.active

theorem announce {host : Host σ} (hHost : host.Within scope) (payload : RunPayload)
    {outcome : Except RunError Unit} {publisher : Publisher σ}
    (hSends : scope.Sends (.run payload.phase)) (hPhase : payload.phase ≠ .failed)
    (hTurn : reached.getLast? = payload.phase.predecessor?)
    (hLoaded : payload.phase = .contextLoaded → payload = .contextLoaded (.managed origin.next) ∧
      progress.context = some origin.next)
    (hStarted : payload.phase = .started → ¬ scope.governs origin.next →
      w.stateOf origin.next = some .active)
    (h : Underway scope application origin reached progress w)
    (hAnnounce : progress.publisher.announce host payload w = some ((outcome, publisher), w')) :
    Underway scope application origin (reached ++ [payload.phase])
        { progress with publisher := publisher } w' ∧
      ∀ error, outcome = .error error → ∃ inner, error = .delivery inner := by
  have hLast : progress.publisher.last = payload.phase.predecessor? := h.last.trans hTurn
  cases Publisher.announcing_of_announce hAnnounce with
  | refused hAdmits =>
    -- a phase in its turn comes after the one that was announced last
    rw [hLast, Publisher.admits_predecessor] at hAdmits
    cases hAdmits
  | @delivered delivery multicaster _ hAdmits hDeliver =>
    have hSent : scope.Sends (progress.publisher.event payload).kind := hSends
    have hPath : World.Path scope (w.note _) w' :=
      Publisher.deliver_within hHost _ hSent payload hDeliver
    have hNoted := h.toChronicle.note
      (.publishing payload.phase progress.publisher.application.name) rfl
    have hGrown : w.journal <+: w'.journal := (List.prefix_append _ _).trans hPath.journal_grows
    obtain rfl := Publisher.deliver_multicaster hPhase hDeliver
    refine ⟨⟨hNoted.path hPath fun _ => id, (h.toMaking.note h.grown _).path hNoted.grown hPath, ?_,
      h.app, h.known_later hGrown, ?_, ?_⟩, ?_⟩
    · exact List.getLast?_concat.symm
    · intro hReached listener hListener
      rcases List.mem_append.mp hReached with hBefore | hNow
      · exact hPath.holds (h.held hBefore listener hListener)
      · obtain ⟨hPayload, hContext⟩ := hLoaded (List.mem_singleton.mp hNow).symm
        obtain ⟨-, context, hHere, -⟩ := h.made _ hContext
        rw [← World.context?_note w (.publishing payload.phase _)] at hHere
        rw [hPayload] at hDeliver hSent hHere
        exact Publisher.deliver_contextLoaded hHost hSent hHere hDeliver listener
          (h.app ▸ hListener)
    · intro hReached hSpared
      rw [hPath.stateOf_eq hSpared, World.stateOf_note]
      rcases List.mem_append.mp hReached with hBefore | hNow
      · exact h.active hBefore hSpared
      · exact hStarted (List.mem_singleton.mp hNow).symm hSpared
    · intro error hError
      cases delivery with
      | ok _ => cases hError
      | error inner =>
        cases hError
        exact ⟨inner, rfl⟩

end Underway

end Startup
