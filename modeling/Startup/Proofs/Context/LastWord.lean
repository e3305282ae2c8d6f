import Startup.Proofs.Context.Terminal
import Startup.Proofs.Context.Writing

/-!
# The last word of a context

A context announces that it is closed while it is still active, so that the listeners of the
announcement may yet publish through it, or close it themselves and announce it once more. From the
moment at which it is closed nothing is published through it any more. So the announcement is made
once and has the last word exactly where nothing is published between it and the end of the close;
and that is so if the listeners that hear it do not make the context speak.
-/

namespace Startup

variable {σ α β : Type} {w w' : World σ} {id : ContextId} {state : ContextState}

namespace Entry

/-- Once a context has announced that it is closed, no event is published through it. -/
def ClosesLast (id : ContextId) (entries : List Entry) : Prop :=
  ∀ before count after,
    entries = before ++ broadcasting (.context id) (.context .closed) count :: after →
      ∀ entry ∈ after, ¬ entry.Publishes id

/-- An event is published through a context that has announced that it is closed, and is not. -/
def Overlaps (id : ContextId) (entries : List Entry) : Prop :=
  ∃ before count between entry after,
    entries = before ++ broadcasting (.context id) (.context .closed) count ::
        (between ++ entry :: after) ∧
      entry.Publishes id ∧ ∀ name, closed id name ∉ between

/-- Where a context announces that it is closed, it is closed before the next event. -/
def Settles (id : ContextId) (entries : List Entry) : Prop :=
  ∀ before count after,
    entries = before ++ broadcasting (.context id) (.context .closed) count :: after →
      ∃ between name rest, after = between ++ closed id name :: rest ∧
        ∀ entry ∈ between, ¬ entry.Publishes id

def Silent (id : ContextId) (entries : List Entry) : Prop :=
  ∀ entry ∈ entries, ¬ entry.Publishes id

theorem not_reopens_of_forall {entries : List Entry}
    (h : ∀ name error, refreshFailed id name error ∉ entries) : ¬ Reopens id state entries := by
  rintro ⟨before, name, error, after, rfl, -⟩
  exact h name error (List.mem_append_right _ (List.mem_cons_self ..))

theorem Publishes.sign {entry : Entry} (h : entry.Publishes id) :
    entry.sign = some (id, .active) := by
  obtain ⟨kind, count, rfl⟩ := h
  rfl

/-- A context announces that it is closed. -/
def announces (id : ContextId) : Entry → Bool
  | broadcasting origin kind _ => origin = .context id ∧ kind = .context .closed
  | _ => false

theorem announces_iff {entry : Entry} :
    entry.announces id ↔ ∃ count, entry = broadcasting (.context id) (.context .closed) count := by
  constructor
  · intro h
    cases entry with
    | broadcasting origin kind count =>
      obtain ⟨rfl, rfl⟩ := of_decide_eq_true h
      exact ⟨count, rfl⟩
    | _ => cases h
  · rintro ⟨count, rfl⟩
    exact decide_eq_true ⟨rfl, rfl⟩

theorem ClosesLast.countP_le {entries : List Entry} (h : ClosesLast id entries) :
    entries.countP (announces id) ≤ 1 := by
  induction entries with
  | nil => exact Nat.zero_le 1
  | cons entry rest ih =>
    by_cases hAnnounces : entry.announces id = true
    · obtain ⟨count, rfl⟩ := announces_iff.mp hAnnounces
      have hRest : rest.countP (announces id) = 0 := by
        rw [List.countP_eq_zero]
        intro entry hEntry hAgain
        obtain ⟨count, rfl⟩ := announces_iff.mp hAgain
        exact h [] _ rest rfl _ hEntry ⟨_, _, rfl⟩
      exact Nat.le_of_eq (by rw [List.countP_cons_of_pos hAnnounces, hRest])
    · rw [List.countP_cons_of_neg hAnnounces]
      apply ih
      rintro before count after rfl
      exact h (entry :: before) count after rfl

theorem silent_after_closed {entries : List Entry} (hRevives : NeverRevives id state entries)
    (hGood : ClosesForGood id state entries) {before after : List Entry} {name : String}
    (hEntries : entries = before ++ closed id name :: after) : Silent id after := by
  intro entry hEntry hPublishes
  obtain ⟨between, rest, rfl⟩ := List.append_of_mem hEntry
  have hSplit : entries = ((before ++ [closed id name]) ++ between) ++ entry :: rest := by
    rw [hEntries, List.append_assoc, List.append_assoc, List.singleton_append]
  have hClosed : told id state (before ++ [closed id name]) = .closed := by
    rw [told_append, told_singleton]
    exact if_pos rfl
  have hStays := hGood _ between ⟨_, hSplit.symm⟩ hClosed
  exact hRevives _ entry rest hSplit hPublishes.sign hStays

theorem closesLast_iff {entries : List Entry} (hRevives : NeverRevives id state entries)
    (hGood : ClosesForGood id state entries) :
    ClosesLast id entries ↔ ¬ Overlaps id entries := by
  constructor
  · rintro hLast ⟨before, count, between, entry, after, hEntries, hPublishes, -⟩
    have hMem : entry ∈ between ++ entry :: after :=
      List.mem_append_right _ (List.mem_cons_self ..)
    exact hLast before count _ hEntries entry hMem hPublishes
  · intro hApart before count after hEntries entry hEntry hPublishes
    obtain ⟨between, rest, rfl⟩ := List.append_of_mem hEntry
    by_cases hClosed : ∃ name, closed id name ∈ between
    · obtain ⟨name, hName⟩ := hClosed
      obtain ⟨first, second, rfl⟩ := List.append_of_mem hName
      have hSplit : entries = (before ++ broadcasting (.context id) (.context .closed) count ::
          first) ++ closed id name :: (second ++ entry :: rest) := by
        rw [hEntries]
        simp
      exact silent_after_closed hRevives hGood hSplit entry
        (List.mem_append_right _ (List.mem_cons_self ..)) hPublishes
    · exact hApart ⟨before, count, between, entry, rest, hEntries, hPublishes,
        fun name hName => hClosed ⟨name, hName⟩⟩

theorem Settles.not_overlaps {entries : List Entry} (h : Settles id entries) :
    ¬ Overlaps id entries := by
  rintro ⟨before, count, between, entry, after, hEntries, hPublishes, hOpen⟩
  obtain ⟨quiet, name, rest, hAfter, hQuiet⟩ := h before count _ hEntries
  -- what is published stands before or behind the entry that closes the context
  rcases List.append_eq_append_iff.mp hAfter with ⟨gap, rfl, hRest⟩ | ⟨gap, rfl, hRest⟩
  · cases gap with
    | nil =>
      cases hRest
      obtain ⟨kind, count, hEntry⟩ := hPublishes
      cases hEntry
    | cons first gap =>
      cases hRest
      exact hQuiet entry (List.mem_append_right _ (List.mem_cons_self ..)) hPublishes
  · cases gap with
    | nil =>
      cases hRest
      obtain ⟨kind, count, hEntry⟩ := hPublishes
      cases hEntry
    | cons first gap =>
      cases hRest
      exact hOpen name (List.mem_append_right _ (List.mem_cons_self ..))

theorem silent_accumulates (id : ContextId) : Accumulates (Silent id) where
  quiet entries hQuiet entry hEntry hPublishes := by
    have hBroadcast := hPublishes.isBroadcast
    rw [hQuiet entry hEntry] at hBroadcast
    cases hBroadcast
  append a b hA hB entry hEntry := by
    rcases List.mem_append.mp hEntry with hEntry | hEntry
    · exact hA entry hEntry
    · exact hB entry hEntry

theorem settles_of_not_mem {entries : List Entry}
    (h : ∀ count, broadcasting (.context id) (.context .closed) count ∉ entries) :
    Settles id entries := by
  rintro before count after rfl
  exact absurd (List.mem_append_right _ (List.mem_cons_self ..)) (h count)

theorem settles_singleton {origin : Origin} {kind : EventKind} {count : Nat}
    (h : ¬ (origin = .context id ∧ kind = .context .closed)) :
    Settles id [broadcasting origin kind count] := by
  apply settles_of_not_mem
  intro other hEntry
  cases List.mem_singleton.mp hEntry
  exact h ⟨rfl, rfl⟩

theorem settles_accumulates (id : ContextId) : Accumulates (Settles id) where
  quiet entries hQuiet := by
    apply settles_of_not_mem
    intro count hEntry
    cases hQuiet _ hEntry
  append a b hA hB before count after hEntries := by
    rcases List.append_eq_append_iff.mp hEntries with ⟨gap, rfl, rfl⟩ | ⟨gap, rfl, hRest⟩
    · exact hB gap count after rfl
    · cases gap with
      | nil => exact hB [] count after hRest.symm
      | cons first gap =>
        cases hRest
        obtain ⟨between, name, rest, rfl, hQuiet⟩ := hA before count gap rfl
        exact ⟨between, name, rest ++ b, by simp, hQuiet⟩

theorem settles_announced {entries : List Entry} {count : Nat} (h : Silent id entries)
    (name : String) :
    Settles id (broadcasting (.context id) (.context .closed) count :: entries ++
      [closed id name]) := by
  intro before other after hEntries
  cases before with
  | nil =>
    cases hEntries
    exact ⟨entries, name, [], rfl, h⟩
  | cons first before =>
    -- there is no second announcement
    have hTail : entries ++ [closed id name] =
        before ++ broadcasting (.context id) (.context .closed) other :: after :=
      (List.cons_eq_cons.mp hEntries).2
    have hMem : broadcasting (.context id) (.context .closed) other ∈
        entries ++ [closed id name] := by
      rw [hTail]
      exact List.mem_append_right _ (List.mem_cons_self ..)
    rcases List.mem_append.mp hMem with hMem | hMem
    · exact absurd ⟨_, _, rfl⟩ (h _ hMem)
    · simp at hMem

/-- What the announcement of a close writes, if it is not overlapped. -/
def Announced (id : ContextId) (entries : List Entry) : Prop :=
  entries = [] ∨ ∃ count rest,
    entries = broadcasting (.context id) (.context .closed) count :: rest ∧ Silent id rest

theorem Announced.settles (entries : List Entry) (name : String) (h : Announced id entries) :
    Settles id (entries ++ [closed id name]) := by
  rcases h with rfl | ⟨count, rest, rfl, hSilent⟩
  · exact (settles_accumulates id).single rfl
  · exact settles_announced hSilent name

end Entry

/-- What may be asked so that nothing is published through a context: other contexts may be closed,
and whoever hears of that may ask no more either. -/
def Request.Defers (id : ContextId) : Request σ → Prop
  | close context => context ≠ id
  | request => request.Calm

/-- An announcement that a context is closed is left to its close. -/
def Request.Forthright : Request σ → Prop
  | publish _ event => event.kind ≠ .context .closed
  | _ => True

/-- Listeners that hear of a closed context do not make a context speak, and nobody repeats the
announcement. -/
structure Directory.Discreet (id : ContextId) (directory : Directory σ) : Prop where
  closing : ∀ listener event, event.kind = .context .closed →
    ((directory.listener listener).onEvent event).Asks (Request.Defers id)
  onEvent : ∀ listener event, ((directory.listener listener).onEvent event).Asks Request.Forthright
  publish : ∀ foreign event, ((directory.foreign foreign).publish event).Asks Request.Forthright
  subscribe : ∀ foreign listener,
    ((directory.foreign foreign).subscribe listener).Asks Request.Forthright

namespace Directory.Discreet

variable {directory : Directory σ}

theorem answer_silent (h : directory.Discreet id) {host : Host σ}
    (hDirectory : host.directory = directory)
    (hPerform : ∀ program : Program σ (Except Cause Unit), program.Asks (Request.Defers id) →
      (host.perform program).Writes (Entry.Silent id))
    {q : Request σ} (hq : q.Defers id) : (host.answer q).Writes (Entry.Silent id) := by
  have hP := Entry.silent_accumulates id
  cases q with
  | close context =>
    subst hDirectory
    apply ContextId.close_writes hP
    · intro entries name hEntries
      exact hP.append _ _ hEntries (hP.single rfl)
    · intro announced
      apply ContextId.publish_writes hP
      · rintro count entry hEntry ⟨kind, other, rfl⟩
        cases List.mem_singleton.mp hEntry
        exact hq rfl
      · exact fun listener => hPerform _ (h.closing listener _ rfl)
  | _ => exact Host.answer_calm_writes host hP hq

theorem perform_silent (h : directory.Discreet id) (depth : Nat) {program : Program σ α}
    (hProgram : program.Asks (Request.Defers id)) :
    ((Host.ofDepth directory depth).perform program).Writes (Entry.Silent id) := by
  induction depth generalizing α with
  | zero => exact fun _ _ _ hStuck => nomatch hStuck
  | succ depth ih =>
    apply Host.interpret_writes (Entry.silent_accumulates id) _ hProgram
    intro q hq
    exact h.answer_silent (Host.directory_ofDepth directory depth) (fun _ => ih) hq

/-- A close announces itself once, for the listeners that hear of it are silent. -/
theorem publish_announced (h : directory.Discreet id) {host : Host σ}
    (hDirectory : host.directory = directory)
    (hSilent : ∀ program : Program σ (Except Cause Unit), program.Asks (Request.Defers id) →
      (host.perform program).Writes (Entry.Silent id)) (context : Context) :
    (id.publish host (ContextId.closedEvent context)).Writes (Entry.Announced id) := by
  subst hDirectory
  intro w outcome w' hPublish
  cases ContextId.publishing_of_publish hPublish with
  | rejected hContext hState =>
    rw [World.since_self]
    exact ⟨List.prefix_rfl, .inl rfl⟩
  | @delivered active _ _ hContext hState hDeliver =>
    have hWrites : (id.deliver host active (ContextId.closedEvent context)).Writes
        (Entry.Silent id) :=
      ContextId.deliver_writes (Entry.silent_accumulates id)
        (fun listener => hSilent _ (h.closing listener (ContextId.closedEvent context) rfl)) active
    obtain ⟨hGrown, hRest⟩ := hWrites hDeliver
    have hOpening := List.prefix_append w.journal [id.opening active (ContextId.closedEvent context)]
    refine ⟨hOpening.trans hGrown, ?_⟩
    have hSince : (w.note (id.opening active (ContextId.closedEvent context))).since w =
        [id.opening active (ContextId.closedEvent context)] := World.since_eq rfl
    rw [World.since_trans hOpening hGrown, hSince]
    exact .inr ⟨_, _, rfl, hRest⟩

theorem answer_settles (h : directory.Discreet id) {host : Host σ}
    (hDirectory : host.directory = directory)
    (hSilent : ∀ program : Program σ (Except Cause Unit), program.Asks (Request.Defers id) →
      (host.perform program).Writes (Entry.Silent id))
    (hPerform : ∀ {α : Type} (program : Program σ α), program.Asks Request.Forthright →
      (host.perform program).Writes (Entry.Settles id))
    {q : Request σ} (hq : q.Forthright) : (host.answer q).Writes (Entry.Settles id) := by
  have hP := Entry.settles_accumulates id
  subst hDirectory
  cases q with
  | publish context event =>
    cases context with
    | managed other =>
      apply ContextId.publish_writes hP
      · exact fun count => Entry.settles_singleton fun hSame => hq hSame.2
      · exact fun listener => hPerform _ (h.onEvent listener event)
    | foreign other => exact hPerform _ (h.publish other event)
  | subscribe context listener =>
    cases context with
    | managed other => exact Host.answer_calm_writes host hP ⟨other, rfl⟩
    | foreign other => exact hPerform _ (h.subscribe other listener)
  | refresh context =>
    apply ContextId.refresh_writes hP
    · exact fun count => Entry.settles_singleton fun hSame => nomatch hSame.2
    · exact fun listener identity => hPerform _ (h.onEvent listener _)
  | close context =>
    by_cases hSame : context = id
    · subst hSame
      exact ContextId.close_writes hP Entry.Announced.settles (h.publish_announced rfl hSilent)
    · apply ContextId.close_writes hP
      · exact fun entries name hEntries => hP.append _ _ hEntries (hP.single rfl)
      · intro announced
        apply ContextId.publish_writes hP
        · exact fun count => Entry.settles_singleton fun hOrigin => hSame (by cases hOrigin.1; rfl)
        · exact fun listener => hPerform _ (h.onEvent listener _)
  | broadcast multicaster event =>
    apply Host.broadcast_writes hP
    · exact fun count => Entry.settles_singleton fun hOrigin => nomatch hOrigin.1
    · exact fun listener => hPerform _ (h.onEvent listener event)
  | _ => exact Host.answer_calm_writes host hP trivial

theorem perform_settles (h : directory.Discreet id) (depth : Nat) {program : Program σ α}
    (hProgram : program.Asks Request.Forthright) :
    ((Host.ofDepth directory depth).perform program).Writes (Entry.Settles id) := by
  induction depth generalizing α with
  | zero => exact fun _ _ _ hStuck => nomatch hStuck
  | succ depth ih =>
    apply Host.interpret_writes (Entry.settles_accumulates id) _ hProgram
    intro q hq
    exact h.answer_settles (Host.directory_ofDepth directory depth)
      (fun _ => h.perform_silent depth) (fun _ => ih) hq

end Directory.Discreet

namespace ContextId

/-- Whatever is asked of a context, by a program and by the listeners that are invoked meanwhile,
at any depth, if no refresh is put back after a close: from the moment at which the context is
closed, nothing is published through it. Its announcement of that is made once and is the last
event through it just as long as no event is published between the two; and this cannot be if the
listeners that hear of it do not make the context speak, and nobody else repeats the announcement.
A closed context answers a close without effect, and refuses to publish. An active one, also when
a listener asks it, delivers what is published; it stays active for the listeners of its close too,
and is closed after these, so that a close among them announces itself as well. -/
theorem closing_has_last_word (directory : Directory σ) (depth : Nat) (program : Program σ α)
    {a : α} (hRun : (Host.ofDepth directory depth).perform program w = some (a, w'))
    (hState : w.stateOf id = some state) :
    (¬ Entry.Reopens id state (w'.since w) →
      (∀ before name after, w'.since w = before ++ .closed id name :: after →
        Entry.Silent id after) ∧
      (Entry.ClosesLast id (w'.since w) ↔ ¬ Entry.Overlaps id (w'.since w)) ∧
      (directory.Discreet id → program.Asks Request.Forthright →
        Entry.ClosesLast id (w'.since w))) ∧
    (Entry.ClosesLast id (w'.since w) → (w'.since w).countP (Entry.announces id) ≤ 1) ∧
    (∀ (host : Host σ) (v : World σ) (context : Context), v.context? id = some context →
      context.state = .closed → id.close host v = some (.ok (), v) ∧
        ∀ event, id.publish host event v =
          some (.error (.contextInactive context.identity.full event.kind), v)) ∧
    ∀ (host : Host σ) (v : World σ) (context : Context), v.context? id = some context →
      context.state = .active →
        (∀ event, id.publish host event v =
            id.deliver host context event (v.note (id.opening context event)) ∧
          (v.note (id.opening context event)).stateOf id = some .active) ∧
        id.close host v = (id.deliver host context (closedEvent context)
          (v.note (id.opening context (closedEvent context)))).map fun (outcome, u) =>
            (outcome, (u.setState id .closed).note (.closed id context.displayName)) := by
  have hPath : World.Path Scope.full w w' :=
    (Host.ofDepth_within directory.within_full depth).perform program program.within_full hRun
  have hRevives := hPath.neverRevives hState
  refine ⟨fun hReopens => ?_, Entry.ClosesLast.countP_le, ?_, ?_⟩
  · have hGood := hRevives.closesForGood hReopens
    have hLast := Entry.closesLast_iff hRevives hGood
    refine ⟨fun _ _ _ hEntries => Entry.silent_after_closed hRevives hGood hEntries, hLast, ?_⟩
    intro hDiscreet hForthright
    have hSettles := (hDiscreet.perform_settles depth hForthright hRun).2
    exact hLast.mpr hSettles.not_overlaps
  · intro host v context hContext hClosed
    have hInactive : context.state ≠ .active := by
      rw [hClosed]
      decide
    exact ⟨close_closed host hContext hClosed, fun _ => publish_inactive hContext hInactive⟩
  · intro host v context hContext hActive
    refine ⟨fun event => ⟨publish_active hContext hActive, ?_⟩, close_active host hContext hActive⟩
    rw [World.stateOf_note, stateOf_of_context? hContext, hActive]

def solitary : World Bool :=
  { (default : World Bool) with contexts := [Context.new default .standalone] }

/-- A context with one listener is refreshed and closed. -/
def service : Program Bool (Except DeliveryError Unit) :=
  .ask (.subscribe (.managed ⟨0⟩) ⟨0⟩) fun _ =>
    .ask (.refresh ⟨0⟩) fun _ => .ask (.close ⟨0⟩) .done

/-- Listeners that close the context that they hear being refreshed. -/
def hasty : Directory Bool :=
  { (default : Directory Bool) with
    listener := fun _ =>
      { (default : Listener Bool) with
        onEvent := fun
          | .context ⟨.refreshed, _⟩ => .ask (.close ⟨0⟩) fun _ => .done (.ok ())
          | _ => .done (.ok ()) } }

theorem hasty_discreet : hasty.Discreet ⟨0⟩ where
  closing _ event hKind := by
    rcases event with event | ⟨change, context⟩
    · trivial
    · cases hKind
      trivial
  onEvent _ event := by
    rcases event with event | ⟨change, context⟩
    · trivial
    · cases change with
      | refreshed => exact ⟨trivial, fun _ => trivial⟩
      | closed => trivial
  publish _ _ := trivial
  subscribe _ _ := trivial

theorem closing_has_last_word_hasty :
    ∃ a w', (Host.ofDepth hasty 3).perform service solitary = some (a, w') ∧
      solitary.stateOf ⟨0⟩ = some .created ∧ w'.stateOf ⟨0⟩ = some .closed ∧
      Entry.ClosesLast ⟨0⟩ (w'.since solitary) := by
  refine ⟨_, _, rfl, rfl, rfl, ?_⟩
  have hCreated : solitary.stateOf ⟨0⟩ = some .created := rfl
  have hHistory := closing_has_last_word hasty 3 service rfl hCreated
  refine (hHistory.1 ?_).2.2 hasty_discreet ?_
  · apply Entry.not_reopens_of_forall
    intro name error hEntry
    simp [World.since] at hEntry
  · exact ⟨trivial, fun _ => ⟨trivial, fun _ => ⟨trivial, fun _ => trivial⟩⟩⟩

/-- Listeners that publish through the context that they hear being closed, and close it too, the
first time. -/
def talkative : Directory Bool :=
  { (default : Directory Bool) with
    listener := fun _ =>
      { (default : Listener Bool) with
        onEvent := fun
          | .context ⟨.closed, _⟩ => .ask .memory fun
            | true => .done (.ok ())
            | false => .ask (.remember true) fun _ =>
                .ask (.publish (.managed ⟨0⟩) (.run default)) fun _ =>
                  .ask (.close ⟨0⟩) fun _ => .done (.ok ())
          | _ => .done (.ok ()) } }

/-- No refresh is put back, and yet an event follows on the announcement, and a second one. -/
theorem talkative_overlaps :
    ∃ a w', (Host.ofDepth talkative 4).perform service solitary = some (a, w') ∧
      solitary.stateOf ⟨0⟩ = some .created ∧
      ¬ Entry.Reopens ⟨0⟩ .created (w'.since solitary) ∧
      (w'.since solitary).countP (Entry.announces ⟨0⟩) = 2 ∧
      ¬ Entry.ClosesLast ⟨0⟩ (w'.since solitary) := by
  refine ⟨_, _, rfl, rfl, ?_, by decide +kernel, ?_⟩
  · apply Entry.not_reopens_of_forall
    intro name error hEntry
    simp [World.since] at hEntry
  · intro hLast
    have hOnce := hLast.countP_le
    revert hOnce
    decide +kernel

end ContextId

end Startup
