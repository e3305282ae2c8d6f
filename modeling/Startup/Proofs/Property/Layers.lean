import Startup.Lifecycle.Run
import Startup.Proofs.Effect.Scope
import Startup.Proofs.Property.Arguments
import Startup.Proofs.Property.Leaves

/-!
# Which layer a property comes from

The properties of a run are layered key by key: the last option of a key counts before the leaves
of the document, these before the process environment and the defaults. The document is the one
that the last two show, so that no option and no leaf brings in another.
-/

namespace Startup

theorem Keyed.find?_eq_lookup {α : Type} (key : String) (pairs : List (String × α)) :
    find? key pairs = pairs.lookup key := by
  induction pairs with
  | nil => rfl
  | cons pair pairs ih =>
    obtain ⟨other, value⟩ := pair
    rw [find?_cons, List.lookup_cons, ih]
    by_cases h : other = key
    · simp [h]
    · have hOther : (key == other) = false := beq_eq_false_iff_ne.mpr (Ne.symm h)
      rw [if_neg h, hOther]

namespace Properties

/-- What the defaults and the process environment show: the last pair of a key counts, and the
environment before the defaults. -/
def shown (defaults : List (String × String)) (system : Option (List (String × String)))
    (key : String) : Option String :=
  ((system.getD []).reverse.lookup key).or (defaults.reverse.lookup key)

/-- The members of the document that is under the key, none if there is no document. -/
inductive Holds : Option String → List (String × Json) → Prop
  | nothing : Holds none []
  | document {text : String} {members : List (String × Json)}
      (hParse : Json.parse text = .ok (.object members)) : Holds (some text) members

inductive Layered (arguments : List String) (document : List (String × Json))
    (lower : String → Option String) (key : String) : Option String → Prop
  | option {text : String} (hOption : Argument.LastAssigns arguments key text) :
      Layered arguments document lower key (some text)
  | leaf {text : String} (hSpare : Argument.Spare arguments key)
      (hLeaf : Json.LeadsTo document key text)
      (hLast : (Json.flatten document).reverse.lookup key = some text) :
      Layered arguments document lower key (some text)
  | lower (hSpare : Argument.Spare arguments key)
      (hNoLeaf : ∀ text, ¬ Json.LeadsTo document key text) :
      Layered arguments document lower key (lower key)

theorem get?_setAll_lookup (properties : Properties) (pairs : List (String × String))
    (key : String) :
    (properties.setAll pairs).get? key = (pairs.reverse.lookup key).or (properties.get? key) := by
  rw [get?_setAll, Keyed.find?_eq_lookup]

theorem get?_base (defaults : List (String × String)) (system : Option (List (String × String)))
    (key : String) : (base defaults system).get? key = shown defaults system key := by
  rw [base, ofPairs, get?_setAll_lookup, get?_setAll_lookup, get?_empty, Option.or_none, shown]

theorem layered_get? (lower : Properties) (document : List (String × Json))
    (arguments : List String) (key : String) :
    Layered arguments document lower.get? key
      (((lower.setAll (Json.flatten document)).setAll
        (Argument.assignments arguments)).get? key) := by
  -- a later assignment wins, so each layer is looked up from its end
  rw [get?_setAll_lookup, get?_setAll_lookup]
  cases hOption : (Argument.assignments arguments).reverse.lookup key with
  | some text => exact .option (Argument.lastAssigns_of_lookup hOption)
  | none =>
    have hSpare := Argument.spare_of_lookup hOption
    rw [Option.none_or]
    cases hLast : (Json.flatten document).reverse.lookup key with
    | some text =>
      obtain ⟨_, _, hSplit, -⟩ := List.lookup_eq_some_iff.mp hLast
      have hMem : (key, text) ∈ (Json.flatten document).reverse := by
        rw [hSplit]
        exact List.mem_append_right _ List.mem_cons_self
      exact .leaf hSpare (Json.mem_flatten_iff.mp (List.mem_reverse.mp hMem)) hLast
    | none =>
      rw [Option.none_or]
      apply Layered.lower hSpare
      intro text hLeaf
      have hMem := List.mem_reverse.mpr (Json.mem_flatten_iff.mpr hLeaf)
      have hOther := List.lookup_eq_none_iff.mp hLast _ hMem
      simp at hOther

theorem assignments_not_object (source : String) {text : String}
    (h : ∀ members, Json.parse text ≠ .ok (.object members)) :
    ∃ problem, assignments source text = .error (.invalidPropertySource source problem) := by
  unfold assignments
  split
  · exact ⟨_, rfl⟩
  · rename_i members hParse
    exact absurd hParse (h members)
  · exact ⟨_, rfl⟩

theorem documentAssignments_of_holds {properties : Properties} {document : List (String × Json)}
    (h : Holds (properties.get? documentKey) document) :
    properties.documentAssignments = .ok (Json.flatten document) := by
  unfold documentAssignments
  generalize properties.get? documentKey = held at h
  cases h with
  | nothing => rfl
  | document hParse =>
    change assignments _ _ = _
    unfold assignments
    rw [hParse]

theorem prepare_of_holds {defaults : List (String × String)}
    {system : Option (List (String × String))} {document : List (String × Json)}
    (h : Holds (shown defaults system documentKey) document) (arguments : List String) :
    prepare defaults system arguments = .ok (((base defaults system).setAll
      (Json.flatten document)).setAll (Argument.assignments arguments)) := by
  rw [← get?_base] at h
  rw [prepare, documentAssignments_of_holds h]
  rfl

theorem prepare_not_object {defaults : List (String × String)}
    {system : Option (List (String × String))} {text : String}
    (hShown : shown defaults system documentKey = some text)
    (hText : ∀ members, Json.parse text ≠ .ok (.object members)) (arguments : List String) :
    ∃ problem, prepare defaults system arguments =
      .error (.invalidPropertySource documentKey problem) := by
  rw [← get?_base] at hShown
  obtain ⟨problem, hProblem⟩ := assignments_not_object documentKey hText
  refine ⟨problem, ?_⟩
  have hDocument : (base defaults system).documentAssignments =
      .error (.invalidPropertySource documentKey problem) := by
    rw [documentAssignments, hShown]
    exact hProblem
  rw [prepare, hDocument]
  rfl

/-- Properties that were prepared are layered, over the document that the lower layers show. -/
theorem layered_of_prepare {defaults : List (String × String)}
    {system : Option (List (String × String))} {arguments : List String}
    {properties : Properties} (h : prepare defaults system arguments = .ok properties) :
    ∃ document, Holds (shown defaults system documentKey) document ∧
      ∀ key, Layered arguments document (shown defaults system) key (properties.get? key) := by
  have hDocument : ∃ document, Holds (shown defaults system documentKey) document := by
    cases hShown : shown defaults system documentKey with
    | none => exact ⟨[], .nothing⟩
    | some text =>
      refine Classical.byContradiction fun hNone => ?_
      obtain ⟨problem, hError⟩ := prepare_not_object hShown
        (fun members hParse => hNone ⟨members, .document hParse⟩) arguments
      cases h.symm.trans hError
  obtain ⟨document, hHolds⟩ := hDocument
  cases h.symm.trans (prepare_of_holds hHolds arguments)
  refine ⟨document, hHolds, fun key => ?_⟩
  have hLower : (base defaults system).get? = shown defaults system :=
    funext (get?_base defaults system)
  rw [← hLower]
  exact layered_get? (base defaults system) document arguments key

theorem prepare_append (defaults : List (String × String))
    (system : Option (List (String × String))) (earlier later : List String) :
    prepare defaults system (earlier ++ later) =
      (prepare defaults system earlier).map (·.setAll (Argument.assignments later)) := by
  rw [prepare, prepare]
  cases (base defaults system).documentAssignments with
  | error error => rfl
  | ok document =>
    change Except.ok _ = Except.ok _
    rw [Argument.assignments_append, setAll_append]

theorem prepare_document_option (defaults : List (String × String))
    (system : Option (List (String × String))) (arguments : List String) (text : String) :
    prepare defaults system (arguments ++ ["--" ++ (documentKey ++ "=" ++ text)]) =
      (prepare defaults system arguments).map (·.set documentKey text) := by
  have hOption := Argument.assignments_option documentKey text (by decide +kernel)
  rw [prepare_append, hOption]
  rfl

end Properties

namespace Environment

open Properties

variable {σ : Type}

theorem prepare_apply {defaults : List (String × String)}
    {system : Option (List (String × String))} {arguments : List String}
    {properties : Properties}
    (h : Properties.prepare defaults system arguments = .ok properties) (w : World σ) :
    ∃ environment w', prepare defaults system arguments w = some (.ok environment, w') ∧
      w'.stores[environment.store.index]? = some properties := by
  rw [prepare, h]
  exact ⟨_, _, rfl, List.getElem?_concat_length⟩

theorem prepare_ok_inv {defaults : List (String × String)}
    {system : Option (List (String × String))} {arguments : List String}
    {environment : Environment} {w w' : World σ}
    (h : prepare defaults system arguments w = some (.ok environment, w')) :
    ∃ properties, Properties.prepare defaults system arguments = .ok properties ∧
      w'.stores[environment.store.index]? = some properties := by
  cases hPrepare : Properties.prepare defaults system arguments with
  | error error =>
    rw [prepare, hPrepare] at h
    cases h
  | ok properties =>
    obtain ⟨_, _, hApply, hStore⟩ := prepare_apply hPrepare w
    cases hApply.symm.trans h
    exact ⟨properties, rfl, hStore⟩

/-- An environment is refused where what the defaults and the process environment show as the
document is no object. Otherwise its properties are layered; an option for the key of the document
is kept like any other, and nothing is loaded from it. -/
theorem prepare_layered (defaults : List (String × String))
    (system : Option (List (String × String))) (arguments : List String) (w : World σ) :
    (∀ text, shown defaults system documentKey = some text →
      (∀ members, Json.parse text ≠ .ok (.object members)) →
        ∃ problem, prepare defaults system arguments w =
          some (.error (.invalidPropertySource documentKey problem), w)) ∧
    (∀ document, Holds (shown defaults system documentKey) document →
      ∃ environment properties w', prepare defaults system arguments w =
          some (.ok environment, w') ∧
        w'.stores[environment.store.index]? = some properties ∧
        ∀ key, Layered arguments document (shown defaults system) key (properties.get? key)) ∧
    ∀ text, Properties.prepare defaults system
        (arguments ++ ["--" ++ (documentKey ++ "=" ++ text)]) =
      (Properties.prepare defaults system arguments).map (·.set documentKey text) := by
  refine ⟨?_, ?_, ?_⟩
  · intro text hShown hText
    obtain ⟨problem, hProblem⟩ := prepare_not_object hShown hText arguments
    refine ⟨problem, ?_⟩
    rw [prepare, hProblem]
    rfl
  · intro document hHolds
    have hPrepared := prepare_of_holds hHolds arguments
    obtain ⟨environment, w', hPrepare, hStore⟩ := prepare_apply hPrepared w
    refine ⟨environment, _, w', hPrepare, hStore, ?_⟩
    intro key
    have hShown : (base defaults system).get? = shown defaults system :=
      funext (get?_base defaults system)
    rw [← hShown]
    exact layered_get? (base defaults system) document arguments key
  · intro text
    exact prepare_document_option defaults system arguments text

/-- A default under `a`, and a document that has a text for it. -/
def documented : List (String × String) :=
  [("a", "low"), (documentKey, "\x7b\"a\":\"high\"\x7d")]

theorem prepare_layered_documented :
    ∃ environment properties w', prepare documented none [] (default : World Unit) =
        some (.ok environment, w') ∧
      w'.stores[environment.store.index]? = some properties ∧
      properties.get? "a" = some "high" := by
  have hHolds : Holds (shown documented none documentKey) [("a", .text "high")] := by
    have hChars : Json.parseChars "\x7b\"a\":\"high\"\x7d".toList =
        .ok (.object [("a", .text "high")]) := by
      cbv
    exact .document (congrArg (Except.mapError _) hChars)
  obtain ⟨-, hLoaded, -⟩ := prepare_layered documented none [] (default : World Unit)
  obtain ⟨environment, properties, w', hPrepare, hStore, hLayered⟩ := hLoaded _ hHolds
  refine ⟨environment, properties, w', hPrepare, hStore, ?_⟩
  generalize hValue : properties.get? "a" = value
  have hLayer := hLayered "a"
  rw [hValue] at hLayer
  cases hLayer with
  | option hOption =>
    obtain ⟨before, argument, after, hSplit, -⟩ := hOption
    simp at hSplit
  | leaf hSpare hLeaf hLast => exact hLast.symm
  | lower hSpare hNoLeaf =>
    exact absurd ⟨"a", .text "high", [], List.mem_cons_self, .scalar rfl, rfl⟩ (hNoLeaf "high")

end Environment

end Startup
