import Startup.Binding.Settings
import Startup.Proofs.Binding.Record

/-!
# Properties that a record ignores

A record that is not strict does not look at entries without a field, whatever is below them. So it
is bound alike to all properties that agree where the first segment is the name of a field.
-/

namespace Startup

namespace PropertyTree

variable {children : List (String × PropertyTree)}

theorem leafAt_filter (p : String → Bool) (children : List (String × PropertyTree))
    (segment : String) (path : List String) :
    (group (children.filter fun entry => p entry.1)).leafAt (segment :: path) =
      if p segment then (group children).leafAt (segment :: path) else none := by
  rw [leafAt_group_cons, leafAt_group_cons, Keyed.find?_filter]
  split <;> rfl

theorem Sound.filter (h : Sound (PropertyTree.group children))
    (p : String × PropertyTree → Bool) : Sound (PropertyTree.group (children.filter p)) := by
  cases h with
  | group hOrdered hEach hFilled =>
    exact .group (List.Pairwise.filter p hOrdered)
      (fun child hChild => hEach child (List.mem_filter.mp hChild).1)
      fun child hChild => hFilled child (List.mem_filter.mp hChild).1

end PropertyTree

namespace Schema

variable {fields : List (Field Schema)}

def knows (fields : List (Field Schema)) (name : String) : Bool :=
  (fieldOf? fields name).isSome

theorem visit_of_not_knows (entry : String × PropertyTree) (h : knows fields entry.1 = false) :
    visit false fields entry = .ok none := by
  have hNone : fieldOf? fields entry.1 = none := by simpa [knows] using h
  rw [visit_of_no_field hNone]
  rfl

theorem bind_record_filter (name : String) (fields : List (Field Schema))
    (children : List (String × PropertyTree)) :
    (Schema.record name false fields).bind (.group children) =
      (Schema.record name false fields).bind
        (.group (children.filter fun entry => knows fields entry.1)) := by
  rw [bind_record_group, mapM_filter visit_of_not_knows, bind_record_group]

/-- The first segment of a key is the name of a field. -/
def Named (fields : List (Field Schema)) (key : String) : Prop :=
  ∃ segment path, Text.splitOn '.' key = segment :: path ∧ knows fields segment = true

theorem filter_knows_congr {mine theirs : List (String × PropertyTree)}
    {entries others : List (String × String)} (hMine : PropertyTree.Holds mine entries)
    (hTheirs : PropertyTree.Holds theirs others)
    (hSame : ∀ key, Named fields key → ∀ text, (key, text) ∈ entries ↔ (key, text) ∈ others) :
    (mine.filter fun entry => knows fields entry.1) =
      theirs.filter fun entry => knows fields entry.1 := by
  refine PropertyTree.group.inj ((hMine.sound.filter _).ext (hTheirs.sound.filter _) fun path => ?_)
  cases path with
  | nil => rfl
  | cons segment path =>
    rw [PropertyTree.leafAt_filter, PropertyTree.leafAt_filter]
    -- behind the name of a field both have the leaves of the same entries, behind others none
    split
    · rename_i hKnown
      apply Option.ext
      intro text
      rw [hMine.leaves, hTheirs.leaves]
      refine exists_congr fun key => and_congr_left fun hSplit => ?_
      exact hSame key ⟨segment, path, hSplit, hKnown⟩ text
    · rfl

end Schema

namespace Properties

open Schema

variable {fields : List (Field Schema)}

/-- A record has its value just if its entries suit it. Otherwise its problem is that of the first
entry that offends, in the order of names, and if there is none, it is the first required field
without an entry. A record that is not strict is bound alike whatever else is below its group, as
long as this is a tree. -/
theorem bind_record (hLabels : (fields.map Field.label).Nodup) (name : String) (strict : Bool) :
    (∀ children, Keyed.Ordered children →
      Outcome strict fields children ((Schema.record name strict fields).bind (.group children)) ∧
      ((∃ value, (Schema.record name strict fields).bind (.group children) = .ok value) ↔
        Suits strict fields children)) ∧
    ∀ (properties : Properties) (group : String),
      (∀ lead key, ¬ properties.Clash group lead key) →
        (∃ children, PropertyTree.Holds children (properties.below group) ∧
          properties.bind group (.record name strict fields) =
            ((Schema.record name strict fields).bind (.group children)).mapError fun problem =>
              .bindingFailed group problem.message) ∧
        (strict = false → ∀ other : Properties, (∀ lead key, ¬ other.Clash group lead key) →
          (∀ key, Named fields key → properties.get? (group ++ "." ++ key) =
            other.get? (group ++ "." ++ key)) →
          properties.bind group (.record name strict fields) =
            other.bind group (.record name strict fields)) := by
  constructor
  · intro children hOrdered
    have hOutcome : Outcome strict fields children _ := outcome_record hLabels hOrdered name
    exact ⟨hOutcome, hOutcome.suits_iff⟩
  · intro properties group hFree
    obtain ⟨children, -, hHolds⟩ := exists_holds hFree
    refine ⟨⟨children, hHolds, bind_of_holds hHolds _⟩, ?_⟩
    rintro rfl other hOtherFree hSame
    obtain ⟨others, -, hOthers⟩ := exists_holds hOtherFree
    have hKnown : (children.filter fun entry => knows fields entry.1) =
        others.filter fun entry => knows fields entry.1 := by
      refine filter_knows_congr hHolds hOthers fun key hKey text => ?_
      rw [mem_below_iff_get?, mem_below_iff_get?, hSame key hKey]
    rw [bind_of_holds hHolds, bind_of_holds hOthers, bind_record_filter, hKnown,
      ← bind_record_filter]

/-- A kind, a flag that is none, and a name that no field has between the two. -/
def mistaken : Properties :=
  ofPairs [("main.kind", "reactive"), ("main.level.root", "x"), ("main.log-startup-info", "maybe")]

theorem bind_record_mistaken :
    Outcome false [⟨"kind", "kind", .optional ApplicationKind.schema, some .absent⟩,
        ⟨"log_startup_info", "log-startup-info", .bool, some (.bool true)⟩]
      [("kind", .leaf "reactive"), ("level", .group [("root", .leaf "x")]),
        ("log-startup-info", .leaf "maybe")]
      (.error (.invalidValue "maybe" "a boolean")) ∧
    mistaken.bind "main" MainSettings.schema = .error (.bindingFailed "main"
      "invalid value: string \"maybe\", expected a boolean") ∧
    (mistaken.set "main.extra" "y").bind "main" MainSettings.schema =
      mistaken.bind "main" MainSettings.schema := by
  have hFree : ∀ lead key, ¬ mistaken.Clash "main" lead key := (holds_of_ofEntries rfl).1
  have hOtherFree : ∀ lead key, ¬ (mistaken.set "main.extra" "y").Clash "main" lead key :=
    (holds_of_ofEntries rfl).1
  have hLabels : (["kind", "log_startup_info"] : List String).Nodup := by decide +kernel
  obtain ⟨hGroup, hBelow⟩ := @bind_record
    [⟨"kind", "kind", .optional ApplicationKind.schema, some .absent⟩,
      ⟨"log_startup_info", "log-startup-info", .bool, some (.bool true)⟩]
    hLabels "MainSettings" false
  refine ⟨(hGroup _ ?_).1, rfl, ?_⟩
  · unfold Keyed.Ordered
    decide +kernel
  · refine ((hBelow mistaken "main" hFree).2 rfl _ hOtherFree fun key hNamed => ?_).symm
    rw [get?_set, if_neg]
    intro hKey
    have hName : key = "extra" := String.append_right_inj "main." |>.mp hKey
    subst hName
    obtain ⟨segment, path, hSplit, hKnown⟩ := hNamed
    cases hSplit
    cases hKnown

end Properties

end Startup
