import Startup.Binding.Settings
import Startup.Proofs.Binding.Record

/-!
# What the settings of a run are read from

The settings of a run are bound below one group, each from the property of its own name, and keep
their defaults where there is no such property. A kind has to be spelled by its name, and the
report of a start is wanted unless its property says something else than that it is.
-/

namespace Startup

theorem PropertyTree.Holds.mem_leaf_iff {children : List (String × PropertyTree)}
    {entries : List (String × String)} (h : Holds children entries) {name text : String}
    (hName : '.' ∉ name.toList) : (name, .leaf text) ∈ children ↔ (name, text) ∈ entries := by
  have hSplit := Text.splitOn_of_not_mem hName
  have hLeaf : (group children).leafAt [name] = some text ↔ (name, .leaf text) ∈ children := by
    rw [leafAt_group_cons_eq_some_iff, ← h.ordered.find?_eq_some_iff]
    constructor
    · rintro ⟨child, hFind, hText⟩
      cases child with
      | group inner => simp at hText
      | leaf found =>
        rw [leafAt_leaf_nil] at hText
        cases hText
        exact hFind
    · intro hFind
      exact ⟨_, hFind, leafAt_leaf_nil text⟩
  rw [← hLeaf, h.leaves]
  constructor
  · rintro ⟨key, hMem, hKey⟩
    rw [← hSplit] at hKey
    exact Text.splitOn_injective hKey ▸ hMem
  · intro hMem
    exact ⟨name, hMem, hSplit⟩

namespace Schema

/-- Whether nothing but a single property can be bound. -/
def TakesLeaves (schema : Schema) : Prop :=
  ∀ children value, schema.bind (.group children) ≠ .ok value

/-- A field that takes a single property has its value from the property of its name, or its default
if there is none. -/
theorem Fills.of_properties {properties : Properties} {group : String}
    {fields : List (Field Schema)} {children : List (String × PropertyTree)} {field : Field Schema}
    {value : Bound} (h : Fills fields children field value)
    (hHolds : PropertyTree.Holds children (properties.below group))
    (hField : fieldOf? fields field.property = some field) (hName : '.' ∉ field.property.toList)
    (hLeaves : field.schema.TakesLeaves) :
    (∃ text, properties.get? (group ++ "." ++ field.property) = some text ∧
      field.schema.bind (.leaf text) = .ok value) ∨
    properties.get? (group ++ "." ++ field.property) = none ∧ field.default = some value := by
  cases h with
  | @entry child _ hTakes hBind =>
    cases child with
    | group inner => exact absurd hBind (hLeaves inner value)
    | leaf text =>
      have hMem := (hHolds.mem_leaf_iff hName).mp hTakes.2
      exact .inl ⟨text, Properties.mem_below_iff_get?.mp hMem, hBind⟩
  | default hNone hDefault =>
    -- a property of that name would be an entry that the field takes
    refine .inr ⟨Option.eq_none_iff_forall_ne_some.mpr fun text hText => ?_, hDefault⟩
    have hMem := (hHolds.mem_leaf_iff hName).mpr (Properties.mem_below_iff_get?.mpr hText)
    exact hNone _ ⟨hField, hMem⟩

end Schema

/-- The kind that the properties name, or the given one if they name none. -/
inductive Properties.NamesKind (properties : Properties) (own : ApplicationKind) :
    ApplicationKind → Prop
  | named (kind : ApplicationKind) (hNamed : properties.get? "main.kind" = some kind.name) :
      NamesKind properties own kind
  | unnamed (hNone : properties.get? "main.kind" = none) : NamesKind properties own own

/-- No property says otherwise than that the start is to be reported. -/
def Properties.WantsReport (properties : Properties) : Prop :=
  ∀ text, properties.get? "main.log-startup-info" = some text →
    Text.trimChars text.toList = "true".toList

namespace MainSettings

def kindField : Field Schema :=
  ⟨"kind", "kind", .optional ApplicationKind.schema, some .absent⟩

def reportField : Field Schema :=
  ⟨"log_startup_info", "log-startup-info", .bool, some (.bool true)⟩

theorem takesLeaves_kind : kindField.schema.TakesLeaves := by
  intro children value h
  cases h

theorem takesLeaves_report : reportField.schema.TakesLeaves := by
  intro children value h
  cases h

theorem bindChoice_inv {text : String} {value : Bound}
    (h : bindChoice (ApplicationKind.all.map fun kind => ⟨kind.name, false⟩) text = .ok value) :
    ∃ kind : ApplicationKind, text = kind.name ∧ value = .choice kind.name := by
  unfold bindChoice at h
  split at h
  · cases h
  · rename_i variant hFind
    obtain ⟨kind, -, rfl⟩ := List.mem_map.mp (List.mem_of_find?_eq_some hFind)
    have hName : kind.name = text := by simpa using List.find?_some hFind
    cases h
    exact ⟨kind, hName.symm, rfl⟩

theorem bind_kind_inv {text : String} {value : Bound}
    (h : kindField.schema.bind (.leaf text) = .ok value) :
    ∃ kind : ApplicationKind, text = kind.name ∧ kindOf? value = some kind := by
  change (bindChoice _ text).map .present = .ok value at h
  cases hChoice : bindChoice (ApplicationKind.all.map fun kind => ⟨kind.name, false⟩) text with
  | error problem =>
    rw [hChoice] at h
    cases h
  | ok bound =>
    obtain ⟨kind, hName, rfl⟩ := bindChoice_inv hChoice
    rw [hChoice] at h
    cases h
    exact ⟨kind, hName, ApplicationKind.ofName?_name kind⟩

theorem bool?_inv {chars : List Char} {b : Bool} (h : Scalar.bool? chars = some b) :
    b = true ↔ chars = "true".toList := by
  unfold Scalar.bool? at h
  split at h
  · rename_i hTrue
    cases h
    exact iff_of_true rfl hTrue
  · rename_i hTrue
    split at h
    · cases h
      exact iff_of_false Bool.false_ne_true hTrue
    · cases h

theorem bind_report_inv {text : String} {value : Bound}
    (h : reportField.schema.bind (.leaf text) = .ok value) :
    ∃ b, value = .bool b ∧ (b = true ↔ Text.trimChars text.toList = "true".toList) := by
  change (PropertyTree.leaf text).scalar _ _ = _ at h
  rw [PropertyTree.scalar] at h
  cases hRead : Scalar.bool? (Text.trimChars text.toList) with
  | none =>
    rw [hRead] at h
    cases h
  | some b =>
    rw [hRead] at h
    cases h
    exact ⟨b, rfl, bool?_inv hRead⟩

theorem fields_of_bind {children : List (String × PropertyTree)} {value : Bound}
    (hOrdered : Keyed.Ordered children) (h : schema.bind (.group children) = .ok value) :
    ∃ kind report, value = .record [("kind", kind), ("log_startup_info", report)] ∧
      Schema.Fills [kindField, reportField] children kindField kind ∧
      Schema.Fills [kindField, reportField] children reportField report := by
  have hOutcome : Schema.Outcome false [kindField, reportField] children
      (schema.bind (.group children)) :=
    Schema.outcome_record (by decide +kernel) hOrdered "MainSettings"
  rw [h] at hOutcome
  cases hOutcome with
  | fits hClear hFilled =>
    cases hFilled with
    | @cons _ first _ _ hKind hRest =>
      cases hRest with
      | @cons _ second _ _ hReport hNil =>
        cases hNil
        obtain ⟨label, kind⟩ := first
        obtain ⟨rfl, hKind⟩ := hKind
        obtain ⟨label, report⟩ := second
        obtain ⟨rfl, hReport⟩ := hReport
        exact ⟨kind, report, rfl, hKind, hReport⟩

theorem ofBound_fields (kind report : Bound) :
    ofBound (.record [("kind", kind), ("log_startup_info", report)]) =
      ⟨kindOf? kind, flagOf true report⟩ := by
  have hOther : "kind" ≠ "log_startup_info" := by decide +kernel
  simp only [ofBound, Keyed.find?_cons, if_pos, if_neg hOther, Option.bind_some, Option.map_some,
    Option.getD_some]

theorem fieldOf?_kind : Schema.fieldOf? [kindField, reportField] "kind" = some kindField :=
  List.find?_cons_of_pos (beq_self_eq_true _)

theorem fieldOf?_report :
    Schema.fieldOf? [kindField, reportField] "log-startup-info" = some reportField := by
  have hOther : ("kind" == "log-startup-info") = false := by decide +kernel
  rw [Schema.fieldOf?, List.find?_cons, kindField, hOther]
  exact List.find?_cons_of_pos (beq_self_eq_true _)

/-- What settings say that were bound is what the properties say. -/
theorem of_settings {properties : Properties} {settings : MainSettings}
    (h : properties.settings = .ok settings) (own : ApplicationKind) :
    properties.NamesKind own (settings.kind.getD own) ∧
      (settings.logStartupInfo = true ↔ properties.WantsReport) := by
  unfold Properties.settings at h
  cases hBind : properties.bind group schema with
  | error problem =>
    rw [hBind] at h
    cases h
  | ok value =>
    rw [hBind] at h
    cases h
    obtain ⟨children, hHolds, hValue⟩ := Properties.bind_ok_inv hBind
    obtain ⟨kind, report, rfl, hKind, hReport⟩ := fields_of_bind hHolds.ordered hValue
    rw [ofBound_fields]
    constructor
    · rcases hKind.of_properties hHolds fieldOf?_kind (by decide +kernel) takesLeaves_kind with
        ⟨text, hText, hRead⟩ | ⟨hNone, hDefault⟩
      · obtain ⟨kind, rfl, hKind⟩ := bind_kind_inv hRead
        rw [hKind]
        exact .named kind hText
      · cases hDefault
        exact .unnamed hNone
    · rcases hReport.of_properties hHolds fieldOf?_report (by decide +kernel)
        takesLeaves_report with ⟨text, hText, hRead⟩ | ⟨hNone, hDefault⟩
      · obtain ⟨b, rfl, hTrue⟩ := bind_report_inv hRead
        refine hTrue.trans ⟨fun hSame other hOther => ?_, fun hWants => hWants text hText⟩
        cases hText.symm.trans hOther
        exact hSame
      · cases hDefault
        refine iff_of_true rfl fun text hText => ?_
        cases hNone.symm.trans hText

end MainSettings

end Startup
