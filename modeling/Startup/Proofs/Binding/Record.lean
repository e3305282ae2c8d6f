import Mathlib.Data.List.Nodup
import Startup.Proofs.Binding.Locality

/-!
# Records and their problems

A record takes the entries that have the names of its fields. Its problem is that of the first
entry that does not fit, in the order of names; if all fit, it is the first field without a value,
in the order of declaration. Entries with other names do not count, unless the record is strict.
-/

namespace Startup

namespace Schema

variable {strict : Bool} {fields : List (Field Schema)} {field : Field Schema}
  {children : List (String × PropertyTree)} {entry : String × PropertyTree}
  {problem : BindingProblem}

/-- The field that takes the entry of a name. -/
def fieldOf? (fields : List (Field Schema)) (name : String) : Option (Field Schema) :=
  fields.find? fun field => field.property == name

theorem mem_of_fieldOf? {name : String} (h : fieldOf? fields name = some field) :
    field ∈ fields ∧ field.property = name :=
  ⟨List.mem_of_find?_eq_some h, by simpa using List.find?_some h⟩

theorem bindField_eq (fields : List (Field Schema)) (name : String) (child : PropertyTree) :
    bindField fields name child = (fieldOf? fields name).map fun field =>
      (field.schema.bind child).map fun value => (field.label, value) := by
  induction fields with
  | nil => rw [bindField, fieldOf?, List.find?_nil, Option.map_none]
  | cons field fields ih =>
    rw [bindField, ih, fieldOf?, fieldOf?, List.find?_cons]
    by_cases hName : field.property = name
    · simp [hName]
    · have hOther : (field.property == name) = false := beq_eq_false_iff_ne.mpr hName
      rw [if_neg hName, hOther]

/-- Why an entry does not fit into a record. -/
inductive Offends (strict : Bool) (fields : List (Field Schema))
    (entry : String × PropertyTree) : BindingProblem → Prop
  | unfit {field : Field Schema} {problem : BindingProblem}
      (hField : fieldOf? fields entry.1 = some field)
      (hBind : field.schema.bind entry.2 = .error problem) : Offends strict fields entry problem
  | unknown (hStrict : strict = true) (hField : fieldOf? fields entry.1 = none) :
      Offends strict fields entry (.unknownField entry.1 (fields.map Field.property))

/-- What an entry adds to the fields, nothing if no field has its name. -/
def visit (strict : Bool) (fields : List (Field Schema)) (entry : String × PropertyTree) :
    Except BindingProblem (Option (String × Bound)) :=
  match bindField fields entry.1 entry.2 with
  | some result => result.map some
  | none =>
    if strict then .error (.unknownField entry.1 (fields.map Field.property)) else .ok none

theorem bind_record_group (name : String) (strict : Bool) (fields : List (Field Schema))
    (children : List (String × PropertyTree)) :
    (Schema.record name strict fields).bind (.group children) =
      ((children.mapM (visit strict fields)).map (List.filterMap id)).bind fun bound =>
        (completeFields bound fields).map .record := by
  rw [Schema.bind]
  change (children.mapM (visit strict fields)).bind _ = _
  cases children.mapM (visit strict fields) <;> rfl

theorem visit_of_field (h : fieldOf? fields entry.1 = some field) :
    visit strict fields entry =
      (field.schema.bind entry.2).map fun value => some (field.label, value) := by
  rw [visit, bindField_eq, h, Option.map_some]
  cases field.schema.bind entry.2 <;> rfl

theorem visit_of_no_field (h : fieldOf? fields entry.1 = none) : visit strict fields entry =
    if strict then .error (.unknownField entry.1 (fields.map Field.property)) else .ok none := by
  rw [visit, bindField_eq, h]
  rfl

theorem visit_eq_error_iff :
    visit strict fields entry = .error problem ↔ Offends strict fields entry problem := by
  constructor
  · intro h
    cases hField : fieldOf? fields entry.1 with
    | some field =>
      rw [visit_of_field hField] at h
      cases hBind : field.schema.bind entry.2 with
      | ok value =>
        rw [hBind] at h
        cases h
      | error found =>
        rw [hBind] at h
        cases h
        exact .unfit hField hBind
    | none =>
      rw [visit_of_no_field hField] at h
      split at h
      · cases h
        exact .unknown ‹_› hField
      · cases h
  · intro h
    cases h with
    | unfit hField hBind =>
      rw [visit_of_field hField, hBind]
      rfl
    | unknown hStrict hField => rw [visit_of_no_field hField, if_pos hStrict]

theorem visit_eq_some_iff {label : String} {value : Bound} :
    visit strict fields entry = .ok (some (label, value)) ↔
      ∃ field, fieldOf? fields entry.1 = some field ∧ field.label = label ∧
        field.schema.bind entry.2 = .ok value := by
  cases hField : fieldOf? fields entry.1 with
  | some field =>
    rw [visit_of_field hField]
    cases hBind : field.schema.bind entry.2 <;> simp [Except.map, hBind]
  | none =>
    rw [visit_of_no_field hField]
    cases strict <;> simp

/-- A field takes the entry that has the name of its property. -/
def Takes (fields : List (Field Schema)) (children : List (String × PropertyTree))
    (field : Field Schema) (child : PropertyTree) : Prop :=
  fieldOf? fields field.property = some field ∧ (field.property, child) ∈ children

/-- The value of a field is that of its entry, or its default if it takes no entry. -/
inductive Fills (fields : List (Field Schema)) (children : List (String × PropertyTree))
    (field : Field Schema) : Bound → Prop
  | entry {child : PropertyTree} {value : Bound} (hTakes : Takes fields children field child)
      (hBind : field.schema.bind child = .ok value) : Fills fields children field value
  | default {value : Bound} (hNone : ∀ child, ¬ Takes fields children field child)
      (hDefault : field.default = some value) : Fills fields children field value

def Lacks (fields : List (Field Schema)) (children : List (String × PropertyTree))
    (field : Field Schema) : Prop :=
  field.default = none ∧ ∀ child, ¬ Takes fields children field child

theorem Fills.not_lacks {value : Bound} (h : Fills fields children field value) :
    ¬ Lacks fields children field := by
  rintro ⟨hDefault, hNone⟩
  cases h with
  | entry hTakes => exact hNone _ hTakes
  | default _ hValue => simp [hDefault] at hValue

def settle (bound : List (String × Bound)) (field : Field Schema) :
    Except BindingProblem (String × Bound) :=
  match (Keyed.find? field.label bound).or field.default with
  | none => .error (.missingField field.property)
  | some value => .ok (field.label, value)

theorem completeFields_eq_mapM (bound : List (String × Bound)) (fields : List (Field Schema)) :
    completeFields bound fields = fields.mapM (settle bound) := by
  induction fields with
  | nil => rfl
  | cons field fields ih =>
    rw [List.mapM_cons, completeFields, ih, settle]
    cases (Keyed.find? field.label bound).or field.default with
    | none => rfl
    | some value => cases fields.mapM (settle bound) <;> rfl

section Visited

variable {visited : List (Option (String × Bound))}
  (hVisited : children.mapM (visit strict fields) = .ok visited)

include hVisited

theorem not_offends_of_visited (hEntry : entry ∈ children) :
    ¬ Offends strict fields entry problem := by
  obtain ⟨slot, hSlot⟩ := exists_of_mapM_eq_ok hVisited hEntry
  rw [← visit_eq_error_iff, hSlot]
  exact nofun

theorem mem_visited_iff {label : String} {value : Bound} :
    (label, value) ∈ visited.filterMap id ↔ ∃ entry ∈ children, ∃ field,
      fieldOf? fields entry.1 = some field ∧ field.label = label ∧
        field.schema.bind entry.2 = .ok value := by
  rw [List.mem_filterMap]
  simp only [id, exists_eq_right, mem_of_mapM_eq_ok hVisited, visit_eq_some_iff]

variable (hLabels : (fields.map Field.label).Nodup)

include hLabels

theorem mem_visited_label_iff (hField : field ∈ fields) {value : Bound} :
    (field.label, value) ∈ visited.filterMap id ↔
      ∃ child, Takes fields children field child ∧ field.schema.bind child = .ok value := by
  rw [mem_visited_iff hVisited]
  constructor
  · rintro ⟨⟨name, child⟩, hEntry, other, hOther, hLabel, hBind⟩
    obtain ⟨hMem, rfl⟩ := mem_of_fieldOf? hOther
    cases List.inj_on_of_nodup_map hLabels hMem hField hLabel
    exact ⟨child, ⟨hOther, hEntry⟩, hBind⟩
  · rintro ⟨child, ⟨hTaken, hEntry⟩, hBind⟩
    exact ⟨_, hEntry, field, hTaken, rfl, hBind⟩

variable (hOrdered : Keyed.Ordered children)

include hOrdered

theorem single_visited : Keyed.Single (visited.filterMap id) := by
  intro label a b hA hB
  obtain ⟨_, -, field, hField, rfl, -⟩ := (mem_visited_iff hVisited).mp hA
  have hMem := (mem_of_fieldOf? hField).1
  -- a label tells the field, and the name of its property the entry
  rw [mem_visited_label_iff hVisited hLabels hMem] at hA hB
  obtain ⟨first, ⟨-, hFirst⟩, hA⟩ := hA
  obtain ⟨second, ⟨-, hSecond⟩, hB⟩ := hB
  cases hOrdered.single _ _ _ hFirst hSecond
  exact Except.ok.inj (hA.symm.trans hB)

theorem find?_visited_iff (hField : field ∈ fields) {value : Bound} :
    Keyed.find? field.label (visited.filterMap id) = some value ↔
      ∃ child, Takes fields children field child ∧ field.schema.bind child = .ok value := by
  rw [(single_visited hVisited hLabels hOrdered).find?_eq_some_iff,
    mem_visited_label_iff hVisited hLabels hField]

theorem find?_visited_eq_none_iff (hField : field ∈ fields) :
    Keyed.find? field.label (visited.filterMap id) = none ↔
      ∀ child, ¬ Takes fields children field child := by
  rw [Option.eq_none_iff_forall_ne_some]
  constructor
  · intro hNone child hTakes
    obtain ⟨slot, hSlot⟩ := exists_of_mapM_eq_ok hVisited hTakes.2
    cases hBind : field.schema.bind child with
    | ok value =>
      exact hNone value ((find?_visited_iff hVisited hLabels hOrdered hField).mpr
        ⟨child, hTakes, hBind⟩)
    | error problem =>
      exact not_offends_of_visited hVisited hTakes.2 (.unfit hTakes.1 hBind)
  · intro hNone value hFind
    obtain ⟨child, hTakes, -⟩ := (find?_visited_iff hVisited hLabels hOrdered hField).mp hFind
    exact hNone child hTakes

theorem settle_visited (hField : field ∈ fields) :
    (∃ value, settle (visited.filterMap id) field = .ok (field.label, value) ∧
      Fills fields children field value) ∨
    settle (visited.filterMap id) field = .error (.missingField field.property) ∧
      Lacks fields children field := by
  rw [settle]
  cases hFind : Keyed.find? field.label (visited.filterMap id) with
  | some value =>
    obtain ⟨child, hTakes, hBind⟩ := (find?_visited_iff hVisited hLabels hOrdered hField).mp hFind
    exact .inl ⟨value, rfl, .entry hTakes hBind⟩
  | none =>
    rw [find?_visited_eq_none_iff hVisited hLabels hOrdered hField] at hFind
    rw [Option.none_or]
    cases hDefault : field.default with
    | some value => exact .inl ⟨value, rfl, .default hFind hDefault⟩
    | none => exact .inr ⟨rfl, hDefault, hFind⟩

end Visited

/-- What becomes of a record: its fields with their values if no entry offends, the problem of the
first entry that does, or the first field without a value. -/
inductive Outcome (strict : Bool) (fields : List (Field Schema))
    (children : List (String × PropertyTree)) : Except BindingProblem Bound → Prop
  | fits {pairs : List (String × Bound)}
      (clear : ∀ entry ∈ children, ∀ problem, ¬ Offends strict fields entry problem)
      (filled : List.Forall₂ (fun field pair => pair.1 = field.label ∧
        Fills fields children field pair.2) fields pairs) :
      Outcome strict fields children (.ok (.record pairs))
  | offence {entry : String × PropertyTree} {problem : BindingProblem}
      (visited : entry ∈ children) (offends : Offends strict fields entry problem)
      (first : ∀ other ∈ children, ∀ found, Offends strict fields other found →
        entry.1 ≤ other.1) : Outcome strict fields children (.error problem)
  | missing {before after : List (Field Schema)} {field : Field Schema}
      (clear : ∀ entry ∈ children, ∀ problem, ¬ Offends strict fields entry problem)
      (split : fields = before ++ field :: after) (lacks : Lacks fields children field)
      (first : ∀ other ∈ before, ¬ Lacks fields children other) :
      Outcome strict fields children (.error (.missingField field.property))

theorem outcome_of_visit_error (hOrdered : Keyed.Ordered children)
    (h : children.mapM (visit strict fields) = .error problem) :
    Outcome strict fields children (.error problem) := by
  obtain ⟨before, entry, after, rfl, hBefore, hEntry⟩ := mapM_error_inv h
  refine .offence (List.mem_append_right _ List.mem_cons_self) (visit_eq_error_iff.mp hEntry) ?_
  intro other hOther found hOffends
  refine String.not_lt.mp fun hLess => ?_
  obtain ⟨slot, hSlot⟩ := hBefore other (hOrdered.mem_before_of_lt hOther hLess)
  rw [← visit_eq_error_iff, hSlot] at hOffends
  cases hOffends

theorem outcome_of_visited {visited : List (Option (String × Bound))}
    (hVisited : children.mapM (visit strict fields) = .ok visited)
    (hLabels : (fields.map Field.label).Nodup) (hOrdered : Keyed.Ordered children) :
    Outcome strict fields children
      ((completeFields (visited.filterMap id) fields).map .record) := by
  have hClear : ∀ entry ∈ children, ∀ problem, ¬ Offends strict fields entry problem :=
    fun entry hEntry problem => not_offends_of_visited hVisited hEntry
  have hSettle {field : Field Schema} (hField : field ∈ fields) :=
    settle_visited hVisited hLabels hOrdered hField
  rw [completeFields_eq_mapM]
  cases hSettled : fields.mapM (settle (visited.filterMap id)) with
  | error problem =>
    obtain ⟨before, field, after, hSplit, hBefore, hField⟩ := mapM_error_inv hSettled
    rcases hSettle (hSplit ▸ List.mem_append_right _ List.mem_cons_self) with
      ⟨value, hValue, -⟩ | ⟨hMissing, hLacks⟩
    · cases hField.symm.trans hValue
    · cases hMissing.symm.trans hField
      refine .missing hClear hSplit hLacks fun other hOther hNone => ?_
      obtain ⟨pair, hPair⟩ := hBefore other hOther
      rcases hSettle (hSplit ▸ List.mem_append_left _ hOther) with ⟨value, -, hFills⟩ | ⟨hError, -⟩
      · exact hFills.not_lacks hNone
      · cases hPair.symm.trans hError
  | ok pairs =>
    have hPairs : List.Forall₂ (fun field pair => field ∈ fields ∧
        settle (visited.filterMap id) field = .ok pair) fields pairs :=
      (List.forall₂_and_left _ _).mpr ⟨fun _ hField => hField, mapM_eq_ok_iff.mp hSettled⟩
    refine .fits hClear (hPairs.imp ?_)
    rintro field pair ⟨hField, hPair⟩
    rcases hSettle hField with ⟨value, hValue, hFills⟩ | ⟨hError, -⟩
    · cases hValue.symm.trans hPair
      exact ⟨rfl, hFills⟩
    · cases hPair.symm.trans hError

theorem outcome_record (hLabels : (fields.map Field.label).Nodup)
    (hOrdered : Keyed.Ordered children) (name : String) :
    Outcome strict fields children ((Schema.record name strict fields).bind (.group children)) := by
  rw [bind_record_group]
  cases hVisited : children.mapM (visit strict fields) with
  | error problem => exact outcome_of_visit_error hOrdered hVisited
  | ok visited => exact outcome_of_visited hVisited hLabels hOrdered

/-- Every entry with the name of a field fits it, every required field takes an entry, and a strict
record has a field for each entry. -/
structure Suits (strict : Bool) (fields : List (Field Schema))
    (children : List (String × PropertyTree)) : Prop where
  fits : ∀ entry ∈ children, ∀ field, fieldOf? fields entry.1 = some field →
    ∃ value, field.schema.bind entry.2 = .ok value
  required : ∀ field ∈ fields, field.default = none → ∃ child, Takes fields children field child
  known : strict = true → ∀ entry ∈ children, ∃ field, fieldOf? fields entry.1 = some field

theorem Suits.not_offends (h : Suits strict fields children) (hEntry : entry ∈ children) :
    ¬ Offends strict fields entry problem := by
  intro hOffends
  cases hOffends with
  | unfit hField hBind =>
    obtain ⟨value, hValue⟩ := h.fits _ hEntry _ hField
    cases hBind.symm.trans hValue
  | unknown hStrict hNone =>
    obtain ⟨field, hField⟩ := h.known hStrict _ hEntry
    cases hNone.symm.trans hField

theorem Suits.not_lacks (h : Suits strict fields children) (hField : field ∈ fields) :
    ¬ Lacks fields children field := by
  rintro ⟨hDefault, hNone⟩
  obtain ⟨child, hTakes⟩ := h.required _ hField hDefault
  exact hNone child hTakes

theorem suits_of_filled {pairs : List (String × Bound)}
    (hClear : ∀ entry ∈ children, ∀ problem, ¬ Offends strict fields entry problem)
    (hFilled : List.Forall₂ (fun field pair => pair.1 = field.label ∧
      Fills fields children field pair.2) fields pairs) : Suits strict fields children where
  fits entry hEntry field hField := by
    cases hBind : field.schema.bind entry.2 with
    | ok value => exact ⟨value, rfl⟩
    | error problem => exact absurd (.unfit hField hBind) (hClear entry hEntry problem)
  required field hField hDefault := by
    obtain ⟨pair, -, hFills⟩ := exists_of_forall₂ hFilled hField
    cases hFills with
    | entry hTakes => exact ⟨_, hTakes⟩
    | default _ hValue => cases hDefault.symm.trans hValue
  known hStrict entry hEntry := by
    cases hField : fieldOf? fields entry.1 with
    | some field => exact ⟨field, rfl⟩
    | none => exact absurd (.unknown hStrict hField) (hClear entry hEntry _)

theorem Outcome.suits_iff {result : Except BindingProblem Bound}
    (h : Outcome strict fields children result) :
    (∃ value, result = .ok value) ↔ Suits strict fields children := by
  cases h with
  | fits hClear hFilled => exact ⟨fun _ => suits_of_filled hClear hFilled, fun _ => ⟨_, rfl⟩⟩
  | offence hEntry hOffends => exact ⟨nofun, fun h => absurd hOffends (h.not_offends hEntry)⟩
  | missing hClear hSplit hLacks =>
    have hField := hSplit ▸ List.mem_append_right _ List.mem_cons_self
    exact ⟨nofun, fun h => absurd hLacks (h.not_lacks hField)⟩

theorem bind_record_single (owner : String) (strict : Bool) (name : String) (inner : Schema)
    (child : PropertyTree) :
    (Schema.record owner strict [.plain name inner]).bind (.group [(name, child)]) =
      (inner.bind child).map fun value => .record [(name, value)] := by
  have hField : fieldOf? [Field.plain name inner] name = some (.plain name inner) :=
    List.find?_cons_of_pos (beq_self_eq_true name)
  have hComplete (value : Bound) :
      completeFields [(name, value)] [.plain name inner] = .ok [(name, value)] := by
    have hFind : Keyed.find? name [(name, value)] = some value := by
      rw [Keyed.find?_cons, if_pos rfl]
    rw [completeFields, Field.plain, hFind]
    rfl
  rw [bind_record_group, mapM_filterMap_cons, visit_of_field hField]
  change ((Except.map _ (inner.bind child)).bind _).bind _ = _
  cases inner.bind child with
  | error problem => rfl
  | ok value =>
    change (completeFields [(name, value)] [.plain name inner]).map Bound.record = _
    rw [hComplete]
    rfl

end Schema

theorem Properties.bind_single {name : String} (hName : '.' ∉ name.toList) (group shown : String)
    (owner : String) (strict : Bool) (inner : Schema) :
    (empty.set (group ++ "." ++ name) shown).bind group (.record owner strict [.plain name inner]) =
      ((inner.bind (.leaf shown)).map fun value => .record [(name, value)]).mapError fun problem =>
        .bindingFailed group problem.message := by
  rw [bind, below_single, PropertyTree.ofEntries_single hName]
  simp only [Schema.bind_record_single]

end Startup
