import Startup.Proofs.Property.Layers

/-!
# Options and plain arguments

Every argument is either plain or an option. The plain ones stay as they are given; the options
decide a property key by key, the last option of the key before all others, and a key without an
option keeps its text. So two lists of arguments may be applied one after the other.
-/

namespace Startup

namespace Argument

/-- No option: a text that does not begin with two hyphens, or that is no more than these. -/
def Plain (argument : String) : Prop :=
  ¬ "--".toList <+: argument.toList ∨ argument = "--"

instance (argument : String) : Decidable (Plain argument) :=
  inferInstanceAs (Decidable (_ ∨ _))

theorem not_plain_iff {argument : String} :
    ¬ Plain argument ↔ ∃ body, argument = "--" ++ body ∧ body ≠ "" := by
  constructor
  · intro hOption
    obtain ⟨hLead, hMore⟩ := not_or.mp hOption
    obtain ⟨chars, hChars⟩ := Decidable.not_not.mp hLead
    have hBody : argument = "--" ++ String.ofList chars := by
      have hRest : (String.ofList chars).toList = chars := String.toList_ofList
      apply String.toList_inj.mp
      rw [String.toList_append, hRest, hChars]
    refine ⟨String.ofList chars, hBody, ?_⟩
    intro hEmpty
    rw [hEmpty] at hBody
    exact hMore hBody
  · rintro ⟨body, rfl, hNonempty⟩ (hLead | hBare)
    · apply hLead
      rw [String.toList_append]
      exact List.prefix_append ..
    · apply hNonempty
      have hChars := congrArg String.toList hBare
      rw [String.toList_append] at hChars
      exact String.toList_inj.mp (List.append_right_eq_self.mp hChars)

theorem exists_assigns {body : String} (h : body ≠ "") :
    ∃ key text, Assigns ("--" ++ body) key text := by
  cases hSplit : Text.splitFirst '=' body with
  | some pieces =>
    obtain ⟨key, text⟩ := pieces
    obtain ⟨rfl, hKey⟩ := splitFirst_equals_iff.mp hSplit
    exact ⟨key, text, .valued key text hKey⟩
  | none => exact ⟨body, "", .bare body (Text.splitFirst_eq_none_iff.mp hSplit) h⟩

theorem Assigns.not_plain {argument key text : String} (h : Assigns argument key text) :
    ¬ Plain argument := by
  apply not_plain_iff.mpr
  cases h with
  | valued _ _ hKey =>
    refine ⟨_, rfl, ?_⟩
    intro hEmpty
    simpa using congrArg String.toList hEmpty
  | bare _ hKey hNonempty => exact ⟨key, rfl, hNonempty⟩

theorem Assigns.unique {argument key text otherKey otherText : String}
    (h : Assigns argument key text) (hOther : Assigns argument otherKey otherText) :
    otherKey = key ∧ otherText = text := by
  have hSame := (assignment?_ofText.mpr hOther).symm.trans (assignment?_ofText.mpr h)
  cases hSame
  exact ⟨rfl, rfl⟩

theorem not_plain_iff_assigns {argument : String} :
    ¬ Plain argument ↔ ∃ key text, Assigns argument key text := by
  constructor
  · intro hOption
    obtain ⟨body, rfl, hNonempty⟩ := not_plain_iff.mp hOption
    exact exists_assigns hNonempty
  · rintro ⟨key, text, hAssigns⟩
    exact hAssigns.not_plain

theorem ofText_of_plain {argument : String} (h : Plain argument) :
    ofText argument = plain argument := by
  unfold ofText
  split
  · rfl
  · rename_i body hBody
    obtain rfl := Text.stripLead_eq_some_iff.mp hBody
    split
    · rfl
    · rename_i hNonempty
      exact absurd h (not_plain_iff.mpr ⟨body, rfl, hNonempty⟩)

theorem plain?_ofText (argument : String) :
    (ofText argument).plain? = if Plain argument then some argument else none := by
  split
  · rename_i hPlain
    rw [ofText_of_plain hPlain]
    rfl
  · rename_i hOption
    obtain ⟨key, text, hAssigns⟩ := not_plain_iff_assigns.mp hOption
    have hAssignment := assignment?_ofText.mpr hAssigns
    cases hArgument : ofText argument with
    | option key text => rfl
    | plain text =>
      rw [hArgument] at hAssignment
      cases hAssignment

theorem plains_eq_filter (arguments : List String) :
    plains arguments = arguments.filter fun argument => Plain argument := by
  induction arguments with
  | nil => rfl
  | cons argument arguments ih =>
    rw [plains, List.filterMap_cons, plain?_ofText, List.filter_cons]
    by_cases hPlain : Plain argument
    · simp only [hPlain, if_true, decide_true]
      exact congrArg _ ih
    · simp only [hPlain, if_false, decide_false]
      exact ih

theorem lookup_assignments_eq_none_iff {arguments : List String} {key : String} :
    (assignments arguments).reverse.lookup key = none ↔ Spare arguments key := by
  constructor
  · exact spare_of_lookup
  · intro hSpare
    apply List.lookup_eq_none_iff.mpr
    intro assignment hMem
    have hOther := spare_iff.mp hSpare assignment (List.mem_reverse.mp hMem)
    exact bne_iff_ne.mpr hOther.symm

theorem lookup_assignments_eq_some_iff {arguments : List String} {key text : String} :
    (assignments arguments).reverse.lookup key = some text ↔ LastAssigns arguments key text := by
  constructor
  · exact lastAssigns_of_lookup
  · rintro ⟨before, argument, after, rfl, hAssigns, hSpare⟩
    have hLater := lookup_assignments_eq_none_iff.mpr hSpare
    have hAssignment := assignment?_ofText.mpr hAssigns
    have hArgument : assignments (argument :: after) = (key, text) :: assignments after := by
      rw [assignments, List.filterMap_cons, hAssignment]
      rfl
    rw [assignments_append, hArgument, List.reverse_append, List.reverse_cons, List.append_assoc,
      List.lookup_append, hLater, Option.none_or, List.singleton_append, List.lookup_cons_self]

theorem spare_append_iff {earlier later : List String} {key : String} :
    Spare (earlier ++ later) key ↔ Spare earlier key ∧ Spare later key :=
  List.forall_mem_append

theorem lastAssigns_append_iff {earlier later : List String} {key text : String} :
    LastAssigns (earlier ++ later) key text ↔
      LastAssigns later key text ∨ Spare later key ∧ LastAssigns earlier key text := by
  rw [← lookup_assignments_eq_some_iff, ← lookup_assignments_eq_some_iff,
    ← lookup_assignments_eq_some_iff, ← lookup_assignments_eq_none_iff, assignments_append,
    List.reverse_append, List.lookup_append, Option.or_eq_some_iff]

theorem spare_or_lastAssigns (arguments : List String) (key : String) :
    Spare arguments key ∨ ∃ text, LastAssigns arguments key text := by
  cases hLast : (assignments arguments).reverse.lookup key with
  | none => exact .inl (spare_of_lookup hLast)
  | some text => exact .inr ⟨text, lastAssigns_of_lookup hLast⟩

/-- What some arguments make of properties, and which of them are left over. -/
structure Applies (arguments : List String) (before after : Properties) (rest : List String) :
    Prop where
  plain : rest = arguments.filter fun argument => Plain argument
  assigned {key text : String} (hLast : LastAssigns arguments key text) :
    after.get? key = some text
  kept {key : String} (hSpare : Spare arguments key) : after.get? key = before.get? key

theorem applies_setAll (arguments : List String) (properties : Properties) :
    Applies arguments properties (properties.setAll (assignments arguments)) (plains arguments) where
  plain := plains_eq_filter arguments
  assigned := by
    intro key text hLast
    rw [Properties.get?_setAll_lookup, lookup_assignments_eq_some_iff.mpr hLast, Option.some_or]
  kept := by
    intro key hSpare
    rw [Properties.get?_setAll_lookup, lookup_assignments_eq_none_iff.mpr hSpare, Option.none_or]

theorem applies_option (key text : String) (hKey : '=' ∉ key.toList) (properties : Properties) :
    Applies ["--" ++ (key ++ "=" ++ text)] properties (properties.set key text) [] := by
  have hApplied := applies_setAll ["--" ++ (key ++ "=" ++ text)] properties
  have hOption := (Assigns.valued key text hKey).not_plain
  have hRest : plains ["--" ++ (key ++ "=" ++ text)] = [] := by
    rw [plains_eq_filter, List.filter_cons_of_neg (by rwa [decide_eq_true_iff]), List.filter_nil]
  rwa [assignments_option key text hKey, hRest] at hApplied

namespace Applies

variable {arguments earlier later rest left right : List String}
variable {before between after other : Properties}

/-- Nothing else can come of the arguments. -/
theorem unique (h : Applies arguments before after rest)
    (hOther : Applies arguments before other left) : other = after ∧ left = rest := by
  refine ⟨?_, hOther.plain.trans h.plain.symm⟩
  ext1 key
  obtain hSpare | ⟨text, hLast⟩ := spare_or_lastAssigns arguments key
  · rw [h.kept hSpare, hOther.kept hSpare]
  · rw [h.assigned hLast, hOther.assigned hLast]

theorem eq_setAll (h : Applies arguments before after rest) :
    after = before.setAll (assignments arguments) ∧ rest = plains arguments :=
  (applies_setAll arguments before).unique h

theorem append (hEarlier : Applies earlier before between left)
    (hLater : Applies later between after right) :
    Applies (earlier ++ later) before after (left ++ right) where
  plain := by rw [List.filter_append, hEarlier.plain, hLater.plain]
  assigned := by
    intro key text hLast
    obtain hLast | ⟨hSpare, hLast⟩ := lastAssigns_append_iff.mp hLast
    · exact hLater.assigned hLast
    · rw [hLater.kept hSpare, hEarlier.assigned hLast]
  kept := by
    intro key hSpare
    obtain ⟨hSpareEarlier, hSpareLater⟩ := spare_append_iff.mp hSpare
    rw [hLater.kept hSpareLater, hEarlier.kept hSpareEarlier]

end Applies

end Argument

namespace Environment

open Argument

variable {σ : Type}

/-- An environment comes of the preparation, and its store then holds the properties. -/
def Prepares (defaults : List (String × String)) (system : Option (List (String × String)))
    (arguments : List String) (w : World σ) (environment : Environment)
    (properties : Properties) : Prop :=
  ∃ w', prepare defaults system arguments w = some (.ok environment, w') ∧
    w'.stores[environment.store.index]? = some properties

theorem prepares_of_ok {defaults : List (String × String)}
    {system : Option (List (String × String))} {arguments : List String}
    {properties : Properties}
    (h : Properties.prepare defaults system arguments = .ok properties) (w : World σ) :
    Prepares defaults system arguments w ⟨⟨w.stores.length⟩, plains arguments⟩ properties := by
  rw [Prepares, prepare, h]
  exact ⟨_, rfl, List.getElem?_concat_length⟩

/-- Arguments that are not plain are options, with one key and one text each. All of them are
applied to the properties below, those of a longer list one part after the other, and what is plain
is left over in its order. An option for a key sets that key and nothing else. -/
theorem prepare_options (defaults : List (String × String))
    (system : Option (List (String × String))) (lower : Properties)
    (hLower : Properties.prepare defaults system [] = .ok lower) (w : World σ) :
    (∀ argument, ¬ Plain argument → ∃ key text, Assigns argument key text ∧
      ∀ otherKey otherText, Assigns argument otherKey otherText →
        otherKey = key ∧ otherText = text) ∧
    (∀ arguments, ∃ environment properties,
      Prepares defaults system arguments w environment properties ∧
        Applies arguments lower properties environment.arguments) ∧
    (∀ earlier later, ∃ first between whole after rest,
      Prepares defaults system earlier w first between ∧
        Prepares defaults system (earlier ++ later) w whole after ∧
        Applies later between after rest ∧ whole.arguments = first.arguments ++ rest) ∧
    ∀ arguments key text, '=' ∉ key.toList → ∃ environment properties longer,
      Prepares defaults system arguments w environment properties ∧
        Prepares defaults system (arguments ++ ["--" ++ (key ++ "=" ++ text)]) w longer
          (properties.set key text) ∧
        longer.arguments = environment.arguments := by
  -- whatever the arguments make of the properties below, the environment comes of it
  have hPrepares : ∀ {arguments properties rest}, Applies arguments lower properties rest →
      Prepares defaults system arguments w ⟨⟨w.stores.length⟩, rest⟩ properties := by
    intro arguments properties rest hApplies
    obtain ⟨rfl, rfl⟩ := hApplies.eq_setAll
    have hAppend := Properties.prepare_append defaults system [] arguments
    rw [hLower] at hAppend
    exact prepares_of_ok hAppend w
  refine ⟨?_, ?_, ?_, ?_⟩
  · intro argument hOption
    obtain ⟨key, text, hAssigns⟩ := not_plain_iff_assigns.mp hOption
    exact ⟨key, text, hAssigns, fun _ _ hOther => hAssigns.unique hOther⟩
  · intro arguments
    have hApplies := applies_setAll arguments lower
    exact ⟨_, _, hPrepares hApplies, hApplies⟩
  · intro earlier later
    have hEarlier := applies_setAll earlier lower
    have hLater := applies_setAll later (lower.setAll (assignments earlier))
    exact ⟨_, _, _, _, _, hPrepares hEarlier, hPrepares (hEarlier.append hLater), hLater, rfl⟩
  · intro arguments key text hKey
    have hApplies := applies_setAll arguments lower
    have hOption := applies_option key text hKey (lower.setAll (assignments arguments))
    exact ⟨_, _, _, hPrepares hApplies, hPrepares (hApplies.append hOption), List.append_nil _⟩

/-- One argument of every shape, with a key twice. -/
def assorted : List String :=
  ["serve", "--a=b=c", "--", "--a", "--=v", "-k", "serve", "--b="]

theorem prepare_options_assorted :
    ∃ environment properties,
      Prepares [("a", "low"), ("c", "low")] none assorted (default : World Unit) environment
        properties ∧
      environment.arguments = ["serve", "--", "-k", "serve"] ∧
      properties.get? "a" = some "" ∧ properties.get? "" = some "v" ∧
      properties.get? "b" = some "" ∧ properties.get? "c" = some "low" := by
  have hLower : Properties.prepare [("a", "low"), ("c", "low")] none [] =
      .ok (.ofPairs [("a", "low"), ("c", "low")]) := by
    rfl
  obtain ⟨-, hApplied, -⟩ := prepare_options _ none _ hLower (default : World Unit)
  obtain ⟨environment, properties, hPrepares, hApplies⟩ := hApplied assorted
  refine ⟨environment, properties, hPrepares, ?_, ?_, ?_, ?_, ?_⟩
  · exact hApplies.plain.trans (by decide +kernel)
  · exact hApplies.assigned (lastAssigns_of_lookup (by decide +kernel))
  · exact hApplies.assigned (lastAssigns_of_lookup (by decide +kernel))
  · exact hApplies.assigned (lastAssigns_of_lookup (by decide +kernel))
  · exact (hApplies.kept (spare_of_lookup (by decide +kernel))).trans (by decide +kernel)

end Environment

end Startup
