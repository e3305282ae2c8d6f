import Startup.Binding.Problem
import Startup.Binding.Scalar
import Startup.Failure
import Startup.Property.Tree

/-!
# Bind properties

The properties below a group are put into a tree, and the tree is read as a schema wants it.
Entries are visited in the order of their names, and the first problem is the answer.
-/

namespace Startup

mutual

/-- A tree as a document: texts that read as booleans or numbers become such. -/
def PropertyTree.document : PropertyTree → Json
  | leaf text => Json.untyped text
  | group children => .object (PropertyTree.documents children)

def PropertyTree.documents : List (String × PropertyTree) → List (String × Json)
  | [] => []
  | (name, child) :: children => (name, child.document) :: PropertyTree.documents children

end

def PropertyTree.scalar (expected : String) (read : List Char → Option Bound) :
    PropertyTree → Except BindingProblem Bound
  | group _ => .error (.invalidType .map expected)
  | leaf text =>
    match read (Text.trimChars text.toList) with
    | some value => .ok value
    | none => .error (.invalidValue text expected)

def PropertyTree.found : PropertyTree → Found
  | group _ => .map
  | leaf text => .ofText text

/-- Every field takes its bound value, or its default; a required one without either is missing. -/
def completeFields (bound : List (String × Bound)) :
    List (Field Schema) → Except BindingProblem (List (String × Bound))
  | [] => .ok []
  | field :: fields =>
    match (Keyed.find? field.label bound).or field.default with
    | none => .error (.missingField field.property)
    | some value => (completeFields bound fields).map ((field.label, value) :: ·)

def bindChoice (variants : List Variant) (text : String) : Except BindingProblem Bound :=
  match variants.find? fun variant => variant.name == text with
  | none => .error (.unknownVariant text (variants.map Variant.name))
  | some variant =>
    if variant.wrapsValue then .error (.invalidType .name "newtype variant")
    else .ok (.choice variant.name)

mutual

def Schema.bind : Schema → PropertyTree → Except BindingProblem Bound
  | .unit, tree => .error (.invalidType tree.found "unit")
  | .bool, tree => tree.scalar "a boolean" fun text => (Scalar.bool? text).map .bool
  | .integer width, tree =>
    tree.scalar width.name fun text => (Scalar.integer? width text).map .integer
  | .wide isSigned, _ => .error (.unsupported (integerName isSigned 128))
  | .single, tree => tree.scalar "f32" fun text => (Scalar.single? text).map .single
  | .double, tree => tree.scalar "f64" fun text => (Scalar.double? text).map .double
  | .char, tree => tree.scalar "a character" fun text => (Scalar.char? text).map .char
  | .text, .leaf text => .ok (.text text)
  | .text, .group _ => .error (.invalidType .map "a string")
  | .untyped, tree => .ok (.document tree.document)
  | .optional inner, tree => (inner.bind tree).map .present
  | .sequence _, tree => .error (.invalidType tree.found "a sequence")
  | .map _, .leaf text => .error (.invalidType (.ofText text) "a map")
  | .map inner, .group children =>
    (children.mapM fun entry => (inner.bind entry.2).map fun value => (entry.1, value)).map .map
  | .wrapper inner, tree => inner.bind tree
  | .choice name _, .group _ => .error (.invalidType .map ("enum " ++ name))
  | .choice _ variants, .leaf text => bindChoice variants text
  | .record name _ _, .leaf text => .error (.invalidType (.ofText text) ("struct " ++ name))
  | .record _ strict fields, .group children => do
    let entries ← children.mapM fun entry =>
      match bindField fields entry.1 entry.2 with
      | some result => result.map some
      | none =>
        if strict then .error (.unknownField entry.1 (fields.map Field.property)) else .ok none
    (completeFields (entries.filterMap id) fields).map .record

def bindField : List (Field Schema) → String → PropertyTree →
    Option (Except BindingProblem (String × Bound))
  | [], _, _ => none
  | ⟨label, property, schema, _⟩ :: fields, name, child =>
    if property = name then some ((schema.bind child).map fun value => (label, value))
    else bindField fields name child

end

def Properties.bind (properties : Properties) (group : String) (schema : Schema) :
    Except SetupError Bound :=
  match PropertyTree.ofEntries (properties.below group) with
  | .error conflict => .error (.bindingFailed group conflict.message)
  | .ok tree => (schema.bind tree).mapError fun problem => .bindingFailed group problem.message

end Startup
