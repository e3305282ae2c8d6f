import Startup.Binding.Settings
import Startup.Reference

/-!
# Beans

A registry holds at most one bean of a type. A bean that is registered replaces the one of its
type. Types are told apart by identity and listed by name.
-/

namespace Startup

/-- A type that something else brings along. Such types are told apart by number, for two of them
may have one name. -/
structure ForeignType where
  index : Nat
  name : String
  deriving DecidableEq, Repr

inductive BeanType where
  | u32
  | u64
  | i32
  | bool
  | char
  | text
  | texts
  | optionalU32
  | unit
  | environment
  | settings
  | foreign (type : ForeignType)
  deriving DecidableEq, Repr

def BeanType.name : BeanType → String
  | u32 => "u32"
  | u64 => "u64"
  | i32 => "i32"
  | bool => "bool"
  | char => "char"
  | text => "alloc::string::String"
  | texts => "alloc::vec::Vec<alloc::string::String>"
  | optionalU32 => "core::option::Option<u32>"
  | unit => "()"
  | environment => "bootcast::environment::Environment"
  | settings => "bootcast::environment::settings::MainSettings"
  | foreign type => type.name

inductive Bean where
  | u32 (value : UInt32)
  | u64 (value : UInt64)
  | i32 (value : Int32)
  | bool (value : Bool)
  | char (value : Char)
  | text (value : String)
  | texts (value : List String)
  | optionalU32 (value : Option UInt32)
  | unit
  | environment (value : Environment)
  | settings (value : MainSettings)
  | foreign (type : ForeignType) (index : Nat)
  deriving DecidableEq, Repr

def Bean.type : Bean → BeanType
  | u32 _ => .u32
  | u64 _ => .u64
  | i32 _ => .i32
  | bool _ => .bool
  | char _ => .char
  | text _ => .text
  | texts _ => .texts
  | optionalU32 _ => .optionalU32
  | unit => .unit
  | environment _ => .environment
  | settings _ => .settings
  | foreign type _ => .foreign type

namespace Bean

/-- Puts a bean behind all whose types have the same name or one that comes before. -/
def insertByName (bean : Bean) : List Bean → List Bean
  | [] => [bean]
  | other :: rest =>
    if other.type.name ≤ bean.type.name then other :: insertByName bean rest
    else bean :: other :: rest

theorem insertByName_perm (bean : Bean) (beans : List Bean) :
    (insertByName bean beans).Perm (bean :: beans) := by
  induction beans with
  | nil => exact List.Perm.refl _
  | cons other rest ih =>
    simp only [insertByName]
    split
    · exact (ih.cons other).trans (List.Perm.swap bean other rest)
    · exact List.Perm.refl _

theorem pairwise_insertByName {bean : Bean} {beans : List Bean}
    (h : beans.Pairwise fun a b => a.type.name ≤ b.type.name) :
    (insertByName bean beans).Pairwise fun a b => a.type.name ≤ b.type.name := by
  induction beans with
  | nil => simp [insertByName]
  | cons other rest ih =>
    obtain ⟨hOther, hRest⟩ := List.pairwise_cons.mp h
    simp only [insertByName]
    split
    · rename_i hName
      refine List.pairwise_cons.mpr ⟨fun later hLater => ?_, ih hRest⟩
      rcases List.mem_cons.mp ((insertByName_perm bean rest).mem_iff.mp hLater) with rfl | hLater
      · exact hName
      · exact hOther later hLater
    · rename_i hName
      have hFirst : bean.type.name ≤ other.type.name := (String.le_total _ _).resolve_left hName
      refine List.pairwise_cons.mpr ⟨fun later hLater => ?_, h⟩
      rcases List.mem_cons.mp hLater with rfl | hLater
      · exact hFirst
      · exact String.le_trans hFirst (hOther later hLater)

end Bean

/-- Beans of different types, in the order of the names of these. -/
structure Beans where
  entries : List Bean
  distinct : entries.Pairwise fun a b => a.type ≠ b.type
  ordered : entries.Pairwise fun a b => a.type.name ≤ b.type.name

namespace Beans

def empty : Beans :=
  ⟨[], .nil, .nil⟩

instance : Inhabited Beans := ⟨empty⟩

def register (beans : Beans) (bean : Bean) : Beans :=
  ⟨bean.insertByName (beans.entries.filter fun other => other.type ≠ bean.type), by
    refine ((Bean.insertByName_perm bean _).pairwise_iff fun h => h.symm).mpr
      (List.pairwise_cons.mpr ⟨fun other hOther => ?_, beans.distinct.filter _⟩)
    exact Ne.symm (by simpa using (List.mem_filter.mp hOther).2),
    Bean.pairwise_insertByName (beans.ordered.filter _)⟩

def find? (beans : Beans) (type : BeanType) : Option Bean :=
  beans.entries.find? fun bean => bean.type = type

def resolve (beans : Beans) (type : BeanType) : Except SetupError Bean :=
  match beans.find? type with
  | some bean => .ok bean
  | none => .error (.beanNotFound type.name)

def contains (beans : Beans) (type : BeanType) : Bool :=
  (beans.find? type).isSome

def typeNames (beans : Beans) : List String :=
  beans.entries.map fun bean => bean.type.name

def size (beans : Beans) : Nat :=
  beans.entries.length

def inspect (beans : Beans) : String :=
  Text.quotedListing beans.typeNames

theorem find?_eq_some_iff {beans : Beans} {type : BeanType} {bean : Bean} :
    beans.find? type = some bean ↔ bean ∈ beans.entries ∧ bean.type = type := by
  constructor
  · intro h
    exact ⟨List.mem_of_find?_eq_some h, by simpa using List.find?_some h⟩
  · rintro ⟨hMem, rfl⟩
    obtain ⟨before, after, hSplit⟩ := List.append_of_mem hMem
    refine List.find?_eq_some_iff_append.mpr
      ⟨by simp, before, after, hSplit, fun other hOther => ?_⟩
    have hDistinct := beans.distinct
    rw [hSplit] at hDistinct
    simpa using (List.pairwise_append.mp hDistinct).2.2 other hOther bean List.mem_cons_self

theorem mem_register {beans : Beans} {bean other : Bean} :
    other ∈ (beans.register bean).entries ↔
      other = bean ∨ other ∈ beans.entries ∧ other.type ≠ bean.type := by
  rw [register, (Bean.insertByName_perm bean _).mem_iff, List.mem_cons, List.mem_filter]
  simp

theorem find?_register (beans : Beans) (bean : Bean) (type : BeanType) :
    (beans.register bean).find? type =
      if type = bean.type then some bean else beans.find? type := by
  apply Option.ext
  intro other
  rw [find?_eq_some_iff, mem_register]
  split
  · rename_i hType
    subst hType
    constructor
    · rintro ⟨rfl | ⟨-, hOther⟩, hType⟩
      · rfl
      · exact absurd hType hOther
    · rintro ⟨⟩
      exact ⟨.inl rfl, rfl⟩
  · rename_i hType
    rw [find?_eq_some_iff]
    constructor
    · rintro ⟨rfl | ⟨hMem, -⟩, rfl⟩
      · exact absurd rfl hType
      · exact ⟨hMem, rfl⟩
    · rintro ⟨hMem, rfl⟩
      exact ⟨.inr ⟨hMem, hType⟩, rfl⟩

end Beans

end Startup
