import Mathlib.Data.List.Dedup
import Startup.Context.Builder
import Startup.Proofs.Effect.Enlisting

/-!
# Contexts built step by step

Each step of a building changes one part of the context, so a part is what the steps for it make of
it: the last kind and the last display name count, listeners come one behind the other, and of each
type there is the bean that was given last. Where a kind or a display name is set among the steps
that register something makes no difference, to the world around the context either.
-/

namespace Startup

variable {σ : Type}

/-- The last one of some beans that is of a type. -/
def Bean.LastOf (type : BeanType) (beans : List Bean) (bean : Bean) : Prop :=
  ∃ before after, beans = before ++ bean :: after ∧ bean.type = type ∧
    ∀ later ∈ after, later.type ≠ type

theorem Bean.lastOf_cons_iff {type : BeanType} {first bean : Bean} {beans : List Bean} :
    LastOf type (first :: beans) bean ↔ LastOf type beans bean ∨
      (first = bean ∧ bean.type = type ∧ ∀ later ∈ beans, later.type ≠ type) := by
  constructor
  · rintro ⟨before, after, hSplit, hType, hLater⟩
    cases before with
    | nil =>
      obtain ⟨rfl, rfl⟩ := List.cons.inj hSplit
      exact .inr ⟨rfl, hType, hLater⟩
    | cons other before =>
      obtain ⟨rfl, rfl⟩ := List.cons.inj hSplit
      exact .inl ⟨before, after, rfl, hType, hLater⟩
  · rintro (⟨before, after, rfl, hType, hLater⟩ | ⟨rfl, hType, hLater⟩)
    · exact ⟨first :: before, after, rfl, hType, hLater⟩
    · exact ⟨[], beans, rfl, hType, hLater⟩

namespace Beans

def registerAll (beans : Beans) (added : List Bean) : Beans :=
  added.foldl register beans

def types (beans : Beans) : List BeanType :=
  beans.entries.map Bean.type

variable {beans : Beans} {added : List Bean} {type : BeanType} {bean : Bean}

theorem find?_registerAll_iff : (beans.registerAll added).find? type = some bean ↔
    Bean.LastOf type added bean ∨
      (∀ other ∈ added, other.type ≠ type) ∧ beans.find? type = some bean := by
  induction added generalizing beans with
  | nil => simp [registerAll, Bean.LastOf]
  | cons first added ih =>
    have hFirst : beans.registerAll (first :: added) = (beans.register first).registerAll added :=
      rfl
    rw [hFirst, ih, find?_register, Bean.lastOf_cons_iff, or_assoc, List.forall_mem_cons]
    by_cases hType : type = first.type
    · subst hType
      simp only [if_true, Option.some.injEq, ne_eq, not_true, false_and, or_false]
      constructor
      · rintro (hLast | ⟨hOthers, rfl⟩)
        · exact .inl hLast
        · exact .inr ⟨rfl, rfl, hOthers⟩
      · rintro (hLast | ⟨rfl, -, hOthers⟩)
        · exact .inl hLast
        · exact .inr ⟨hOthers, rfl⟩
    · simp only [if_neg hType]
      constructor
      · rintro (hLast | ⟨hOthers, hOld⟩)
        · exact .inl hLast
        · exact .inr (.inr ⟨⟨Ne.symm hType, hOthers⟩, hOld⟩)
      · rintro (hLast | ⟨rfl, hSame, -⟩ | ⟨⟨-, hOthers⟩, hOld⟩)
        · exact .inl hLast
        · exact absurd hSame.symm hType
        · exact .inr ⟨hOthers, hOld⟩

theorem find?_registerAll_of_forall_ne (h : ∀ other ∈ added, other.type ≠ type) :
    (beans.registerAll added).find? type = beans.find? type := by
  apply Option.ext
  intro bean
  rw [find?_registerAll_iff]
  constructor
  · rintro (⟨before, after, rfl, hType, -⟩ | ⟨-, hOld⟩)
    · exact absurd hType (h bean (by simp))
    · exact hOld
  · exact fun hOld => .inr ⟨h, hOld⟩

theorem resolve_eq_ok_iff : beans.resolve type = .ok bean ↔ beans.find? type = some bean := by
  rw [resolve]
  cases beans.find? type <;> simp

theorem resolve_eq_error_of_none (h : beans.find? type = none) :
    beans.resolve type = .error (.beanNotFound type.name) := by
  rw [resolve, h]

theorem resolve_congr {others : Beans} (h : beans.find? type = others.find? type) :
    beans.resolve type = others.resolve type := by
  rw [resolve, resolve, h]

theorem mem_types_registerAll :
    type ∈ (beans.registerAll added).types ↔ type ∈ added.map Bean.type ∨ type ∈ beans.types := by
  induction added generalizing beans with
  | nil => simp [registerAll]
  | cons first added ih =>
    have hFirst : type ∈ (beans.register first).types ↔ type = first.type ∨ type ∈ beans.types := by
      simp only [types, List.mem_map, mem_register]
      grind
    change type ∈ ((beans.register first).registerAll added).types ↔ _
    rw [ih, hFirst, List.map_cons, List.mem_cons]
    grind

/-- A registry has each type once, whatever was registered. -/
theorem types_registerAll_perm (added : List Bean) :
    (empty.registerAll added).types.Perm (added.map Bean.type).dedup := by
  have hDistinct : (empty.registerAll added).types.Nodup :=
    List.pairwise_map.mpr (empty.registerAll added).distinct
  refine (List.perm_ext_iff_of_nodup hDistinct (List.nodup_dedup _)).mpr fun type => ?_
  rw [mem_types_registerAll, List.mem_dedup]
  exact or_iff_left List.not_mem_nil

end Beans

namespace BuildStep

def kind? : BuildStep → Option ApplicationKind
  | .kind value => some value
  | _ => none

def displayName? : BuildStep → Option String
  | .displayName value => some value
  | _ => none

def bean? : BuildStep → Option Bean
  | .bean value => some value
  | _ => none

def listener? : BuildStep → Option ListenerId
  | .listener value => some value
  | _ => none

def isRegistration (step : BuildStep) : Bool :=
  step.bean?.isSome || step.listener?.isSome

/-- What a step makes of a context, and of the world without it. -/
def change (host : Host σ) : Context × World σ → BuildStep → Context × World σ
  | (context, w), .kind value => ({ context with kind := value }, w)
  | (context, w), .displayName value => ({ context with displayName := value }, w)
  | (context, w), .bean value =>
    ({ context with beans := context.beans.register value },
      if context.beans.contains value.type then w.note (.replacedBean value.type) else w)
  | (context, w), .listener value =>
    ({ context with multicaster := context.multicaster.register (host.registrationIn value w) },
      host.enlisted value w)

/-- The same things are registered in the same order, and the last kind and the last display name
are the same. -/
structure Agree (steps others : List BuildStep) : Prop where
  kind : (others.filterMap kind?).getLast? = (steps.filterMap kind?).getLast?
  displayName : (others.filterMap displayName?).getLast? = (steps.filterMap displayName?).getLast?
  registrations : others.filter isRegistration = steps.filter isRegistration

variable {host : Host σ} {context : Context} {w : World σ}

theorem contexts_change (start : Context × World σ) (step : BuildStep) :
    (change host start step).2.contexts = start.2.contexts := by
  obtain ⟨context, w⟩ := start
  cases step with
  | bean value =>
    simp only [change]
    split <;> rfl
  | _ => rfl

theorem apply_adding (host : Host σ) (context : Context) (w : World σ) (step : BuildStep) :
    step.apply host w.next (w.adding context) =
      some ((), (change host (context, w) step).2.adding (change host (context, w) step).1) := by
  cases step with
  | kind value => exact congrArg (fun v => some ((), v)) (w.adding_modifyContext context _)
  | displayName value => exact congrArg (fun v => some ((), v)) (w.adding_modifyContext context _)
  | bean value =>
    have hRead : Act.context w.next (w.adding context) = some (context, w.adding context) :=
      Act.context_apply (w.context?_adding context)
    rw [apply, ContextId.register, Act.bind_apply hRead]
    -- a bean that takes the place of another one is noted
    by_cases hHeld : context.beans.contains value.type = true
    · have hPut : (context.beans.put value : Act σ Beans) (w.adding context) =
          some (context.beans.register value, (w.note (.replacedBean value.type)).adding context) := by
        rw [Beans.put, if_pos hHeld]
        rfl
      rw [Act.bind_apply hPut, change, if_pos hHeld]
      exact congrArg (fun v => some ((), v))
        ((w.note (.replacedBean value.type)).adding_modifyContext context _)
    · have hPut : (context.beans.put value : Act σ Beans) (w.adding context) =
          some (context.beans.register value, w.adding context) := by
        rw [Beans.put, if_neg hHeld]
        rfl
      rw [Act.bind_apply hPut, change, if_neg hHeld]
      exact congrArg (fun v => some ((), v)) (w.adding_modifyContext context _)
  | listener value =>
    have hEnlist := host.enlist_eq value (w.adding context)
    rw [apply, ContextId.subscribe, Act.bind_apply hEnlist]
    exact congrArg (fun v => some ((), v))
      ((host.enlisted value w).adding_modifyContext context _)

/-- What some steps make of a context, and of the world without it. -/
def assemble (host : Host σ) (start : Context × World σ) (steps : List BuildStep) :
    Context × World σ :=
  steps.foldl (change host) start

theorem forM_adding (host : Host σ) (context : Context) (w : World σ) (steps : List BuildStep) :
    (steps.forM fun step => step.apply host w.next) (w.adding context) =
      some ((), (assemble host (context, w) steps).2.adding
        (assemble host (context, w) steps).1) := by
  induction steps generalizing context w with
  | nil => rfl
  | cons step steps ih =>
    have hNext : (change host (context, w) step).2.next = w.next := by
      rw [World.next, contexts_change, World.next]
    refine (Act.bind_apply (apply_adding host context w step)).trans ?_
    rw [← hNext]
    exact ih _ _

theorem contexts_assemble (start : Context × World σ) (steps : List BuildStep) :
    (assemble host start steps).2.contexts = start.2.contexts := by
  induction steps generalizing start with
  | nil => rfl
  | cons step steps ih => exact (ih _).trans (contexts_change start step)

/-- Only the last kind and the last display name count, wherever they are set: what is registered
does not depend on them. -/
theorem assemble_eq (context : Context) (w : World σ) (steps : List BuildStep) :
    assemble host (context, w) steps = assemble host
      ({ context with
        kind := (steps.filterMap kind?).getLast?.getD context.kind
        displayName := (steps.filterMap displayName?).getLast?.getD context.displayName }, w)
      (steps.filter isRegistration) := by
  induction steps generalizing context w with
  | nil => rfl
  | cons step steps ih =>
    refine (ih _ _).trans ?_
    cases step with
    | kind value =>
      simp [kind?, displayName?, isRegistration, bean?, listener?, List.getLast?_cons]
    | displayName value =>
      simp [kind?, displayName?, isRegistration, bean?, listener?, List.getLast?_cons]
    | bean value => rfl
    | listener value => rfl

theorem Agree.assemble_eq {steps others : List BuildStep} (h : Agree steps others)
    (start : Context × World σ) : assemble host start others = assemble host start steps := by
  obtain ⟨context, w⟩ := start
  rw [BuildStep.assemble_eq context w others, BuildStep.assemble_eq context w steps, h.kind,
    h.displayName, h.registrations]

theorem assemble_beans (context : Context) (w : World σ) (beans : List Bean) :
    (assemble host (context, w) (beans.map .bean)).1 =
      { context with beans := context.beans.registerAll beans } := by
  induction beans generalizing context w with
  | nil => rfl
  | cons bean beans ih => exact ih _ _

/-- The parts of a context after some steps, each by the steps for it. -/
structure Assembles (host : Host σ) (steps : List BuildStep) (before after : Context) : Prop where
  identity : after.identity = before.identity
  state : after.state = before.state
  kind : after.kind = (steps.filterMap kind?).getLast?.getD before.kind
  displayName : after.displayName = (steps.filterMap displayName?).getLast?.getD before.displayName
  beans : after.beans = before.beans.registerAll (steps.filterMap bean?)
  listeners : after.multicaster.listeners = before.multicaster.listeners ++ steps.filterMap listener?

theorem Assembles.refl (context : Context) : Assembles host [] context context :=
  ⟨rfl, rfl, rfl, rfl, rfl, (List.append_nil _).symm⟩

theorem Assembles.cons {step : BuildStep} {steps : List BuildStep} {after : Context}
    (h : Assembles host steps (change host (context, w) step).1 after) :
    Assembles host (step :: steps) context after where
  identity := by cases step <;> exact h.identity
  state := by cases step <;> exact h.state
  kind := by cases step <;> simp [h.kind, kind?, change, List.getLast?_cons]
  displayName := by cases step <;> simp [h.displayName, displayName?, change, List.getLast?_cons]
  beans := by cases step <;> exact h.beans
  listeners := by
    have hNext := h.listeners
    cases step with
    | listener value =>
      simpa [change, Multicaster.listeners, Multicaster.register, Host.registrationIn, listener?]
        using hNext
    | _ => exact hNext

theorem assembles_assemble (context : Context) (w : World σ) (steps : List BuildStep) :
    Assembles host steps context (assemble host (context, w) steps).1 := by
  induction steps generalizing context w with
  | nil => exact .refl context
  | cons step steps ih => exact .cons (ih _ _)

/-- What some steps build: a context that was just created, with the last kind and display name, the
listeners in their order and the last bean of each type. -/
structure Built (steps : List BuildStep) (given : Identity) (context : Context) : Prop where
  identity : context.identity = given
  state : context.state = .created
  kind : context.kind = (steps.filterMap kind?).getLast?.getD .standalone
  displayName : context.displayName =
    (steps.filterMap displayName?).getLast?.getD ("context-" ++ given.brief)
  listeners : context.multicaster.listeners = steps.filterMap listener?
  resolves : ∀ type bean, context.beans.resolve type = .ok bean ↔
    Bean.LastOf type (steps.filterMap bean?) bean
  misses : ∀ type, (∀ bean ∈ steps.filterMap bean?, bean.type ≠ type) →
    context.beans.resolve type = .error (.beanNotFound type.name)
  size : context.beans.size = ((steps.filterMap bean?).map Bean.type).dedup.length
  typeNames : context.beans.typeNames.Perm
    (((steps.filterMap bean?).map Bean.type).dedup.map BeanType.name)
  sorted : context.beans.typeNames.Pairwise (· ≤ ·)

theorem Assembles.built {steps : List BuildStep} {given : Identity}
    (h : Assembles host steps (Context.new given .standalone) context) :
    Built steps given context where
  identity := h.identity
  state := h.state
  kind := h.kind
  displayName := h.displayName
  listeners := h.listeners
  resolves type bean := by
    have hNone : ¬ Beans.empty.find? type = some bean := nofun
    rw [Beans.resolve_eq_ok_iff, h.beans, Beans.find?_registerAll_iff]
    exact or_iff_left fun hOld => hNone hOld.2
  misses type hOther := by
    apply Beans.resolve_eq_error_of_none
    rw [h.beans, Beans.find?_registerAll_of_forall_ne hOther]
    rfl
  size := by
    have hTypes := Beans.types_registerAll_perm (steps.filterMap bean?)
    rw [h.beans, ← hTypes.length_eq]
    exact (List.length_map _).symm
  typeNames := by
    have hTypes := (Beans.types_registerAll_perm (steps.filterMap bean?)).map BeanType.name
    rw [Beans.types, List.map_map] at hTypes
    rw [h.beans]
    exact hTypes
  sorted := List.pairwise_map.mpr context.beans.ordered

end BuildStep

namespace ContextId

open BuildStep

variable (host : Host σ) (steps : List BuildStep) (w : World σ)

/-- The context that some steps build in a world, and the world without it. -/
def built : Context × World σ :=
  assemble host (Context.new (w.identities w.contexts.length) .standalone, w) steps

theorem build_eq : build host steps w =
    some (w.next, (built host steps w).2.adding (built host steps w).1) := by
  have hCreate : create .standalone w = some (w.next,
      w.adding (Context.new (w.identities w.contexts.length) .standalone)) := rfl
  have hSteps := forM_adding host (Context.new (w.identities w.contexts.length) .standalone) w steps
  rw [build, Act.bind_apply hCreate, Act.bind_apply hSteps]
  rfl

theorem build_append (more : List BuildStep) :
    (build host (steps ++ more) : Act σ ContextId) = (do
      let id ← build host steps
      more.forM fun step => step.apply host id
      return id) := by
  simp [build]

/-- The parts of a built context are those that the steps for them give, each on its own, and other
steps that agree with these build the same. Beans that are registered later are as if they had been
given last: they replace those of their types and change nothing else. -/
theorem build_composes :
    ∃ context v, build host steps w = some (w.next, v) ∧
      v.contexts = w.contexts ++ [context] ∧
      Built steps (w.identities w.contexts.length) context ∧
      (∀ others, Agree steps others → build host others w = some (w.next, v)) ∧
      ∀ more : List Bean, ∃ beans u,
        build host (steps ++ more.map .bean) w = some (w.next, u) ∧
        (more.forM fun bean => register w.next bean : Act σ Unit) v = some ((), u) ∧
        u.contexts = w.contexts ++ [{ context with beans := beans }] ∧
        ∀ type, (∀ bean, Bean.LastOf type more bean → beans.resolve type = .ok bean) ∧
          ((∀ bean ∈ more, bean.type ≠ type) → beans.resolve type = context.beans.resolve type) := by
  have hContexts : (built host steps w).2.contexts = w.contexts := contexts_assemble _ steps
  refine ⟨(built host steps w).1, _, build_eq host steps w, ?_, ?_, ?_, ?_⟩
  · rw [World.adding, hContexts]
  · exact (assembles_assemble _ w steps).built
  · intro others hAgree
    have hSame : built host others w = built host steps w := hAgree.assemble_eq _
    rw [build_eq, hSame]
  · intro more
    let u : Context × World σ := assemble host (built host steps w) (more.map .bean)
    have hMore := forM_adding host (built host steps w).1 (built host steps w).2 (more.map .bean)
    have hNext : (built host steps w).2.next = w.next := by
      rw [World.next, hContexts, World.next]
    rw [hNext] at hMore
    refine ⟨(built host steps w).1.beans.registerAll more, u.2.adding u.1, ?_, ?_, ?_, ?_⟩
    · rw [build_append, Act.bind_apply (build_eq host steps w), Act.bind_apply hMore]
      rfl
    · rw [← hMore, List.forM_eq_forM, List.forM_eq_forM, List.forM_map]
      rfl
    · have hOutside : u.2.contexts = w.contexts := (contexts_assemble _ _).trans hContexts
      have hInside : u.1 = { (built host steps w).1 with
          beans := (built host steps w).1.beans.registerAll more } := assemble_beans _ _ more
      rw [World.adding, hOutside, hInside]
    · intro type
      refine ⟨fun bean hLast => ?_, fun hOther => ?_⟩
      · rw [Beans.resolve_eq_ok_iff, Beans.find?_registerAll_iff]
        exact .inl hLast
      · exact Beans.resolve_congr (Beans.find?_registerAll_of_forall_ne hOther)

/-- Kinds and a display name among beans and listeners, one of which is given twice, and two foreign
types of one name. -/
def mixedSteps : List BuildStep :=
  [.bean (.u32 1), .kind .reactive, .listener ⟨0⟩, .bean (.foreign ⟨0, "Pool"⟩ 0),
    .displayName "orders", .bean (.u32 2), .listener ⟨0⟩, .kind .servlet,
    .bean (.foreign ⟨1, "Pool"⟩ 1)]

def sortedSteps : List BuildStep :=
  [.kind .servlet, .displayName "orders", .bean (.u32 1), .listener ⟨0⟩,
    .bean (.foreign ⟨0, "Pool"⟩ 0), .bean (.u32 2), .listener ⟨0⟩, .bean (.foreign ⟨1, "Pool"⟩ 1)]

theorem build_composes_mixed : ∃ (context : Context) (v : World Unit),
    build (Host.ofDepth default 0) mixedSteps (default : World Unit) = some (⟨0⟩, v) ∧
      build (Host.ofDepth default 0) sortedSteps (default : World Unit) = some (⟨0⟩, v) ∧
      context.kind = .servlet ∧ context.displayName = "orders" ∧
      context.multicaster.listeners = [⟨0⟩, ⟨0⟩] ∧
      context.beans.resolve .u32 = .ok (.u32 2) ∧
      context.beans.resolve (.foreign ⟨2, "Pool"⟩) = .error (.beanNotFound "Pool") ∧
      context.beans.size = 3 ∧
      ∃ (beans : Beans) (u : World Unit), register ⟨0⟩ (.foreign ⟨1, "Pool"⟩ 2) v = some ((), u) ∧
        u.contexts = [{ context with beans := beans }] ∧
        beans.resolve (.foreign ⟨1, "Pool"⟩) = .ok (.foreign ⟨1, "Pool"⟩ 2) ∧
        beans.resolve (.foreign ⟨0, "Pool"⟩) = context.beans.resolve (.foreign ⟨0, "Pool"⟩) := by
  obtain ⟨context, v, hBuild, -, hBuilt, hAgree, hMore⟩ :=
    build_composes (Host.ofDepth default 0) mixedSteps (default : World Unit)
  obtain ⟨beans, u, -, hRegister, hContexts, hTypes⟩ := hMore [.foreign ⟨1, "Pool"⟩ 2]
  have hSorted : Agree mixedSteps sortedSteps := ⟨by decide, by decide, by decide⟩
  refine ⟨context, v, hBuild, hAgree _ hSorted, hBuilt.kind, hBuilt.displayName, hBuilt.listeners,
    (hBuilt.resolves _ _).mpr ?_, hBuilt.misses _ (by decide), hBuilt.size.trans (by decide),
    beans, u, ?_, hContexts, (hTypes _).1 _ ⟨[], [], rfl, rfl, nofun⟩, (hTypes _).2 (by decide)⟩
  · exact ⟨[.u32 1, .foreign ⟨0, "Pool"⟩ 0], [.foreign ⟨1, "Pool"⟩ 1], rfl, rfl, by decide⟩
  · obtain ⟨_, _, hOne, hNone⟩ := Act.bind_inv hRegister
    cases hNone
    exact hOne

end ContextId

end Startup
