import Mathlib.Logic.Relation
import Startup.Proofs.Context.Steps

/-!
# Edits of the world

Whatever programs ask for, to any depth, all that comes of it are edits of a few kinds: an entry is
written, the memory replaced, a store added or assigned to, and a context gets a state, a bean or a
listener. What each of these edits keeps, programs keep.
-/

namespace Startup

variable {σ α β : Type} {host : Host σ} {w w' : World σ}

namespace World

def assign (w : World σ) (id : StoreId) (pairs : List (String × String)) : World σ :=
  { w with stores := w.stores.modify id.index fun properties => properties.setAll pairs }

inductive Edit : World σ → World σ → Prop
  | note (w : World σ) (entry : Entry) : Edit w (w.note entry)
  | remember (w : World σ) (memory : σ) : Edit w { w with memory := memory }
  | store (w : World σ) (properties : Properties) :
      Edit w { w with stores := w.stores ++ [properties] }
  | assign (w : World σ) (id : StoreId) (pairs : List (String × String)) : Edit w (w.assign id pairs)
  | state (w : World σ) (id : ContextId) (state : ContextState) : Edit w (w.setState id state)
  | bean (w : World σ) (id : ContextId) (bean : Bean) : Edit w (w.modifyContext id fun context =>
      { context with beans := context.beans.register bean })
  | listener (w : World σ) (id : ContextId) (r : Registration) :
      Edit w (w.modifyContext id fun context =>
        { context with multicaster := context.multicaster.register r })

abbrev Edits : World σ → World σ → Prop :=
  Relation.ReflTransGen Edit

theorem modifyContext_congr {id : ContextId} {f g : Context → Context}
    (h : ∀ context, w.context? id = some context → f context = g context) :
    w.modifyContext id f = w.modifyContext id g := by
  have hSame : w.contexts.modify id.index f = w.contexts.modify id.index g := by
    apply List.ext_getElem?
    intro i
    rw [List.getElem?_modify, List.getElem?_modify]
    cases hContext : w.contexts[i]? with
    | none => rfl
    | some context =>
      by_cases hIndex : id.index = i
      · subst hIndex
        simp [h context hContext]
      · simp [hIndex]
  rw [modifyContext, hSame, modifyContext]

end World

namespace Act

/-- Whether an act makes nothing but edits. -/
def Edits (act : Act σ α) : Prop :=
  ∀ ⦃w a w'⦄, act w = some (a, w') → World.Edits w w'

theorem edits_single {act : Act σ α} (h : ∀ w a w', act w = some (a, w') → World.Edit w w') :
    act.Edits := by
  intro w a w' hAct
  exact .single (h w a w' hAct)

theorem edits_pure (a : α) : (pure a : Act σ α).Edits := by
  rintro w b w' ⟨⟩
  exact .refl

theorem Edits.bind {act : Act σ α} {f : α → Act σ β} (hAct : act.Edits) (hRest : ∀ a, (f a).Edits) :
    (act >>= f).Edits := by
  intro w b w' h
  obtain ⟨a, v, hFirst, hLast⟩ := bind_inv h
  exact (hAct hFirst).trans (hRest a hLast)

theorem edits_write (entry : Entry) : (write entry : Act σ Unit).Edits := by
  apply edits_single
  rintro w a w' ⟨⟩
  exact .note w entry

theorem edits_memory : (memory : Act σ σ).Edits := by
  rintro w a w' ⟨⟩
  exact .refl

theorem edits_remember (value : σ) : (remember value).Edits := by
  apply edits_single
  rintro w a w' ⟨⟩
  exact .remember w value

theorem edits_context (id : ContextId) : (Act.context id : Act σ Context).Edits := by
  intro w a w' h
  obtain ⟨-, rfl⟩ := context_inv h
  exact .refl

theorem edits_properties (id : StoreId) : (Act.properties id : Act σ Properties).Edits := by
  intro w a w' h
  obtain ⟨-, rfl⟩ := properties_inv h
  exact .refl

theorem edits_assign (id : StoreId) (pairs : List (String × String)) :
    (Act.assign id pairs : Act σ Unit).Edits := by
  apply edits_single
  rintro w a w' ⟨⟩
  exact .assign w id pairs

theorem edits_addStore (properties : Properties) :
    (Act.addStore properties : Act σ StoreId).Edits := by
  apply edits_single
  rintro w a w' ⟨⟩
  exact .store w properties

end Act

namespace Host

theorem enlist_edits (host : Host σ) (id : ListenerId) : (host.enlist id).Edits :=
  Act.edits_memory.bind fun _ => (Act.edits_remember _).bind fun _ =>
    (Act.edits_write _).bind fun _ => Act.edits_pure _

/-- Whether the programs that a host runs make nothing but edits. -/
def Edits (host : Host σ) : Prop :=
  ∀ {α : Type} (program : Program σ α), (host.perform program).Edits

theorem invokeAll_edits (hHost : host.Edits) (origin : Origin) (event : Event)
    (registrations : List Registration) (invoked : Nat) :
    (host.invokeAll origin .propagate event registrations invoked).Edits := by
  induction registrations generalizing invoked with
  | nil => exact Act.edits_pure _
  | cons r rest ih =>
    refine (Act.edits_write _).bind fun _ => (hHost _).bind fun answer => ?_
    cases answer with
    | ok _ => exact ih (invoked + 1)
    | error cause => exact (Act.edits_write _).bind fun _ => Act.edits_pure _

theorem broadcast_edits (hHost : host.Edits) (origin : Origin) (multicaster : Multicaster)
    (event : Event) : (host.broadcast origin .propagate multicaster event).Edits :=
  (Act.edits_write _).bind fun _ => invokeAll_edits hHost origin event _ 0

end Host

namespace ContextId

theorem setState_edits (id : ContextId) (state : ContextState) :
    (id.setState state : Act σ Unit).Edits := by
  apply Act.edits_single
  rintro w a w' ⟨⟩
  exact .state w id state

theorem subscribe_edits (host : Host σ) (id : ContextId) (listener : ListenerId) :
    (id.subscribe host listener).Edits := by
  refine (host.enlist_edits listener).bind fun r => Act.edits_single ?_
  rintro w a w' ⟨⟩
  exact .listener w id r

theorem register_edits (id : ContextId) (bean : Bean) : (id.register bean : Act σ Unit).Edits := by
  intro w a w' h
  obtain ⟨context, v, hRead, hRest⟩ := Act.bind_inv h
  obtain ⟨hContext, rfl⟩ := Act.context_inv hRead
  obtain ⟨beans, v, hPut, hModify⟩ := Act.bind_inv hRest
  rw [Act.modifyContext_apply] at hModify
  cases hModify
  -- the beans that were read are still those of the context
  have hStill : beans = context.beans.register bean ∧ World.Edits w v ∧
      v.context? id = some context := by
    rw [Beans.put] at hPut
    split at hPut <;> cases hPut
    · exact ⟨rfl, .single (.note w _), hContext⟩
    · exact ⟨rfl, .refl, hContext⟩
  obtain ⟨rfl, hEdits, hHeld⟩ := hStill
  have hBean := World.Edit.bean v id bean
  rw [World.modifyContext_congr (g := fun context' =>
    { context' with beans := context.beans.register bean })] at hBean
  · exact hEdits.tail hBean
  · intro held hSame
    cases hHeld.symm.trans hSame
    rfl

variable (hHost : host.Edits)

include hHost

theorem publish_edits (id : ContextId) (event : Event) : (id.publish host event).Edits := by
  refine (Act.edits_context id).bind fun context => ?_
  split
  · exact (Host.broadcast_edits hHost _ _ event).bind fun _ => Act.edits_pure _
  · exact Act.edits_pure _

theorem refresh_edits (id : ContextId) : (id.refresh host).Edits := by
  refine (Act.edits_context id).bind fun context => ?_
  split
  · refine (setState_edits id .active).bind fun _ => ?_
    refine (publish_edits hHost id _).bind fun outcome => ?_
    cases outcome with
    | error error =>
      exact (setState_edits id .created).bind fun _ => (Act.edits_write _).bind fun _ =>
        Act.edits_pure _
    | ok _ =>
      exact (Act.edits_context id).bind fun _ => (Act.edits_write _).bind fun _ =>
        Act.edits_pure _
  · exact Act.edits_pure _

theorem close_edits (id : ContextId) : (id.close host).Edits := by
  intro w outcome w' h
  have hEnd (v : World σ) (name : String) :
      World.Edits v ((v.setState id .closed).note (.closed id name)) :=
    .tail (.single (.state v id .closed)) (.note _ _)
  cases closing_of_close h with
  | idle hContext hState => exact .refl
  | silent hContext hState => exact hEnd w _
  | announced hContext hState hPublish => exact (publish_edits hHost id _ hPublish).trans (hEnd _ _)

end ContextId

namespace ContextRef

variable (ref : ContextRef)

theorem isActive_edits (host : Host σ) : (ref.isActive host).Edits := by
  cases ref with
  | managed id => exact (Act.edits_context id).bind fun _ => Act.edits_pure _
  | foreign id => exact Act.edits_memory.bind fun _ => Act.edits_pure _

theorem listeners_edits (host : Host σ) : (ref.listeners host).Edits := by
  cases ref with
  | managed id => exact (Act.edits_context id).bind fun _ => Act.edits_pure _
  | foreign id => exact Act.edits_memory.bind fun _ => Act.edits_pure _

theorem identity_edits (host : Host σ) : (ref.identity host).Edits := by
  cases ref with
  | managed id => exact (Act.edits_context id).bind fun _ => Act.edits_pure _
  | foreign id => exact Act.edits_memory.bind fun _ => Act.edits_pure _

theorem beans_edits : (ref.beans : Act σ _).Edits := by
  cases ref with
  | managed id => exact (Act.edits_context id).bind fun _ => Act.edits_pure _
  | foreign id => exact Act.edits_pure _

theorem register_edits (bean : Bean) : (ref.register bean : Act σ _).Edits := by
  cases ref with
  | managed id => exact (id.register_edits bean).bind fun _ => Act.edits_pure _
  | foreign id => exact Act.edits_pure _

theorem publish_edits (hHost : host.Edits) (event : Event) : (ref.publish host event).Edits := by
  cases ref with
  | managed id => exact ContextId.publish_edits hHost id event
  | foreign id => exact hHost _

theorem subscribe_edits (hHost : host.Edits) (listener : ListenerId) :
    (ref.subscribe host listener).Edits := by
  cases ref with
  | managed id => exact id.subscribe_edits host listener
  | foreign id => exact hHost _

end ContextRef

namespace Host

theorem answer_edits (hHost : host.Edits) (q : Request σ) : (host.answer q).Edits := by
  cases q with
  | publish context event => exact context.publish_edits hHost event
  | subscribe context listener => exact context.subscribe_edits hHost listener
  | isActive context => exact context.isActive_edits host
  | listeners context => exact context.listeners_edits host
  | identity context => exact context.identity_edits host
  | register context bean => exact context.register_edits bean
  | resolve context type => exact context.beans_edits.bind fun _ => Act.edits_pure _
  | beanTypes context => exact context.beans_edits.bind fun _ => Act.edits_pure _
  | refresh context => exact ContextId.refresh_edits hHost context
  | close context => exact ContextId.close_edits hHost context
  | createStore properties => exact Act.edits_addStore properties
  | properties store => exact Act.edits_properties store
  | assign store pairs => exact Act.edits_assign store pairs
  | listenerName listener => exact Act.edits_pure _
  | enlist listener => exact host.enlist_edits listener
  | broadcast multicaster event => exact broadcast_edits hHost _ multicaster event
  | memory => exact Act.edits_memory
  | remember memory => exact Act.edits_remember memory

theorem interpret_edits (hHost : host.Edits) (program : Program σ α) :
    (program.interpret host.answer).Edits := by
  induction program with
  | done value => exact Act.edits_pure value
  | ask q next ih => exact (answer_edits hHost q).bind ih

theorem ofDepth_edits (directory : Directory σ) (depth : Nat) : (ofDepth directory depth).Edits := by
  induction depth with
  | zero =>
    intro α program w a w' h
    cases h
  | succ depth ih => exact fun program => interpret_edits ih program

end Host

end Startup
