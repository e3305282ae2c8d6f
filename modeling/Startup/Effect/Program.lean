import Startup.Event.Basic
import Startup.Multicaster
import Startup.Bean
import Startup.Property.Store

/-!
# Programs

What a listener, an initializer or a foreign context does: a finite exchange of requests and
answers. The requests are the public operations of the library and a memory of type `σ` that all
such programs share; nothing else can be reached from a program. In particular none of them makes a
context or starts another run: a program works on the contexts that are there.
-/

namespace Startup

inductive Request (σ : Type) where
  | publish (context : ContextRef) (event : Event)
  | subscribe (context : ContextRef) (listener : ListenerId)
  | isActive (context : ContextRef)
  | listeners (context : ContextRef)
  | identity (context : ContextRef)
  | register (context : ContextRef) (bean : Bean)
  | resolve (context : ContextRef) (type : BeanType)
  | beanTypes (context : ContextRef)
  | refresh (context : ContextId)
  | close (context : ContextId)
  | createStore (properties : Properties)
  | properties (store : StoreId)
  | assign (store : StoreId) (pairs : List (String × String))
  | listenerName (listener : ListenerId)
  | enlist (listener : ListenerId)
  | broadcast (multicaster : Multicaster) (event : Event)
  | memory
  | remember (memory : σ)

/-- What comes back for a request. Where a context has no beans, or does not tell its listeners,
the answer is `none`. -/
def Request.Answer {σ : Type} : Request σ → Type
  | publish _ _ => Except DeliveryError Unit
  | subscribe _ _ => Unit
  | isActive _ => Bool
  | listeners _ => Option (List ListenerId)
  | identity _ => String
  | register _ _ => Option Unit
  | resolve _ _ => Option (Except SetupError Bean)
  | beanTypes _ => Option (List String)
  | refresh _ => Except DeliveryError Unit
  | close _ => Except DeliveryError Unit
  | createStore _ => StoreId
  | properties _ => Properties
  | assign _ _ => Unit
  | listenerName _ => String
  | enlist _ => Registration
  | broadcast _ _ => Except DeliveryError Nat
  | memory => σ
  | remember _ => Unit

inductive Program (σ α : Type) where
  | done (value : α)
  | ask (request : Request σ) (next : request.Answer → Program σ α)

namespace Program

variable {σ α β : Type}

def bind : Program σ α → (α → Program σ β) → Program σ β
  | done value, f => f value
  | ask request next, f => ask request fun answer => (next answer).bind f

instance : Monad (Program σ) where
  pure := done
  bind := bind

theorem bind_done (p : Program σ α) : p.bind done = p := by
  induction p with
  | done value => rfl
  | ask request next ih => simp [bind, ih]

theorem bind_bind {γ : Type} (p : Program σ α) (f : α → Program σ β) (g : β → Program σ γ) :
    (p.bind f).bind g = p.bind fun value => (f value).bind g := by
  induction p with
  | done value => rfl
  | ask request next ih => simp [bind, ih]

instance : LawfulMonad (Program σ) :=
  LawfulMonad.mk' (Program σ) bind_done (fun _ _ => rfl) bind_bind

def request (q : Request σ) : Program σ q.Answer :=
  ask q done

def modifyMemory (f : σ → σ) : Program σ Unit := do
  let memory ← request .memory
  request (.remember (f memory))

end Program

end Startup
