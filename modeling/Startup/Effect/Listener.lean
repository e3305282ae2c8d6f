import Startup.Effect.Program

/-!
# Listeners and foreign contexts

What the library knows of the things it calls: a listener's name, what it declares when it is
registered, what it does with an event, and with a context if it wants to be told of one. Its name,
and whether it wants to be told, are settled once; what it declares and does may change with what
the programs remember.
-/

namespace Startup

variable {σ : Type}

/-- What a listener declares, anew each time it is registered. -/
structure Terms where
  filter : EventFilter
  order : Int
  deriving DecidableEq, Repr

structure Listener (σ : Type) where
  name : String
  declare : σ → Terms × σ
  onEvent : Event → Program σ (Except Cause Unit)
  onContext : Option (ContextRef → Program σ Unit)

/-- A context that something else provides: it has no beans, and may not tell its listeners. -/
structure ForeignContext (σ : Type) where
  identity : σ → String
  isActive : σ → Bool
  listeners : σ → Option (List ListenerId)
  publish : Event → Program σ (Except DeliveryError Unit)
  subscribe : ListenerId → Program σ Unit

/-- Everything that references may lead to outside of the library. -/
structure Directory (σ : Type) where
  listener : ListenerId → Listener σ
  foreign : ForeignId → ForeignContext σ

end Startup
