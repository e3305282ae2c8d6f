/-!
# References

Listeners, contexts and property stores are shared: they are spoken of by number, and two
references are the same thing exactly if they are equal.
-/

namespace Startup

structure ListenerId where
  index : Nat
  deriving DecidableEq, Repr, Inhabited

/-- A store of properties, which any number of environments may show. -/
structure StoreId where
  index : Nat
  deriving DecidableEq, Repr, Inhabited

structure ContextId where
  index : Nat
  deriving DecidableEq, Repr, Inhabited

structure ForeignId where
  index : Nat
  deriving DecidableEq, Repr, Inhabited

inductive ContextRef where
  | managed (context : ContextId)
  | foreign (context : ForeignId)
  deriving DecidableEq, Repr, Inhabited

/-- How a context is named: in full, and in brief for a display name that is made up. -/
structure Identity where
  full : String
  brief : String
  deriving DecidableEq, Repr, Inhabited

/-- What the listeners of an event see of properties: a shared store, and the arguments of the run
that are no options. -/
structure Environment where
  store : StoreId
  arguments : List String
  deriving DecidableEq, Repr, Inhabited

end Startup
