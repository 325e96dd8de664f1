import NameScope.Value

/-!
# Handles

A `Handle` is a name that a registry has given out. Handles are told apart by
their number, so two names with the same text can be different names. A handle
may be bound to a value once; the `Binding` then also says in which `Slot` of
its table the reference of the value stands.
-/

namespace NameScope

/-- A name given out by a registry. -/
structure Handle where
  /-- The number of the name among all that were given out. -/
  id : Nat
  ident : Ident
  /-- What the name was allocated under. -/
  stem : String
deriving DecidableEq

/-- The text of the name. -/
def Handle.text (handle : Handle) : String := handle.ident.text

/-- A place in a table. -/
structure Slot where
  stem : String
  index : Nat
deriving DecidableEq, Repr

/-- The access to a slot, to be written after the table. -/
def Slot.access (slot : Slot) : Fragment :=
  .text ("." ++ slot.stem ++ "[" ++ toString slot.index ++ "]")

/-- What a bound name stands for. -/
structure Binding where
  value : Value
  slot : Slot
deriving DecidableEq

end NameScope
