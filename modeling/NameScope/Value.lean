import NameScope.Fragment

/-!
# Values

A `Value` is what a name can be bound to. It holds the reference that a running
program reads and what standalone code needs to make the value again: a fragment
of code, or the module to import it from.
-/

namespace NameScope

/-- What a reference points at. -/
inductive Datum where
  | text (text : String)
  | integer (value : Int)
  | unit
deriving DecidableEq, Repr

/-- A reference to a value of the running program: the number of the allocation
and what it holds. An allocation has one number and one datum, so two references
to it are equal, and references to two allocations differ in `id` even where
they point at equal data. -/
structure Ref where
  id : Nat
  datum : Datum
deriving DecidableEq, Repr

/-- What decides whether two values are registered as one: a text, or the
identity of a reference. -/
inductive Key where
  | text (text : String)
  | ref (ref : Ref)
deriving DecidableEq, Repr

/-- A module and the binding it offers. -/
structure Import where
  /-- The path of the module, without a file extension. -/
  package : String
  /-- The binding to import. -/
  binding : String
deriving DecidableEq, Repr

/-- An import can be used if both its parts are there. -/
def Import.isUsable (source : Import) : Bool :=
  !source.package.isEmpty && !source.binding.isEmpty

/-- How standalone code makes a value again. -/
inductive Kind where
  /-- By code, if there is any. -/
  | inline (code : Option Fragment)
  /-- By an import. -/
  | imported (source : Import)
deriving DecidableEq

/-- A value that can be bound to a name. -/
structure Value where
  ref? : Option Ref
  key? : Option Key := none
  kind : Kind
deriving DecidableEq

namespace Value

/-- A value without code. -/
def inline (ref? : Option Ref) : Value := { ref?, kind := .inline none }

/-- A value that is imported. -/
def imported (ref? : Option Ref) (source : Import) : Value := { ref?, kind := .imported source }

/-- The value with a key of its own. -/
def withKey (value : Value) (key : Key) : Value := { value with key? := some key }

/-- The value with code to make it by; an imported value stays as it is. -/
def withCode (value : Value) (code : Fragment) : Value :=
  match value.kind with
  | .inline _ => { value with kind := .inline (some code) }
  | .imported _ => value

/-- The key that a value is registered under: its own key, else its reference. -/
def dedupKey? (value : Value) : Option Key :=
  value.key?.or (value.ref?.map Key.ref)

end Value

end NameScope
