import NameScope.Fault
import NameScope.OrderedMap
import NameScope.Scope

/-!
# Allocators

An `Allocator` makes identifiers of a stem and a running number. Each stem has
its own numbers, which start at 0 and are never given twice. Whether the scope
permits a stem is looked up when the first name under it is allocated.
-/

namespace NameScope

/-- Makes identifiers within a scope. -/
structure Allocator where
  scope : Scope
  /-- The next number of every stem that has been used. -/
  counters : OrderedMap String Nat := ∅
deriving DecidableEq, Inhabited

namespace Allocator

/-- The identifier number `index` under a stem. -/
def identAt (stem : String) (index : Nat) : Ident := ⟨stem ++ toString index⟩

/-- Take the next number of a stem. -/
def advance (allocator : Allocator) (stem : String) : Allocator :=
  { allocator with counters := allocator.counters.update stem (fun next => next.getD 0 + 1) }

/-- Allocate the next identifier under a stem. -/
def allocate (stem : String) : EStateM Fault Allocator Ident := do
  let allocator ← get
  match allocator.counters.get? stem with
  | some index =>
    set (allocator.advance stem)
    return identAt stem index
  | none =>
    if allocator.scope.permits stem then
      set (allocator.advance stem)
      return identAt stem 0
    else throw (.stemRefused stem)

/-- What a name is asked for by: a name that exists, or the stem of a new one. -/
inductive Request where
  | existing (ident : Ident)
  | fresh (stem : String)

/-- An existing name as it is, or a new one. -/
def provide : Request → EStateM Fault Allocator Ident
  | .existing ident => pure ident
  | .fresh stem => allocate stem

end Allocator

end NameScope
