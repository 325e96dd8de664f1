import NameScope.Registry

/-!
# Sessions

A `Session` is everything that registrations can change: the ledger, the
registries that share it, and allocators that stand alone. `Session.perform`
carries out one operation; the objects of a session are named by the number of
their creation. A failed operation still yields a session, the one it leaves
behind.
-/

namespace NameScope

/-- Allocators, and registries with the ledger they share. -/
structure Session where
  ledger : Ledger := {}
  registries : List Registry := []
  allocators : List Allocator := []
  /-- How many tables have been opened. -/
  tables : Nat := 0
deriving DecidableEq, Inhabited

/-- What can be done in a session. -/
inductive Operation where
  /-- Open an allocator. -/
  | openAllocator (scope : Scope)
  /-- Open a table. -/
  | openTable
  /-- Open a registry that writes to a table. -/
  | openRegistry (table : Nat) (scope : Scope) (style : Style)
  /-- Allocate an identifier. -/
  | allocate (allocator : Nat) (request : Allocator.Request)
  /-- Allocate a name without a value. -/
  | newName (registry : Nat) (stem : String)
  /-- Register a value under a stem. -/
  | registerNew (registry : Nat) (stem : String) (value : Value)
  /-- Register a value for the name of a number. -/
  | registerName (registry : Nat) (handle : Nat) (value : Value)
  /-- Look up a key. -/
  | find (registry : Nat) (stem : String) (key : Key)

/-- What an operation answers. -/
inductive Outcome where
  /-- An object with this number is there. -/
  | opened (number : Nat)
  | ident (ident : Ident)
  | name (handle : Handle)
  | found (handle : Option Handle)
  | failed (fault : Fault)
  /-- The operation names an object that does not exist. -/
  | unknown
deriving DecidableEq

namespace Session

/-- Run a computation at the desk of a registry. -/
def atDesk (session : Session) (number : Nat) (work : Registering Handle) :
    Outcome × Session :=
  match session.registries[number]? with
  | none => (.unknown, session)
  | some registry =>
    match work ⟨session.ledger, registry⟩ with
    | .ok handle desk =>
      (.name handle, { session with
        ledger := desk.ledger, registries := session.registries.set number desk.registry })
    | .error fault desk =>
      (.failed fault, { session with
        ledger := desk.ledger, registries := session.registries.set number desk.registry })

/-- Run a computation on an allocator. -/
def atAllocator (session : Session) (number : Nat) (work : EStateM Fault Allocator Ident) :
    Outcome × Session :=
  match session.allocators[number]? with
  | none => (.unknown, session)
  | some allocator =>
    match work allocator with
    | .ok ident allocator =>
      (.ident ident, { session with allocators := session.allocators.set number allocator })
    | .error fault allocator =>
      (.failed fault, { session with allocators := session.allocators.set number allocator })

/-- Carry out one operation. -/
def perform (session : Session) : Operation → Outcome × Session
  | .openAllocator scope =>
    (.opened session.allocators.length,
      { session with allocators := session.allocators ++ [{ scope }] })
  | .openTable => (.opened session.tables, { session with tables := session.tables + 1 })
  | .openRegistry table scope style =>
    (.opened session.registries.length,
      { session with
        registries := session.registries ++ [{ allocator := { scope }, table, style }] })
  | .allocate number request => session.atAllocator number (Allocator.provide request)
  | .newName number stem => session.atDesk number (Registering.newName stem)
  | .registerNew number stem value =>
    session.atDesk number (Registering.register (.stem stem) value)
  | .registerName number handle value =>
    match session.ledger.handles[handle]? with
    | none => (.unknown, session)
    | some handle => session.atDesk number (Registering.register (.name handle) value)
  | .find number stem key =>
    match session.registries[number]? with
    | none => (.unknown, session)
    | some registry => (.found (registry.find? stem key), session)

/-- Carry out operations one after the other, failed ones included. -/
def run (session : Session) : List Operation → List Outcome × Session
  | [] => ([], session)
  | operation :: rest =>
    let (outcome, session) := session.perform operation
    let (outcomes, session) := session.run rest
    (outcome :: outcomes, session)

end Session

end NameScope
