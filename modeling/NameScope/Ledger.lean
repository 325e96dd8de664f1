import NameScope.Handle
import NameScope.OrderedMap

/-!
# Tables and the ledger

A `Table` lists references under stems; a running program reads them by stem
and index. Several registries may write to one table.

The `Ledger` holds what registries share: the tables, the names given out and
the bindings of the names. Entries are only ever added to it.
-/

namespace NameScope

/-- References by stem and index. -/
structure Table where
  columns : OrderedMap String (List Ref) := ∅
deriving DecidableEq, Inhabited

namespace Table

/-- The references under a stem, in index order. -/
def column (table : Table) (stem : String) : List Ref := (table.columns.get? stem).getD []

/-- The reference in a slot. -/
def get? (table : Table) (stem : String) (index : Nat) : Option Ref :=
  (table.column stem)[index]?

/-- The number of references under a stem. -/
def size (table : Table) (stem : String) : Nat := (table.column stem).length

/-- Add a reference under a stem. -/
def push (table : Table) (stem : String) (ref : Ref) : Table :=
  ⟨table.columns.update stem (fun refs => refs.getD [] ++ [ref])⟩

end Table

/-- What registries share. -/
structure Ledger where
  /-- The tables by their numbers; a number without an entry is an empty table. -/
  tables : OrderedMap Nat Table := ∅
  /-- The names given out, each at the place of its number. -/
  handles : List Handle := []
  /-- The bindings of the names that are bound. -/
  bindings : OrderedMap Handle Binding := ∅
deriving DecidableEq, Inhabited

namespace Ledger

/-- The table of a number. -/
def table (ledger : Ledger) (id : Nat) : Table := (ledger.tables.get? id).getD {}

/-- The binding of a name. -/
def binding? (ledger : Ledger) (handle : Handle) : Option Binding :=
  ledger.bindings.get? handle

/-- Give out a new name. -/
def issue (ledger : Ledger) (ident : Ident) (stem : String) : Handle × Ledger :=
  let handle : Handle := ⟨ledger.handles.length, ident, stem⟩
  (handle, { ledger with handles := ledger.handles ++ [handle] })

/-- Add a reference to a table. -/
def push (ledger : Ledger) (id : Nat) (stem : String) (ref : Ref) : Ledger :=
  { ledger with tables := ledger.tables.update id (fun table => (table.getD {}).push stem ref) }

/-- Bind a name. -/
def bind (ledger : Ledger) (handle : Handle) (binding : Binding) : Ledger :=
  { ledger with bindings := ledger.bindings.insert handle binding }

end Ledger

end NameScope
