import NameScope.Allocator
import NameScope.Ledger
import NameScope.Selection
import NameScope.Style

/-!
# Registries

A `Registry` gives out names within a scope and binds them to values. The first
registration of a value adds its reference to a table of the ledger; later ones
with the same stem and key find the name that is there and change nothing.

The operations run on a `Desk`, the registry together with the ledger that it
shares with others. They keep what they had changed when they fail, so that it
can be asked whether a failure leaves a trace.
-/

namespace NameScope

/-- Gives out names and binds them to values. -/
structure Registry where
  allocator : Allocator
  /-- The names bound here, by stem and key, in the order of registration. -/
  bound : OrderedMap String (OrderedMap Key Handle) := ∅
  /-- The table of the ledger that receives the references. -/
  table : Nat
  style : Style
deriving DecidableEq, Inhabited

namespace Registry

/-- The names bound under a stem. -/
def group (registry : Registry) (stem : String) : OrderedMap Key Handle :=
  (registry.bound.get? stem).getD ∅

/-- The name bound under a stem for a key. -/
def find? (registry : Registry) (stem : String) (key : Key) : Option Handle :=
  (registry.group stem).get? key

/-- Remember a name under a stem for a key. -/
def record (registry : Registry) (stem : String) (key : Key) (handle : Handle) : Registry :=
  { registry with
    bound := registry.bound.update stem fun group => (group.getD ∅).insert key handle }

/-- The names bound here, stem by stem. -/
def handles (registry : Registry) : List Handle :=
  registry.bound.values.flatMap OrderedMap.values

/-- All names bound here. -/
def selection (registry : Registry) : Selection := .ofList registry.handles

end Registry

/-- A registry and the ledger it writes to. -/
structure Desk where
  ledger : Ledger
  registry : Registry
deriving DecidableEq, Inhabited

/-- What a value is to be bound to: a new name under a stem, or a name given out
before, perhaps by another registry. -/
inductive Target where
  | stem (stem : String)
  | name (handle : Handle)

/-- The stem under which the value is registered. -/
def Target.effectiveStem : Target → String
  | .stem s => s
  | .name h => h.stem

/-- Computations on a desk that may fail. -/
abbrev Registering := EStateM Fault Desk

namespace Registering

/-- Allocate a name without a value. -/
def newName (stem : String) : Registering Handle := do
  let desk ← get
  match Allocator.allocate stem desk.registry.allocator with
  | .ok ident allocator =>
    let (handle, ledger) := desk.ledger.issue ident stem
    set { desk with ledger, registry.allocator := allocator }
    return handle
  | .error fault allocator =>
    set { desk with registry.allocator := allocator }
    throw fault

/-- The name that a target stands for. -/
def resolve : Target → Registering Handle
  | .stem stem => newName stem
  | .name handle => pure handle

/-- Add a reference to the registry's table; the result is its index. -/
def pushRef (stem : String) (ref : Ref) : Registering Nat := do
  let desk ← get
  set { desk with ledger := desk.ledger.push desk.registry.table stem ref }
  return (desk.ledger.table desk.registry.table).size stem

/-- Bind a name that is not bound yet. -/
def setBinding (handle : Handle) (binding : Binding) : Registering Unit := do
  let desk ← get
  match desk.ledger.binding? handle with
  | some _ => throw (.alreadyBound handle.text)
  | none => set { desk with ledger := desk.ledger.bind handle binding }

/-- Remember a name in the registry. -/
def record (stem : String) (key : Key) (handle : Handle) : Registering Unit :=
  modify fun desk => { desk with registry := desk.registry.record stem key handle }

/-- Bind a name to a value whose reference is `ref`, and remember it for a key. -/
def bindName (stem : String) (key : Key) (ref : Ref) (value : Value) (handle : Handle) :
    Registering Handle := do
  match (← get).ledger.binding? handle with
  | some _ => throw (.alreadyBound handle.text)
  | none =>
    let index ← pushRef stem ref
    setBinding handle ⟨value, ⟨stem, index⟩⟩
    record stem key handle
    return handle

/-- Register a value: find the name it has under the target's stem, or bind the
target to it. -/
def register (target : Target) (value : Value) : Registering Handle := do
  let stem := target.effectiveStem
  match value.ref? with
  | none => throw (.missingRef stem)
  | some ref =>
    let key := value.key?.getD (.ref ref)
    match (← get).registry.find? stem key with
    | some handle => return handle
    | none =>
      let handle ← resolve target
      bindName stem key ref value handle

end Registering

end NameScope
