import NameScope.Ledger
import NameScope.Fault
import NameScope.Selection
import NameScope.Style
import NameScope.Tracker

/-!
# Emission of declarations

An emission turns selected names into a block of declarations. Each name gives
one piece: an import, a declaration with the value's code, or whatever a
supplier returns for a value that has neither. A name that the tracker knows is
passed over. A name is started in the tracker before its piece is produced, so
a supplier that emits what the value depends on, with the tracker it was handed,
never comes back to the value itself.

`slotReads` is the other form of a block: every name is declared as a read of
its slot.
-/

namespace NameScope

/-! ## The form of one declaration -/

/-- The declaration that loads `source` as `name`. -/
def Style.load (style : Style) (name : Ident) (source : Import) : Fragment :=
  if style.esm then
    .text ("import \x7b" ++ source.binding ++ " as ") ++ .ident name ++ .text "\x7d from "
      ++ .literal (source.package ++ ".js") ++ .text ";"
  else
    .text (style.keyword.text ++ " ") ++ .ident name ++ .text " = require("
      ++ .literal source.package ++ .text (")." ++ source.binding ++ ";")

/-- What a declaration is made from. -/
inductive Origin where
  | load (source : Import)
  | code (code : Fragment)
  /-- Nothing but the value itself: a supplier has to give the code. -/
  | missing (value : Value)

namespace Value

/-- What a declaration of the value is made from. -/
def origin (value : Value) : Origin :=
  match value.kind with
  | .imported source => if source.isUsable then .load source else .missing value
  | .inline (some code) => .code code
  | .inline none => .missing value

end Value

/-- The name and the code of one declaration. -/
structure Piece where
  name : Handle
  code : Fragment
deriving DecidableEq

/-- Pieces one after another, each followed by the separator. -/
def Style.block (style : Style) (pieces : List Piece) : Fragment :=
  .concat (pieces.map fun piece => piece.code ++ style.separator)

/-! ## Emission with a tracker and a supplier -/

/-- What ends an emission early. -/
inductive Stop where
  /-- A fault, and the names whose pieces were being produced, outermost first. -/
  | failed (fault : Fault) (during : List Handle)
  /-- Suppliers emit without end. -/
  | endless
deriving DecidableEq

/-- What changes during an emission. -/
structure Emitting (σ : Type) where
  tracker : Tracker := ∅
  /-- The names completed in this tracker, in order of completion. -/
  journal : List Handle := []
  /-- The supplier's own state. -/
  state : σ

/-- Computations that track names and may stop. -/
abbrev EmitM (σ : Type) := EStateM Stop (Emitting σ)

/-- Gives code for values that have none, or declines to. It may use and change
the tracker, and it keeps a state of its own. -/
abbrev Supplier (σ : Type) := Handle → EmitM σ (Option Fragment)

namespace EmitM

variable {σ : Type}

/-- Stop with a fault. -/
def fail {α : Type} (fault : Fault) : EmitM σ α := throw (.failed fault [])

/-- Begin the emission of a name. -/
def start (handle : Handle) : EmitM σ Unit :=
  modify fun st => { st with tracker := st.tracker.start handle }

/-- Complete the emission of a name, and put it into the journal. -/
def complete (handle : Handle) : EmitM σ Unit :=
  modify fun st =>
    { st with tracker := st.tracker.complete handle, journal := st.journal ++ [handle] }

/-- Change the supplier's state. -/
def modifyState (change : σ → σ) : EmitM σ Unit :=
  modify fun st => { st with state := change st.state }

/-- Note, if the computation fails, that it was done for `handle`. -/
def during {α : Type} (handle : Handle) (work : EmitM σ α) : EmitM σ α := fun st =>
  match work st with
  | .error (.failed fault handles) st => .error (.failed fault (handle :: handles)) st
  | result => result

/-- Run a computation with a tracker and a journal of its own, and go on with
those at hand. -/
def apart {α : Type} (work : EmitM σ α) : EmitM σ α := fun st =>
  match work { state := st.state } with
  | .ok a st' => .ok a { st with state := st'.state }
  | .error (.failed fault _) st' => .error (.failed fault []) { st with state := st'.state }
  | .error .endless st' => .error .endless { st with state := st'.state }

end EmitM

/-- The supplier that always declines. -/
def Supplier.none {σ : Type} : Supplier σ := fun _ => pure Option.none

namespace Emission

variable {σ : Type}

/-- The code of a name's piece. -/
def code (ledger : Ledger) (style : Style) (supply : Supplier σ) (handle : Handle) :
    EmitM σ Fragment :=
  match ledger.binding? handle with
  | none => EmitM.fail (.unbound handle.text)
  | some binding =>
    match binding.value.origin with
    | .load source => pure (style.load handle.ident source)
    | .code code => pure (style.declare handle.ident code)
    | .missing value => do
      match ← supply handle with
      | some code => pure code
      | none => EmitM.fail (.noCode handle.text value)

/-- The piece of a name, unless it is tracked. -/
def piece? (ledger : Ledger) (style : Style) (supply : Supplier σ) (handle : Handle) :
    EmitM σ (Option Piece) := do
  if (← get).tracker.tracks handle then
    return none
  else
    EmitM.start handle
    let code ← EmitM.during handle (code ledger style supply handle)
    EmitM.complete handle
    return some ⟨handle, code⟩

/-- The pieces of the names that are not tracked, in order. -/
def pieces (ledger : Ledger) (style : Style) (supply : Supplier σ) :
    List Handle → EmitM σ (List Piece)
  | [] => pure []
  | handle :: rest => do
    let piece ← piece? ledger style supply handle
    let later ← pieces ledger style supply rest
    return piece.toList ++ later

/-- The block of declarations of a selection. -/
def declarations (ledger : Ledger) (style : Style) (supply : Supplier σ)
    (selection : Selection) : EmitM σ Fragment := do
  let pieces ← pieces ledger style supply selection.toList
  return style.block pieces

/-! ## Reads of slots -/

/-- The declaration of a name as a read of its slot in `store`. -/
def slotRead (ledger : Ledger) (style : Style) (store : Ident) (handle : Handle) :
    Except Fault Piece :=
  match ledger.binding? handle with
  | none => .error (.unbound handle.text)
  | some binding =>
    .ok ⟨handle, style.declare handle.ident (.ident store ++ binding.slot.access)⟩

/-- The block that declares every name of a selection as a read of its slot. -/
def slotReads (ledger : Ledger) (style : Style) (store : Ident) (selection : Selection) :
    Except Fault Fragment := do
  let pieces ← selection.toList.mapM (slotRead ledger style store)
  return style.block pieces

end Emission

end NameScope
