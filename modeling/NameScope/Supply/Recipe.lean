import NameScope.Emission

/-!
# Recipes

A `Recipe` is what a supplier does for one name, step by step: it adds code,
emits what the value depends on, and in the end hands over what it has put
together, declines, or fails. Code that was emitted on the way becomes part of
what it puts together, and a fault of such an emission is its own fault. A
recipe can touch the tracker by emitting only.

`Recipes.supplier` follows recipes. As suppliers emit and emissions ask
suppliers, the depth to which this may go is bounded by a number; nothing but
reaching the bound depends on it.
-/

namespace NameScope

/-- Which tracker an emission inside a supplier uses. -/
inductive Tracking where
  /-- The tracker that the supplier was handed. -/
  | handed
  /-- A tracker of its own, which starts empty. -/
  | fresh
deriving DecidableEq

/-- An emission that a supplier asks for. -/
structure Errand where
  style : Style
  selection : Selection
  tracking : Tracking := .handed
  /-- Whether the same supplier serves this emission, or none. -/
  supplied : Bool := true
deriving DecidableEq

/-- What a supplier with states in `σ` does for one name. -/
inductive Recipe (σ : Type) where
  /-- Return no code. -/
  | decline (state : σ)
  /-- Return a fault. -/
  | fail (fault : Fault) (state : σ)
  /-- Return what has been put together. -/
  | finish (state : σ)
  /-- Add code. -/
  | add (code : Fragment) (rest : Recipe σ)
  /-- Emit, add the block, and go on as it, the tracker and the state then tell. -/
  | emit (errand : Errand) (state : σ) (resume : Fragment → Tracker → σ → Recipe σ)

/-- The recipe of every name, chosen by the tracker and the state. -/
abbrev Recipes (σ : Type) := Handle → Tracker → σ → Recipe σ

/-- What a supplier did, for the record. -/
inductive Note where
  /-- It was asked for the code of a name. With it stand the progress of the name
  and the number of tracked names at that time. -/
  | asked (name : Handle) (progress : Option Progress) (tracked : Nat)
  /-- It set out to emit. -/
  | emitted (errand : Errand)
deriving DecidableEq

/-- The state of a supplier, with notes of what it did, oldest first. -/
structure Noted (σ : Type) where
  notes : List Note := []
  state : σ

namespace Noted

variable {σ : Type}

/-- Add a note. -/
def note (noted : Noted σ) (entry : Note) : Noted σ :=
  { noted with notes := noted.notes ++ [entry] }

/-- Go over to a state. -/
def moveTo (state : σ) (noted : Noted σ) : Noted σ := { noted with state }

end Noted

namespace Recipe

variable {σ : Type}

/-- Follow a recipe, given how to emit and what has been put together so far. -/
def follow (emit : Errand → EmitM (Noted σ) Fragment) :
    Recipe σ → Fragment → EmitM (Noted σ) (Option Fragment)
  | .decline state, _ => do
    EmitM.modifyState (Noted.moveTo state)
    return none
  | .fail fault state, _ => do
    EmitM.modifyState (Noted.moveTo state)
    EmitM.fail fault
  | .finish state, code => do
    EmitM.modifyState (Noted.moveTo state)
    return some code
  | .add more rest, code => follow emit rest (code ++ more)
  | .emit errand state resume, code => do
    EmitM.modifyState fun noted => (noted.moveTo state).note (.emitted errand)
    let block ← emit errand
    let now ← get
    follow emit (resume block now.tracker now.state.state) (code ++ block)

end Recipe

namespace Errand

/-- Do an errand with the supplier at hand. -/
def run {σ : Type} (ledger : Ledger) (supply : Supplier σ) (errand : Errand) :
    EmitM σ Fragment :=
  let supply := if errand.supplied then supply else .none
  let work := Emission.declarations ledger errand.style supply errand.selection
  match errand.tracking with
  | .handed => work
  | .fresh => EmitM.apart work

end Errand

namespace Recipes

variable {σ : Type}

/-- The supplier that follows recipes, to a depth of so many suppliers at work
inside each other. -/
def supplier (ledger : Ledger) (recipes : Recipes σ) : Nat → Supplier (Noted σ)
  | 0, _ => throw .endless
  | depth + 1, handle => do
    let now ← get
    EmitM.modifyState
      (·.note (.asked handle (now.tracker.progress? handle) now.tracker.size))
    (recipes handle now.tracker now.state.state).follow
      (Errand.run ledger (supplier ledger recipes depth)) ∅

end Recipes

end NameScope
