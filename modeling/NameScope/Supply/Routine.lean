import NameScope.Supply.Recipe

/-!
# Routines

A `Routine` is what a supplier does for one name if it is told when an emission fails:
it may hand the failure on, answer otherwise, or go on and emit something else. Code
is whatever it makes of the blocks that it is given, so it does not add any step by
step. A recipe is a routine that hands every failure on (`Recipe.routine`).
-/

namespace NameScope

/-- A fault, and the names whose pieces were being produced, outermost first. -/
structure Failure where
  fault : Fault
  during : List Handle := []

/-- What a supplier with states in `σ` does for one name, whatever comes of the
emissions it asks for. -/
inductive Routine (σ : Type) where
  /-- Return code, decline, or fail. -/
  | answer (code? : Except Failure (Option Fragment)) (state : σ)
  /-- Emit, and go on as the block or the failure, the tracker and the state then tell. -/
  | emit (errand : Errand) (state : σ)
      (resume : Except Failure Fragment → Tracker → σ → Routine σ)

/-- The routine of every name, chosen by the tracker and the state. -/
abbrev Routines (σ : Type) := Handle → Tracker → σ → Routine σ

/-- Go on after a fault, with what the computation has changed. -/
def EmitM.attempt {σ α : Type} (work : EmitM σ α) : EmitM σ (Except Failure α) := fun st =>
  match work st with
  | .ok a st => .ok (.ok a) st
  | .error (.failed fault during) st => .ok (.error ⟨fault, during⟩) st
  | .error .endless st => .error .endless st

namespace Routine

variable {σ : Type}

/-- Follow a routine, given how to emit. -/
def follow (emit : Errand → EmitM (Noted σ) Fragment) :
    Routine σ → EmitM (Noted σ) (Option Fragment)
  | .answer code? state => do
    EmitM.modifyState (Noted.moveTo state)
    match code? with
    | .ok code? => return code?
    | .error failure => throw (.failed failure.fault failure.during)
  | .emit errand state resume => do
    EmitM.modifyState fun noted => (noted.moveTo state).note (.emitted errand)
    let block ← EmitM.attempt (emit errand)
    let now ← get
    follow emit (resume block now.tracker now.state.state)

end Routine

namespace Routines

variable {σ : Type}

/-- The supplier that follows routines, to a depth of so many suppliers at work inside
each other. -/
def supplier (ledger : Ledger) (routines : Routines σ) : Nat → Supplier (Noted σ)
  | 0, _ => throw .endless
  | depth + 1, handle => do
    let now ← get
    EmitM.modifyState
      (·.note (.asked handle (now.tracker.progress? handle) now.tracker.size))
    (routines handle now.tracker now.state.state).follow
      (Errand.run ledger (supplier ledger routines depth))

end Routines

/-! ## Recipes as routines -/

section Recipes

variable {σ : Type}

/-- The routine of a recipe that has put together some code. -/
def Recipe.routine : Recipe σ → Fragment → Routine σ
  | .decline state, _ => .answer (.ok none) state
  | .fail fault state, _ => .answer (.error { fault }) state
  | .finish state, code => .answer (.ok (some code)) state
  | .add more rest, code => rest.routine (code ++ more)
  | .emit errand state resume, code => .emit errand state fun
    | .ok block, tracker, state => (resume block tracker state).routine (code ++ block)
    | .error failure, _, state => .answer (.error failure) state

end Recipes

end NameScope
