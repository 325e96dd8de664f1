import NameScope.Supply.Recipe

/-!
# Scripts

A `Script` is a supplier written down as data: rules that give names their
answers, and an answer for all other names. A script has no state. Since it
names every selection that it can ever emit, a depth can be computed that no
run reaches unless it goes on for ever.
-/

namespace NameScope

namespace Script

/-- One part of an assembled code. -/
inductive Part where
  | code (code : Fragment)
  /-- The identifier of the name that is being supplied. -/
  | self
  /-- The block of an emission. -/
  | emit (errand : Errand)
  /-- The block of reads of slots in a store. -/
  | slotReads (style : Style) (store : Ident) (selection : Selection)
deriving DecidableEq

/-- What a script answers for a name. -/
inductive Answer where
  | decline
  | fail (fault : Fault)
  | assemble (parts : List Part)
deriving DecidableEq

end Script

/-- A supplier as data. -/
structure Script where
  /-- Names with their answers; the first rule for a name counts. -/
  rules : List (Handle × Script.Answer) := []
  /-- The answer for a name without a rule. -/
  otherwise : Script.Answer := .decline
deriving DecidableEq

namespace Script

/-- The answer for a name. -/
def answer (script : Script) (handle : Handle) : Answer :=
  ((script.rules.find? (·.1 = handle)).map Prod.snd).getD script.otherwise

/-- The recipe that assembles parts for a name. -/
def assembly (ledger : Ledger) (handle : Handle) : List Part → Recipe Unit
  | [] => .finish ()
  | .code code :: rest => .add code (assembly ledger handle rest)
  | .self :: rest => .add (.ident handle.ident) (assembly ledger handle rest)
  | .emit errand :: rest => .emit errand () fun _ _ _ => assembly ledger handle rest
  | .slotReads style store selection :: rest =>
    match Emission.slotReads ledger style store selection with
    | .ok block => .add block (assembly ledger handle rest)
    | .error fault => .fail fault ()

/-- The recipe for an answer. -/
def Answer.recipe (ledger : Ledger) (handle : Handle) : Answer → Recipe Unit
  | .decline => .decline ()
  | .fail fault => .fail fault ()
  | .assemble parts => assembly ledger handle parts

/-- The recipes of a script. -/
def recipes (ledger : Ledger) (script : Script) : Recipes Unit :=
  fun handle _ _ => (script.answer handle).recipe ledger handle

/-! ## The depth of a script -/

/-- The emissions that an answer asks for. -/
def Answer.errands : Answer → List Errand
  | .assemble parts => parts.filterMap fun
    | .emit errand => some errand
    | _ => none
  | _ => []

/-- The emissions that a script can ask for. -/
def errands (script : Script) : List Errand :=
  script.rules.flatMap (·.2.errands) ++ script.otherwise.errands

/-- A depth that suffices for an emission of `selected`. Suppliers at work inside
each other serve different names as long as they share a tracker. A fresh one
with the same supplier always leads to the same work, so at most one of each is
open at a time in a run that ends. -/
def depth (script : Script) (selected : List Handle) : Nat :=
  let names := selected ++ script.errands.flatMap (·.selection.toList)
  let restarts := script.errands.filter fun errand =>
    errand.supplied && errand.tracking = .fresh
  (restarts.length + 1) * (names.length + 1)

/-- The supplier of a script for an emission of `selected`. -/
def supplier (ledger : Ledger) (script : Script) (selected : List Handle) :
    Supplier (Noted Unit) :=
  (script.recipes ledger).supplier ledger (script.depth selected)

end Script

end NameScope
