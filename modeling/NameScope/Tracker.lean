import NameScope.Handle
import NameScope.OrderedMap

/-!
# Trackers

A `Tracker` keeps which names have been emitted, so that no name is declared
twice. A name is started before its code is produced and completed afterwards;
neither is ever taken back.
-/

namespace NameScope

/-- How far the emission of a name has come. -/
inductive Progress where
  | started
  | completed
deriving DecidableEq, Repr

/-- The names whose emission has begun. -/
structure Tracker where
  states : OrderedMap Handle Progress := ∅
deriving DecidableEq, Inhabited

namespace Tracker

/-- The tracker without names. -/
def empty : Tracker := {}

instance : EmptyCollection Tracker := ⟨empty⟩

/-- How far the emission of a name has come, if it has begun. -/
def progress? (tracker : Tracker) (handle : Handle) : Option Progress :=
  tracker.states.get? handle

/-- Whether the emission of a name has begun. -/
def tracks (tracker : Tracker) (handle : Handle) : Bool := (tracker.progress? handle).isSome

/-- The number of tracked names. -/
def size (tracker : Tracker) : Nat := tracker.states.keys.length

/-- Whether no name is tracked. -/
def isEmpty (tracker : Tracker) : Bool := tracker.size == 0

/-- Begin the emission of a name, unless it has begun before. -/
def start (tracker : Tracker) (handle : Handle) : Tracker :=
  ⟨tracker.states.update handle (·.getD .started)⟩

/-- Complete the emission of a name that has begun. -/
def complete (tracker : Tracker) (handle : Handle) : Tracker :=
  if tracker.tracks handle then ⟨tracker.states.insert handle .completed⟩ else tracker

end Tracker

end NameScope
