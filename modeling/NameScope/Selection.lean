import NameScope.Handle
import NameScope.OrderedMap

/-!
# Selections

A `Selection` is a list of names without repetitions, grouped by stem. The
groups come in the order in which their stems first occurred, and the names of
a group in the order in which they were inserted.
-/

namespace NameScope

/-- What the group of a stem satisfies: it is not empty, no name stands in it
twice, and all its names have that stem. -/
structure Selection.GroupSound (group : String × List Handle) : Prop where
  occupied : group.2 ≠ []
  nodup : group.2.Nodup
  stems : ∀ handle ∈ group.2, handle.stem = group.1

/-- An ordered set of names, grouped by stem. -/
structure Selection where
  groups : OrderedMap String (List Handle) := ∅
  sound : ∀ group ∈ groups.entries, Selection.GroupSound group := by
    exact fun _ h => absurd h List.not_mem_nil

namespace Selection

/-- The selection without names. -/
def empty : Selection := {}

instance : EmptyCollection Selection := ⟨empty⟩

instance : Inhabited Selection := ⟨empty⟩

instance : DecidableEq Selection := fun a b =>
  if h : a.groups = b.groups then
    isTrue (by cases a; cases b; cases h; rfl)
  else isFalse (fun e => h (e ▸ rfl))

@[ext] theorem ext {a b : Selection} (h : a.groups = b.groups) : a = b := by
  cases a; cases b; cases h; rfl

/-- The names under a stem. -/
def group (selection : Selection) (stem : String) : List Handle :=
  (selection.groups.get? stem).getD []

/-- Whether the name is selected. -/
def contains (selection : Selection) (handle : Handle) : Bool :=
  (selection.group handle.stem).contains handle

/-- A group with a name that it is to hold; one that it holds keeps its place. -/
def join (handle : Handle) (group : Option (List Handle)) : List Handle :=
  let handles := group.getD []
  if handles.contains handle then handles else handles ++ [handle]

private theorem groupSound_join {group : Option (List Handle)} {handle : Handle}
    (h : ∀ handles, group = some handles → GroupSound (handle.stem, handles)) :
    GroupSound (handle.stem, join handle group) := by
  have nodup : (group.getD []).Nodup := by
    cases group with
    | none => exact List.nodup_nil
    | some handles => exact (h handles rfl).nodup
  have stems : ∀ other ∈ group.getD [], other.stem = handle.stem := by
    cases group with
    | none => exact fun _ h => absurd h List.not_mem_nil
    | some handles => exact (h handles rfl).stems
  by_cases held : handle ∈ group.getD []
  · have same : join handle group = group.getD [] := by simp [join, held]
    exact ⟨same ▸ List.ne_nil_of_mem held, same ▸ nodup, same ▸ stems⟩
  · have longer : join handle group = group.getD [] ++ [handle] := by simp [join, held]
    refine ⟨by simp [longer], ?_, ?_⟩
    · simp only [longer]
      exact List.nodup_append.2 ⟨nodup, by simp, fun a ha b hb hab =>
        held ((List.mem_singleton.1 hb) ▸ hab ▸ ha)⟩
    · simpa [longer, or_imp, forall_and] using stems

/-- Select a name; one that is selected keeps its place. -/
def insert (selection : Selection) (handle : Handle) : Selection where
  groups := selection.groups.update handle.stem (join handle)
  sound := by
    intro group h
    rcases OrderedMap.mem_entries_update h with h | rfl
    · exact selection.sound group h
    · exact groupSound_join fun handles found =>
        selection.sound _ (OrderedMap.mem_entries_of_get? found)

/-- Select a name and tell whether it is new. -/
def insertNew (selection : Selection) (handle : Handle) : Bool × Selection :=
  (!selection.contains handle, selection.insert handle)

/-- The selection of the names of a list. -/
def ofList (handles : List Handle) : Selection := handles.foldl insert ∅

/-- The names in order, group by group. -/
def toList (selection : Selection) : List Handle := selection.groups.values.flatten

/-- The number of names. -/
def size (selection : Selection) : Nat := selection.toList.length

/-- Whether no name is selected. -/
def isEmpty (selection : Selection) : Bool := selection.size == 0

end Selection

end NameScope
