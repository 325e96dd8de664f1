import NameScope.Ledger
import NameScope.Registry
import NameScope.Proofs.OrderedMap

/-!
# What tables, the ledger and registries answer after a change

One lemma for each question that can be asked after each change, so that no
later proof opens the maps below. `Ledger.Sound` is what every ledger of a
session satisfies: names stand at their numbers, and only names that were given
out are bound. Hence the name that is given out next is not bound yet
(`Ledger.Sound.binding?_next`).
-/

namespace NameScope

namespace Table

theorem column_push (table : Table) (stem other : String) (ref : Ref) :
    (table.push stem ref).column other =
      if other = stem then table.column stem ++ [ref] else table.column other := by
  unfold column push
  rw [OrderedMap.get?_update]
  split <;> rfl

theorem size_push (table : Table) (stem other : String) (ref : Ref) :
    (table.push stem ref).size other =
      if other = stem then table.size stem + 1 else table.size other := by
  unfold size
  rw [column_push]
  split <;> simp

/-- A push leaves every entry where it is. -/
theorem get?_push_of_get? {table : Table} {stem other : String} {ref entry : Ref} {index : Nat}
    (h : table.get? other index = some entry) :
    (table.push stem ref).get? other index = some entry := by
  unfold get? at h ⊢
  rw [column_push]
  split
  · rename_i same
    subst same
    exact List.getElem?_append_left (List.getElem?_eq_some_iff.mp h).1 ▸ h
  · exact h

/-- The entry that a push adds stands at the index that was the size. -/
theorem get?_push_size (table : Table) (stem : String) (ref : Ref) :
    (table.push stem ref).get? stem (table.size stem) = some ref := by
  unfold get? size
  rw [column_push, if_pos rfl]
  exact List.getElem?_concat_length

end Table

namespace Ledger

variable {ledger : Ledger}

theorem table_push (id number : Nat) (stem : String) (ref : Ref) :
    (ledger.push id stem ref).table number =
      if number = id then (ledger.table id).push stem ref else ledger.table number := by
  unfold table push
  rw [OrderedMap.get?_update]
  split <;> rfl

@[simp] theorem binding?_push (id : Nat) (stem : String) (ref : Ref) (handle : Handle) :
    (ledger.push id stem ref).binding? handle = ledger.binding? handle := rfl

@[simp] theorem handles_push (id : Nat) (stem : String) (ref : Ref) :
    (ledger.push id stem ref).handles = ledger.handles := rfl

theorem binding?_bind (handle other : Handle) (binding : Binding) :
    (ledger.bind handle binding).binding? other =
      if other = handle then some binding else ledger.binding? other :=
  OrderedMap.get?_insert ledger.bindings handle binding other

@[simp] theorem table_bind (handle : Handle) (binding : Binding) (number : Nat) :
    (ledger.bind handle binding).table number = ledger.table number := rfl

@[simp] theorem handles_bind (handle : Handle) (binding : Binding) :
    (ledger.bind handle binding).handles = ledger.handles := rfl

/-- Names stand at their numbers, and only names given out are bound. -/
structure Sound (ledger : Ledger) : Prop where
  numbered : ledger.handles.map Handle.id = List.range ledger.handles.length
  issued : ∀ (handle : Handle) (binding : Binding),
    ledger.binding? handle = some binding → handle ∈ ledger.handles

theorem Sound.id_lt (sound : ledger.Sound) {handle : Handle} (h : handle ∈ ledger.handles) :
    handle.id < ledger.handles.length := by
  have numbered := List.mem_map_of_mem (f := Handle.id) h
  rw [sound.numbered] at numbered
  exact List.mem_range.mp numbered

theorem Sound.id_eq (sound : ledger.Sound) {place : Nat} {handle : Handle}
    (here : ledger.handles[place]? = some handle) : handle.id = place := by
  obtain ⟨inside, -⟩ := List.getElem?_eq_some_iff.mp here
  have numbered : (ledger.handles.map Handle.id)[place]? = some place := by
    rw [sound.numbered, List.getElem?_range inside]
  rw [List.getElem?_map, here, Option.map_some] at numbered
  exact Option.some.inj numbered

/-- A name stands at its number. -/
theorem Sound.getElem?_id (sound : ledger.Sound) {handle : Handle} (h : handle ∈ ledger.handles) :
    ledger.handles[handle.id]? = some handle := by
  obtain ⟨place, here⟩ := List.mem_iff_getElem?.mp h
  rwa [sound.id_eq here]

/-- Names with one number are one name. -/
theorem Sound.eq_of_id (sound : ledger.Sound) {handle other : Handle}
    (h : handle ∈ ledger.handles) (h' : other ∈ ledger.handles) (same : handle.id = other.id) :
    handle = other := by
  have here := sound.getElem?_id h
  rw [same, sound.getElem?_id h'] at here
  exact (Option.some.inj here).symm

/-- A name with the next number is not bound. -/
theorem Sound.binding?_next (sound : ledger.Sound) {handle : Handle}
    (next : handle.id = ledger.handles.length) : ledger.binding? handle = none := by
  cases h : ledger.binding? handle with
  | none => rfl
  | some binding =>
      have := sound.id_lt (sound.issued handle binding h)
      omega

end Ledger

namespace Registry

variable {registry : Registry}

theorem group_record (stem other : String) (key : Key) (handle : Handle) :
    (registry.record stem key handle).group other =
      if other = stem then (registry.group stem).insert key handle else registry.group other := by
  unfold group record
  rw [OrderedMap.get?_update]
  split <;> rfl

theorem find?_record (stem other : String) (key question : Key) (handle : Handle) :
    (registry.record stem key handle).find? other question =
      if other = stem ∧ question = key then some handle else registry.find? other question := by
  unfold find?
  rw [group_record]
  by_cases same : other = stem
  · subst same
    simp only [if_true, OrderedMap.get?_insert, true_and]
  · simp [same]

/-- The names bound in a registry are those that it finds. -/
theorem mem_handles_iff {handle : Handle} :
    handle ∈ registry.handles ↔ ∃ stem key, registry.find? stem key = some handle := by
  unfold handles find? group
  simp only [List.mem_flatMap, OrderedMap.mem_values_iff]
  constructor
  · rintro ⟨group, ⟨stem, here⟩, key, found⟩
    exact ⟨stem, key, by rw [here]; exact found⟩
  · rintro ⟨stem, key, found⟩
    cases here : registry.bound.get? stem with
    | none => simp [here] at found
    | some group => exact ⟨group, ⟨stem, here⟩, key, by simpa [here] using found⟩

/-- Recording a name for a key that has none adds this one name. -/
theorem mem_handles_record {stem : String} {key : Key} {handle other : Handle}
    (vacant : registry.find? stem key = none) :
    other ∈ (registry.record stem key handle).handles ↔
      other = handle ∨ other ∈ registry.handles := by
  simp only [mem_handles_iff, find?_record]
  constructor
  · rintro ⟨stem', key', found⟩
    split at found
    · exact .inl (Option.some.inj found).symm
    · exact .inr ⟨stem', key', found⟩
  · rintro (rfl | ⟨stem', key', found⟩)
    · exact ⟨stem, key, if_pos ⟨rfl, rfl⟩⟩
    · refine ⟨stem', key', ?_⟩
      rw [if_neg]
      · exact found
      · rintro ⟨rfl, rfl⟩
        rw [vacant] at found
        exact absurd found (by simp)

end Registry

end NameScope
