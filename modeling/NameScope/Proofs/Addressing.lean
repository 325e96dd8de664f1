import Mathlib.Data.Set.Function
import Mathlib.Order.Interval.Set.Basic
import NameScope.Proofs.Change
import NameScope.Proofs.Selection

/-!
# Names and the slots of tables

Every name that a registry has bound says in which slot its reference stands,
although the table is shared with other registries and the address is kept with
the name. `Session.Addressed` is the invariant over all registries at once: each
name leads to its reference, and under each stem of a table the names of all
registries that write to it use each index exactly once. `Ledger.Extends` says
what never changes again.
-/

namespace NameScope

namespace Ledger

/-- The index at which the reference of a bound name stands. -/
def index? (ledger : Ledger) (handle : Handle) : Option Nat :=
  (ledger.binding? handle).map (·.slot.index)

/-- The slot of a bound name belongs to the name's stem, and in a table it holds
the reference of the name's value. -/
def Addresses (ledger : Ledger) (table : Nat) (handle : Handle) : Prop :=
  ∃ binding ref, ledger.binding? handle = some binding ∧
    binding.slot.stem = handle.stem ∧ binding.value.ref? = some ref ∧
    (ledger.table table).get? binding.slot.stem binding.slot.index = some ref

/-- All that is bound stays bound as it is, and all entries of tables stay. -/
structure Extends (earlier later : Ledger) : Prop where
  bindings : ∀ (handle : Handle) (binding : Binding),
    earlier.binding? handle = some binding → later.binding? handle = some binding
  entries : ∀ (table : Nat) (stem : String) (index : Nat) (ref : Ref),
    (earlier.table table).get? stem index = some ref →
      (later.table table).get? stem index = some ref

theorem Extends.refl (ledger : Ledger) : ledger.Extends ledger :=
  ⟨fun _ _ bound => bound, fun _ _ _ _ entry => entry⟩

theorem Extends.trans {first second third : Ledger} (before : first.Extends second)
    (after : second.Extends third) : first.Extends third :=
  ⟨fun handle binding bound => after.bindings _ _ (before.bindings handle binding bound),
    fun table stem index ref entry =>
      after.entries _ _ _ _ (before.entries table stem index ref entry)⟩

/-- A name that leads to its reference goes on to do so. -/
theorem Extends.addresses {earlier later : Ledger} (extended : earlier.Extends later)
    {table : Nat} {handle : Handle} (h : earlier.Addresses table handle) :
    later.Addresses table handle := by
  obtain ⟨binding, ref, bound, stem, present, entry⟩ := h
  exact ⟨binding, ref, extended.bindings _ _ bound, stem, present,
    extended.entries _ _ _ _ entry⟩

theorem Extends.index?_eq {earlier later : Ledger} (extended : earlier.Extends later)
    {table : Nat} {handle : Handle} (h : earlier.Addresses table handle) :
    later.index? handle = earlier.index? handle := by
  obtain ⟨binding, -, bound, -⟩ := h
  unfold index?
  rw [bound, extended.bindings _ _ bound]

end Ledger

namespace Desk

variable (desk : Desk) {handle : Handle} (key : Key) {ref : Ref} {value : Value}

theorem binding?_enroll (other : Handle) :
    (desk.enroll handle key ref value).ledger.binding? other =
      if other = handle then
        some ⟨value, ⟨handle.stem, (desk.ledger.table desk.registry.table).size handle.stem⟩⟩
      else desk.ledger.binding? other := by
  unfold enroll
  rw [Ledger.binding?_bind]
  rfl

theorem binding?_enroll_self (handle : Handle) (ref : Ref) (value : Value) :
    (desk.enroll handle key ref value).ledger.binding? handle =
      some ⟨value, ⟨handle.stem, (desk.ledger.table desk.registry.table).size handle.stem⟩⟩ :=
  (desk.binding?_enroll key handle).trans (if_pos rfl)

theorem table_enroll (number : Nat) :
    (desk.enroll handle key ref value).ledger.table number =
      if number = desk.registry.table then
        (desk.ledger.table desk.registry.table).push handle.stem ref
      else desk.ledger.table number := by
  unfold enroll
  rw [Ledger.table_bind, Ledger.table_push]

theorem size_enroll (number : Nat) (stem : String) :
    ((desk.enroll handle key ref value).ledger.table number).size stem =
      if number = desk.registry.table ∧ stem = handle.stem then
        (desk.ledger.table number).size stem + 1
      else (desk.ledger.table number).size stem := by
  rw [table_enroll]
  by_cases ours : number = desk.registry.table
  · subst ours
    rw [if_pos rfl, Table.size_push]
    by_cases same : stem = handle.stem
    · simp [same]
    · simp [same]
  · simp [ours]

theorem extends_enroll (unbound : desk.ledger.binding? handle = none) :
    desk.ledger.Extends (desk.enroll handle key ref value).ledger := by
  refine ⟨fun other binding bound => ?_, fun table stem index entry held => ?_⟩
  · rw [binding?_enroll, if_neg]
    · exact bound
    · rintro rfl
      rw [unbound] at bound
      exact absurd bound (by simp)
  · rw [table_enroll]
    split
    · rename_i ours
      exact Table.get?_push_of_get? (ours ▸ held)
    · exact held

/-- The name that is bound leads to its reference. -/
theorem addresses_enroll (present : value.ref? = some ref) :
    (desk.enroll handle key ref value).ledger.Addresses desk.registry.table handle := by
  refine ⟨_, ref, desk.binding?_enroll_self key handle ref value, rfl, present, ?_⟩
  rw [table_enroll, if_pos rfl]
  exact Table.get?_push_size _ _ _

end Desk

namespace Registry

/-- All names bound in a registry are selected from it. -/
theorem mem_toList_selection {registry : Registry} {handle : Handle} :
    handle ∈ registry.selection.toList ↔ handle ∈ registry.handles :=
  Selection.mem_toList_ofList registry.handles

end Registry

namespace Session

/-- The names that the registries writing to a table have bound under a stem. -/
def entered (session : Session) (table : Nat) (stem : String) : Set Handle :=
  {handle | handle.stem = stem ∧ ∃ registry ∈ session.registries,
    registry.table = table ∧ handle ∈ registry.selection.toList}

/-- Every bound name leads to its reference, and under each stem of a table the
names use each index exactly once. -/
structure Addressed (session : Session) : Prop where
  addresses : ∀ table stem, ∀ handle ∈ session.entered table stem,
    session.ledger.Addresses table handle
  bijective : ∀ table stem, Set.BijOn session.ledger.index? (session.entered table stem)
    (some '' Set.Iio ((session.ledger.table table).size stem))

variable {session later : Session} {number : Nat} {registry : Registry}

/-- The other registries stay when a desk is put back. -/
theorem mem_registries_put (here : session.registries[number]? = some registry) (desk : Desk)
    {other : Registry} (h : other ∈ session.registries) :
    other = registry ∨ other ∈ (session.put number desk).registries := by
  obtain ⟨place, there⟩ := List.mem_iff_getElem?.mp h
  by_cases same : number = place
  · subst same
    exact .inl (Option.some.inj (there.symm.trans here))
  · refine .inr (List.mem_of_getElem? (i := place) ?_)
    unfold put
    rw [List.getElem?_set_ne same]
    exact there

/-- Putting back a desk whose registry has bound `fresh` names adds them to the
names of its table. -/
theorem mem_entered_put (here : session.registries[number]? = some registry) {desk : Desk}
    (fresh : Handle → Prop) (sameTable : desk.registry.table = registry.table)
    (handles : ∀ handle, handle ∈ desk.registry.handles ↔ fresh handle ∨ handle ∈ registry.handles)
    {table : Nat} {stem : String} {handle : Handle} :
    handle ∈ (session.put number desk).entered table stem ↔
      (handle.stem = stem ∧ registry.table = table ∧ fresh handle) ∨
        handle ∈ session.entered table stem := by
  have member : registry ∈ session.registries := List.mem_of_getElem? here
  have put : desk.registry ∈ (session.put number desk).registries :=
    List.mem_of_getElem? (getElem?_put_self here desk)
  constructor
  · rintro ⟨hasStem, other, among, ofTable, held⟩
    rcases List.mem_or_eq_of_mem_set among with old | rfl
    · exact .inr ⟨hasStem, other, old, ofTable, held⟩
    · rw [Registry.mem_toList_selection, handles] at held
      rcases held with new | held
      · exact .inl ⟨hasStem, sameTable ▸ ofTable, new⟩
      · exact .inr ⟨hasStem, registry, member, sameTable ▸ ofTable,
          Registry.mem_toList_selection.mpr held⟩
  · rintro (⟨hasStem, ofTable, new⟩ | ⟨hasStem, other, among, ofTable, held⟩)
    · exact ⟨hasStem, desk.registry, put, sameTable.trans ofTable,
        Registry.mem_toList_selection.mpr ((handles handle).mpr (.inl new))⟩
    · rcases mem_registries_put here desk among with rfl | stays
      · refine ⟨hasStem, desk.registry, put, sameTable.trans ofTable, ?_⟩
        rw [Registry.mem_toList_selection] at held ⊢
        exact (handles handle).mpr (.inr held)
      · exact ⟨hasStem, other, stays, ofTable, held⟩

/-! ## What a change keeps -/

theorem Change.extends (change : Change session later) :
    session.ledger.Extends later.ledger := by
  cases change with
  | tools allocators tables => exact .refl _
  | opened scope table style => exact .refl _
  | issued stem here admitted => exact ⟨fun _ _ bound => bound, fun _ _ _ _ entry => entry⟩
  | @enrolled number registry handle value ref here given unbound present vacant =>
      exact (session.desk registry).extends_enroll (value.key?.getD (.ref ref)) unbound

theorem extends_of_changes (changes : Changes session later) :
    session.ledger.Extends later.ledger := by
  induction changes with
  | refl => exact .refl _
  | tail _ change ih => exact ih.trans change.extends

/-- A change that enters no name and no reference. -/
theorem Addressed.of_same (addressed : session.Addressed)
    (extended : session.ledger.Extends later.ledger)
    (entered : ∀ table stem, later.entered table stem = session.entered table stem)
    (sizes : ∀ table stem,
      (later.ledger.table table).size stem = (session.ledger.table table).size stem) :
    later.Addressed := by
  refine ⟨fun table stem handle held => ?_, fun table stem => ?_⟩
  · rw [entered] at held
    exact extended.addresses (addressed.addresses table stem handle held)
  · rw [entered, sizes]
    refine (addressed.bijective table stem).congr (fun handle held => ?_)
    exact (extended.index?_eq (addressed.addresses table stem handle held)).symm

/-- A name that is not bound has not been entered anywhere. -/
theorem Addressed.not_mem_entered (addressed : session.Addressed) {handle : Handle}
    (unbound : session.ledger.binding? handle = none) (table : Nat) (stem : String) :
    handle ∉ session.entered table stem := by
  intro held
  obtain ⟨binding, -, bound, -⟩ := addressed.addresses table stem handle held
  rw [unbound] at bound
  exact absurd bound (by simp)

/-- Binding a name enters it in one table under its stem, and nowhere else. -/
theorem entered_enroll (here : session.registries[number]? = some registry) {handle : Handle}
    {key : Key} (ref : Ref) (value : Value) (vacant : registry.find? handle.stem key = none)
    (table : Nat) (stem : String) :
    (session.put number ((session.desk registry).enroll handle key ref value)).entered table stem =
      if table = registry.table ∧ stem = handle.stem then
        insert handle (session.entered table stem)
      else session.entered table stem := by
  ext other
  rw [mem_entered_put here (· = handle) rfl (fun _ => Registry.mem_handles_record vacant)]
  split
  · rename_i ours
    obtain ⟨rfl, rfl⟩ := ours
    rw [Set.mem_insert_iff]
    constructor
    · rintro (⟨-, -, rfl⟩ | old)
      · exact .inl rfl
      · exact .inr old
    · rintro (rfl | old)
      · exact .inl ⟨rfl, rfl, rfl⟩
      · exact .inr old
  · rename_i others
    constructor
    · rintro (⟨rfl, rfl, rfl⟩ | old)
      · exact absurd ⟨rfl, rfl⟩ others
      · exact old
    · exact .inr

private theorem image_some_Iio_succ (n : Nat) :
    some '' Set.Iio (n + 1) = insert (some n) (some '' Set.Iio n) := by
  rw [← Set.image_insert_eq]
  congr 1
  ext index
  simp only [Set.mem_Iio, Set.mem_insert_iff]
  omega

/-- Binding a name uses the next index under its stem, and this index alone. -/
theorem Addressed.enroll (addressed : session.Addressed)
    (here : session.registries[number]? = some registry) {handle : Handle} {key : Key}
    {ref : Ref} {value : Value} (unbound : session.ledger.binding? handle = none)
    (present : value.ref? = some ref) (vacant : registry.find? handle.stem key = none) :
    (session.put number ((session.desk registry).enroll handle key ref value)).Addressed := by
  have extended : session.ledger.Extends
      ((session.desk registry).enroll handle key ref value).ledger :=
    (session.desk registry).extends_enroll key unbound
  have fresh := addressed.not_mem_entered unbound
  refine ⟨fun table stem other held => ?_, fun table stem => ?_⟩
  · rw [entered_enroll here ref value vacant] at held
    split at held
    · rename_i ours
      obtain ⟨rfl, rfl⟩ := ours
      rcases Set.mem_insert_iff.mp held with rfl | old
      · exact (session.desk registry).addresses_enroll key present
      · exact extended.addresses (addressed.addresses _ _ other old)
    · exact extended.addresses (addressed.addresses table stem other held)
  · have kept : Set.EqOn session.ledger.index?
        ((session.desk registry).enroll handle key ref value).ledger.index?
        (session.entered table stem) := fun other old =>
      (extended.index?_eq (addressed.addresses table stem other old)).symm
    have bijective := (addressed.bijective table stem).congr kept
    rw [entered_enroll here ref value vacant, put_ledger, Desk.size_enroll,
      desk_registry, desk_ledger]
    by_cases ours : table = registry.table ∧ stem = handle.stem
    · obtain ⟨rfl, rfl⟩ := ours
      have next : ((session.desk registry).enroll handle key ref value).ledger.index? handle =
          some ((session.ledger.table registry.table).size handle.stem) := by
        unfold Ledger.index?
        rw [Desk.binding?_enroll, if_pos rfl]
        rfl
      rw [if_pos ⟨rfl, rfl⟩, if_pos ⟨rfl, rfl⟩, image_some_Iio_succ]
      rw [← next]
      refine bijective.insert ?_
      rw [next]
      rintro ⟨index, below, same⟩
      rw [Set.mem_Iio, Option.some.inj same] at below
      exact absurd below (lt_irrefl _)
    · rw [if_neg ours, if_neg ours]
      exact bijective

theorem Addressed.change (addressed : session.Addressed) (change : Change session later) :
    later.Addressed := by
  have extended := change.extends
  cases change with
  | tools allocators tables => exact ⟨addressed.addresses, addressed.bijective⟩
  | opened scope table style =>
      refine addressed.of_same extended (fun number stem => ?_) (fun _ _ => rfl)
      ext handle
      unfold entered
      simp only [Set.mem_ofPred_eq, List.mem_append, List.mem_singleton]
      constructor
      · rintro ⟨hasStem, registry, among | rfl, ofTable, held⟩
        · exact ⟨hasStem, registry, among, ofTable, held⟩
        · exact absurd held List.not_mem_nil
      · rintro ⟨hasStem, registry, among, ofTable, held⟩
        exact ⟨hasStem, registry, .inl among, ofTable, held⟩
  | @issued place registry issued here admitted =>
      refine addressed.of_same extended (fun table stem => ?_) (fun _ _ => rfl)
      ext handle
      have kept : ∀ handle, handle ∈ ((session.desk registry).issue issued).registry.handles ↔
          False ∨ handle ∈ registry.handles := fun _ => (false_or _).symm.to_iff
      rw [mem_entered_put here (fun _ => False) rfl kept]
      simp only [and_false, false_or]
  | enrolled here given unbound present vacant => exact addressed.enroll here unbound present vacant

theorem addressed_run (operations : List Operation) : (run {} operations).2.Addressed := by
  refine run_induction ⟨?_, ?_⟩ (fun _ addressed change => addressed.change change) operations
  · rintro table stem handle ⟨-, registry, among, -⟩
    exact absurd among List.not_mem_nil
  · intro table stem
    have none : ({} : Session).entered table stem = ∅ := by
      ext handle
      constructor
      · rintro ⟨-, registry, among, -⟩
        exact absurd among List.not_mem_nil
      · exact False.elim
    have empty : (({} : Session).ledger.table table).size stem = 0 := rfl
    have below : Set.Iio 0 = (∅ : Set Nat) :=
      Set.eq_empty_of_forall_notMem fun index h => Nat.not_lt_zero index h
    rw [none, empty, below, Set.image_empty]
    exact Set.bijOn_empty _

/-- **The slots of bound names.** After any run over any registries and tables,
every name that a registry has bound leads to the reference of its value. Under
each stem of a table, the names that all registries writing to it have bound use
each index below the size exactly once. Whatever is done later, and whether it
fails or not, no entry of a table, no value of a bound name and no slot changes. -/
theorem slots_of_bound_names (before after : List Operation) :
    let session := (run {} before).2
    let later := (session.run after).2
    (∀ registry ∈ session.registries, ∀ handle ∈ registry.selection.toList,
      ∃ binding ref, session.ledger.binding? handle = some binding ∧
        binding.slot.stem = handle.stem ∧ binding.value.ref? = some ref ∧
        (session.ledger.table registry.table).get? binding.slot.stem binding.slot.index =
          some ref) ∧
    (∀ table stem, Set.BijOn session.ledger.index? (session.entered table stem)
      (some '' Set.Iio ((session.ledger.table table).size stem))) ∧
    (∀ table stem index ref, (session.ledger.table table).get? stem index = some ref →
      (later.ledger.table table).get? stem index = some ref) ∧
    (∀ handle binding, session.ledger.binding? handle = some binding →
      later.ledger.binding? handle = some binding) := by
  intro session later
  have addressed : session.Addressed := addressed_run before
  have extended : session.ledger.Extends later.ledger :=
    extends_of_changes (run_changes (sound_run before) after)
  refine ⟨?_, addressed.bijective, extended.entries, extended.bindings⟩
  intro registry among handle held
  exact addressed.addresses registry.table handle.stem handle ⟨rfl, registry, among, rfl, held⟩

end Session

end NameScope
