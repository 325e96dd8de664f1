import Mathlib.Data.List.Basic
import NameScope.Proofs.Addressing
import NameScope.Proofs.Outcome

/-!
# The layout of a table

Several registries may write to one table. Under each stem, the indices of the names of one
registry go up in the order in which the names were bound, and the registries that write to a
table leave no index out and use none twice (`Session.Laid`). Whatever is done in a session,
it stays so (`Session.laid_of_changes`).
-/

namespace NameScope

/-- The slot of a name that is bound. -/
def Ledger.slot? (ledger : Ledger) (handle : Handle) : Option Slot :=
  (ledger.binding? handle).map Binding.slot

/-- One more item from one of the sources goes to the end of all items, but for their order. -/
theorem perm_flatMap_concat {α β : Type} (items : α → List β) {items' : α → List β} {source : α}
    {item : β} (here : items' source = items source ++ [item])
    (elsewhere : ∀ other, other ≠ source → items' other = items other) {sources : List α}
    (nodup : sources.Nodup) (among : source ∈ sources) :
    (sources.flatMap items').Perm (sources.flatMap items ++ [item]) := by
  induction sources with
  | nil => exact absurd among List.not_mem_nil
  | cons first rest ih =>
      obtain ⟨absent, nodup⟩ := List.nodup_cons.mp nodup
      rw [List.flatMap_cons, List.flatMap_cons]
      rcases List.mem_cons.mp among with rfl | later
      · have others : rest.flatMap items' = rest.flatMap items :=
          List.flatMap_congr fun other held => elsewhere other fun same => absent (same ▸ held)
        rw [here, others, List.append_assoc, List.append_assoc]
        exact List.perm_append_comm.append_left _
      · rw [elsewhere first fun same => absent (same ▸ later), List.append_assoc]
        exact (ih nodup later).append_left _

namespace Session

/-- The names that a registry has bound under a stem. -/
def members (session : Session) (number : Nat) (stem : String) : List Handle :=
  match session.registries[number]? with
  | none => []
  | some registry => (registry.group stem).values

/-- The registries that write to a table. -/
def writers (session : Session) (table : Nat) : List Nat :=
  (List.range session.registries.length).filter fun number =>
    session.registries[number]?.any (·.table = table)

/-- The names of each registry have these indices under each stem. -/
structure Laid (session : Session) (places : Nat → String → List Nat) : Prop where
  slots : ∀ number stem, (session.members number stem).map session.ledger.slot? =
    (places number stem).map fun index => some ⟨stem, index⟩
  increasing : ∀ number stem, (places number stem).Pairwise (· < ·)
  cover : ∀ table stem, ((session.writers table).flatMap (places · stem)).Perm
    (List.range ((session.ledger.table table).size stem))

variable {session later : Session} {number : Nat} {registry : Registry}
  {places : Nat → String → List Nat}

theorem members_of_some (here : session.registries[number]? = some registry) (stem : String) :
    session.members number stem = (registry.group stem).values := by
  unfold members
  rw [here]

theorem members_of_none (absent : session.registries[number]? = none) (stem : String) :
    session.members number stem = [] := by
  unfold members
  rw [absent]

theorem members_put (here : session.registries[number]? = some registry) (desk : Desk)
    (other : Nat) (stem : String) :
    (session.put number desk).members other stem =
      if other = number then (desk.registry.group stem).values
      else session.members other stem := by
  unfold members
  rw [getElem?_put here]
  by_cases ours : other = number
  · rw [if_pos ours, if_pos ours]
  · rw [if_neg ours, if_neg ours]

theorem mem_writers_iff {table : Nat} :
    number ∈ session.writers table ↔
      ∃ registry, session.registries[number]? = some registry ∧ registry.table = table := by
  unfold writers
  rw [List.mem_filter, List.mem_range, Option.any_eq_true]
  constructor
  · rintro ⟨-, registry, here, ofTable⟩
    exact ⟨registry, here, of_decide_eq_true ofTable⟩
  · rintro ⟨registry, here, ofTable⟩
    exact ⟨(List.getElem?_eq_some_iff.mp here).1, registry, here, decide_eq_true ofTable⟩

theorem nodup_writers (table : Nat) : (session.writers table).Nodup := List.nodup_range.filter _

theorem writers_put (here : session.registries[number]? = some registry) {desk : Desk}
    (sameTable : desk.registry.table = registry.table) (table : Nat) :
    (session.put number desk).writers table = session.writers table := by
  have count : (session.put number desk).registries.length = session.registries.length :=
    List.length_set
  unfold writers
  rw [count]
  refine List.filter_congr fun other _ => ?_
  rw [getElem?_put here]
  split
  · rename_i ours
    rw [ours, here]
    simp [sameTable]
  · rfl

/-! ## What a change keeps -/

/-- A change that binds nothing. -/
theorem Laid.of_same (laid : session.Laid places)
    (members : ∀ number stem, later.members number stem = session.members number stem)
    (slots : ∀ handle, later.ledger.slot? handle = session.ledger.slot? handle)
    (writers : ∀ table stem, (later.writers table).flatMap (places · stem) =
      (session.writers table).flatMap (places · stem))
    (tables : ∀ table, later.ledger.table table = session.ledger.table table) :
    later.Laid places := by
  refine ⟨fun number stem => ?_, laid.increasing, fun table stem => ?_⟩
  · rw [members, funext slots]
    exact laid.slots number stem
  · rw [writers, tables]
    exact laid.cover table stem

/-- A registry that is new has not written anything. -/
theorem Laid.opened (laid : session.Laid places) (scope : Scope) (table : Nat) (style : Style) :
    Laid { session with registries :=
      session.registries ++ [{ allocator := { scope }, table, style }] } places := by
  have last : ∀ stem, places session.registries.length stem = [] := by
    intro stem
    have slots := laid.slots session.registries.length stem
    rw [members_of_none (List.getElem?_eq_none (Nat.le_refl _))] at slots
    exact List.map_eq_nil_iff.mp slots.symm
  refine laid.of_same (fun number stem => ?_) (fun _ => rfl) (fun other stem => ?_) fun _ => rfl
  · unfold members
    simp only
    rcases Nat.lt_or_ge number session.registries.length with old | new
    · rw [List.getElem?_append_left old]
    · rw [List.getElem?_append_right new, List.getElem?_eq_none new]
      cases number - session.registries.length with
      | zero => rfl
      | succ beyond => rfl
  · unfold writers
    simp only
    rw [List.length_append, List.length_singleton, List.range_succ, List.filter_append,
      List.flatMap_append]
    have old : (List.range session.registries.length).filter (fun number =>
        (session.registries ++ [{ allocator := { scope }, table, style }])[number]?.any
          (·.table = other)) = session.writers other := by
      refine List.filter_congr fun number among => ?_
      rw [List.getElem?_append_left (List.mem_range.mp among)]
    rw [old]
    simp [last, writers]

/-- The indices with one more for a registry under a stem. -/
def extend (places : Nat → String → List Nat) (number : Nat) (stem : String) (index : Nat) :
    Nat → String → List Nat := fun other asked =>
  if other = number ∧ asked = stem then places other asked ++ [index] else places other asked

theorem extend_self (number : Nat) (stem : String) (index : Nat) :
    extend places number stem index number stem = places number stem ++ [index] :=
  if_pos ⟨rfl, rfl⟩

theorem extend_of_ne {number other : Nat} {stem asked : String} (index : Nat)
    (apart : ¬(other = number ∧ asked = stem)) :
    extend places number stem index other asked = places other asked :=
  if_neg apart

/-- A registry has not yet used the next index of its table. -/
theorem Laid.index_lt (laid : session.Laid places)
    (here : session.registries[number]? = some registry) {stem : String} {index : Nat}
    (used : index ∈ places number stem) :
    index < (session.ledger.table registry.table).size stem := by
  have mine : number ∈ session.writers registry.table := mem_writers_iff.mpr ⟨registry, here, rfl⟩
  have among : index ∈ (session.writers registry.table).flatMap (places · stem) :=
    List.mem_flatMap.mpr ⟨number, mine, used⟩
  exact List.mem_range.mp ((laid.cover registry.table stem).subset among)

/-- What is bound keeps its slot when another name is bound. -/
theorem Laid.slots_kept (laid : session.Laid places) {handle : Handle}
    (unbound : session.ledger.binding? handle = none) (registry : Registry) (key : Key) (ref : Ref)
    (value : Value) (other : Nat) (stem : String) :
    (session.members other stem).map
        ((session.desk registry).enroll handle key ref value).ledger.slot? =
      (places other stem).map fun index => some ⟨stem, index⟩ := by
  rw [← laid.slots other stem]
  refine List.map_congr_left fun member among => ?_
  have bound : session.ledger.slot? member ∈ (places other stem).map fun index =>
      (some ⟨stem, index⟩ : Option Slot) := by
    rw [← laid.slots other stem]
    exact List.mem_map_of_mem among
  unfold Ledger.slot?
  rw [Desk.binding?_enroll, if_neg]
  · rfl
  · rintro rfl
    unfold Ledger.slot? at bound
    rw [unbound] at bound
    simp at bound

section Enroll

variable (laid : session.Laid places) (here : session.registries[number]? = some registry)
  {handle : Handle} {key : Key} {ref : Ref} {value : Value}

include laid here

theorem Laid.slots_enroll (unbound : session.ledger.binding? handle = none)
    (vacant : registry.find? handle.stem key = none) (other : Nat) (stem : String) :
    ((session.put number ((session.desk registry).enroll handle key ref value)).members other
        stem).map ((session.desk registry).enroll handle key ref value).ledger.slot? =
      (extend places number handle.stem
        ((session.ledger.table registry.table).size handle.stem) other stem).map
          fun index => some ⟨stem, index⟩ := by
  have old := laid.slots_kept unbound registry key ref value other stem
  rw [members_put here]
  by_cases ours : other = number
  · subst ours
    have group : ((session.desk registry).enroll handle key ref value).registry.group stem =
        if stem = handle.stem then (registry.group handle.stem).insert key handle
        else registry.group stem := Registry.group_record _ _ _ _
    rw [members_of_some here] at old
    rw [if_pos rfl, group]
    by_cases same : stem = handle.stem
    · subst same
      have next : ((session.desk registry).enroll handle key ref value).ledger.slot? handle =
          some ⟨handle.stem, (session.ledger.table registry.table).size handle.stem⟩ := by
        unfold Ledger.slot?
        rw [Desk.binding?_enroll_self]
        rfl
      rw [if_pos rfl, extend_self, OrderedMap.values_insert_of_none handle vacant,
        List.map_append, List.map_append, old, List.map_singleton, List.map_singleton, next]
    · rw [if_neg same, extend_of_ne _ fun both => same both.2]
      exact old
  · rw [if_neg ours, extend_of_ne _ fun both => ours both.1]
    exact old

theorem Laid.cover_enroll (table : Nat) (stem : String) :
    ((session.writers table).flatMap (extend places number handle.stem
      ((session.ledger.table registry.table).size handle.stem) · stem)).Perm
        (List.range (if table = registry.table ∧ stem = handle.stem
          then (session.ledger.table table).size stem + 1
          else (session.ledger.table table).size stem)) := by
  by_cases ours : table = registry.table ∧ stem = handle.stem
  · obtain ⟨rfl, rfl⟩ := ours
    have mine : number ∈ session.writers registry.table := mem_writers_iff.mpr ⟨registry, here, rfl⟩
    rw [if_pos ⟨rfl, rfl⟩, List.range_succ]
    refine (perm_flatMap_concat (places · handle.stem) (extend_self _ _ _)
      (fun other apart => extend_of_ne _ fun both => apart both.1) (nodup_writers _) mine).trans ?_
    exact (laid.cover registry.table handle.stem).append_right _
  · rw [if_neg ours]
    refine (List.Perm.of_eq (List.flatMap_congr (g := (places · stem)) fun other among =>
      extend_of_ne _ ?_)).trans (laid.cover table stem)
    -- who binds the name does not write to another table
    rintro ⟨rfl, same⟩
    obtain ⟨registry', there, ofTable⟩ := mem_writers_iff.mp among
    obtain rfl : registry = registry' := Option.some.inj (here.symm.trans there)
    exact ours ⟨ofTable.symm, same⟩

/-- Binding a name uses the next index, at the registry that binds it. -/
theorem Laid.enroll (unbound : session.ledger.binding? handle = none)
    (vacant : registry.find? handle.stem key = none) :
    Laid (session.put number ((session.desk registry).enroll handle key ref value))
      (extend places number handle.stem
        ((session.ledger.table registry.table).size handle.stem)) := by
  refine ⟨laid.slots_enroll here unbound vacant, fun other stem => ?_, fun table stem => ?_⟩
  · unfold extend
    split
    · rename_i ours
      obtain ⟨rfl, rfl⟩ := ours
      rw [List.pairwise_append]
      refine ⟨laid.increasing _ _, List.pairwise_singleton _ _, fun index used next isNext => ?_⟩
      rw [List.mem_singleton.mp isNext]
      exact laid.index_lt here used
    · exact laid.increasing other stem
  · rw [writers_put here rfl, put_ledger, Desk.size_enroll]
    exact laid.cover_enroll here table stem

end Enroll

/-- **What a change keeps.** -/
theorem Laid.change (laid : session.Laid places) (change : Change session later) :
    ∃ places', later.Laid places' := by
  cases change with
  | tools allocators tables => exact ⟨places, laid.slots, laid.increasing, laid.cover⟩
  | opened scope table style => exact ⟨places, laid.opened scope table style⟩
  | @issued place registry stem here admitted =>
      refine ⟨places, laid.of_same (fun number asked => ?_) (fun _ => rfl) (fun table asked => ?_)
        fun _ => rfl⟩
      · rw [members_put here]
        split
        · rename_i ours
          rw [ours, members_of_some here]
          rfl
        · rfl
      · rw [writers_put here rfl]
  | enrolled here given unbound present vacant => exact ⟨_, laid.enroll here unbound vacant⟩

/-- **The layout of tables.** Whatever is done in a session, the names of each registry have
indices that go up, and all who write to a table use each index once. -/
theorem laid_of_changes (changes : Changes {} later) : ∃ places, later.Laid places := by
  induction changes with
  | refl =>
      refine ⟨fun _ _ => [], fun _ _ => rfl, fun _ _ => List.Pairwise.nil, fun _ _ => ?_⟩
      exact List.Perm.refl _
  | tail _ change ih =>
      obtain ⟨places, laid⟩ := ih
      exact laid.change change

end Session

end NameScope
