import NameScope.Proofs.Change
import NameScope.Proofs.Selection

/-!
# The groups of a registry

A registry lists the names that it has bound stem by stem, and the ledger lists all
bindings one after another. The two orders agree on the names of one stem: a group
is a part of the ledger's list (`Session.grouped_run`). Since the names of a
registry come group by group, selecting them all keeps their order
(`Registry.Grouped.toList_selection`).
-/

namespace NameScope

theorem Ledger.keys_bind {ledger : Ledger} {handle : Handle} (binding : Binding)
    (unbound : ledger.binding? handle = none) :
    (ledger.bind handle binding).bindings.keys = ledger.bindings.keys ++ [handle] := by
  show (ledger.bindings.update handle fun _ => binding).keys = _
  rw [OrderedMap.keys_update, if_neg]
  intro held
  obtain ⟨earlier, bound⟩ := OrderedMap.mem_keys_iff.mp held
  have absent : ledger.bindings.get? handle = none := unbound
  rw [absent] at bound
  exact absurd bound (by simp)

namespace Registry

/-- Every group has names, all of its stem, in the order in which they were bound. -/
structure Grouped (registry : Registry) (ledger : Ledger) : Prop where
  occupied : ∀ stem group, registry.bound.get? stem = some group → group.values ≠ []
  stems : ∀ stem group, registry.bound.get? stem = some group →
    ∀ handle ∈ group.values, handle.stem = stem
  ordered : ∀ stem group, registry.bound.get? stem = some group →
    group.values.Sublist ledger.bindings.keys

variable {registry : Registry} {ledger later : Ledger}

theorem grouped_of_empty (empty : registry.bound = ∅) : registry.Grouped ledger := by
  refine ⟨?_, ?_, ?_⟩
  all_goals
    intro stem group here
    rw [empty] at here
    exact absurd here (by simp)

theorem Grouped.extended (grouped : registry.Grouped ledger)
    (further : ledger.bindings.keys.Sublist later.bindings.keys) : registry.Grouped later :=
  ⟨grouped.occupied, grouped.stems,
    fun stem group here => (grouped.ordered stem group here).trans further⟩

/-- The group of a stem, present or not, lists names in the order of binding. -/
theorem Grouped.group (grouped : registry.Grouped ledger) (stem : String) :
    (registry.group stem).values.Sublist ledger.bindings.keys ∧
      ∀ handle ∈ (registry.group stem).values, handle.stem = stem := by
  unfold Registry.group
  cases here : registry.bound.get? stem with
  | none => exact ⟨List.nil_sublist _, fun handle held => absurd held List.not_mem_nil⟩
  | some group => exact ⟨grouped.ordered stem group here, grouped.stems stem group here⟩

/-- A name that is bound goes to the end of the group of its stem. -/
theorem Grouped.record (grouped : registry.Grouped ledger) {handle : Handle} {key : Key}
    (vacant : registry.find? handle.stem key = none)
    (bound : later.bindings.keys = ledger.bindings.keys ++ [handle]) :
    (registry.record handle.stem key handle).Grouped later := by
  have values : ((registry.group handle.stem).insert key handle).values =
      (registry.group handle.stem).values ++ [handle] :=
    OrderedMap.values_insert_of_none handle vacant
  have further : ledger.bindings.keys.Sublist later.bindings.keys := by
    rw [bound]
    exact List.sublist_append_left _ _
  obtain ⟨ordered, stems⟩ := grouped.group handle.stem
  -- only the group of the name's stem has changed
  have cases : ∀ stem group, (registry.record handle.stem key handle).bound.get? stem = some group →
      (stem = handle.stem ∧ group.values = (registry.group handle.stem).values ++ [handle]) ∨
        registry.bound.get? stem = some group := by
    intro stem group here
    unfold Registry.record at here
    rw [OrderedMap.get?_update] at here
    split at here
    · rename_i same
      exact .inl ⟨same, by rw [← Option.some.inj here]; exact values⟩
    · exact .inr here
  refine ⟨?_, ?_, ?_⟩
  · intro stem group here
    rcases cases stem group here with ⟨-, values⟩ | old
    · rw [values]
      simp
    · exact grouped.occupied stem group old
  · intro stem group here other held
    rcases cases stem group here with ⟨rfl, values⟩ | old
    · rw [values, List.mem_append, List.mem_singleton] at held
      rcases held with held | rfl
      · exact stems other held
      · rfl
    · exact grouped.stems stem group old other held
  · intro stem group here
    rcases cases stem group here with ⟨-, values⟩ | old
    · rw [values, bound]
      exact ordered.append_right [handle]
    · exact (grouped.ordered stem group old).trans further

theorem Grouped.bound (grouped : registry.Grouped ledger) {handle : Handle}
    (held : handle ∈ registry.handles) : ∃ binding, ledger.binding? handle = some binding := by
  obtain ⟨stem, key, found⟩ := mem_handles_iff.mp held
  have among : handle ∈ (registry.group stem).values := OrderedMap.mem_values_iff.mpr ⟨key, found⟩
  exact OrderedMap.mem_keys_iff.mp ((grouped.group stem).1.subset among)

/-- Selecting all names of a registry keeps its groups. -/
theorem Grouped.groups_selection (grouped : registry.Grouped ledger) :
    registry.selection.groups.entries =
      registry.bound.entries.map fun entry => (entry.1, entry.2.values) := by
  have sound : ∀ group ∈ registry.bound.entries.map (fun entry => (entry.1, entry.2.values)),
      Selection.GroupSound group := by
    intro group held
    obtain ⟨⟨stem, group⟩, listed, rfl⟩ := List.mem_map.mp held
    have here := OrderedMap.mem_entries_iff.mp listed
    exact ⟨grouped.occupied stem group here,
      ledger.bindings.nodup_keys.sublist (grouped.ordered stem group here),
      grouped.stems stem group here⟩
  have nodup : ((registry.bound.entries.map
      (fun entry => (entry.1, entry.2.values))).map Prod.fst).Nodup := by
    rw [List.map_map]
    exact registry.bound.nodup_keys
  rw [← Selection.groups_ofList_of_grouped sound nodup]
  unfold selection Registry.handles OrderedMap.values
  rw [List.flatMap_map, List.flatMap_map]

/-- Selecting all names of a registry keeps them in their order. -/
theorem Grouped.toList_selection (grouped : registry.Grouped ledger) :
    registry.selection.toList = registry.handles := by
  unfold Selection.toList Registry.handles
  rw [OrderedMap.values, grouped.groups_selection, ← List.flatMap_def, OrderedMap.values,
    List.flatMap_map, List.flatMap_map]

end Registry

namespace Session

/-- A change leaves all registries in groups. -/
theorem Change.grouped {session later : Session} (change : Change session later)
    (grouped : ∀ registry ∈ session.registries, registry.Grouped session.ledger) :
    ∀ registry ∈ later.registries, registry.Grouped later.ledger := by
  cases change with
  | tools allocators tables => exact grouped
  | opened scope table style =>
      intro registry among
      rcases List.mem_append.mp among with old | new
      · exact grouped registry old
      · rw [List.mem_singleton.mp new]
        exact Registry.grouped_of_empty rfl
  | issued stem here admitted =>
      intro registry among
      rcases List.mem_or_eq_of_mem_set among with old | rfl
      · exact (grouped registry old).extended (List.Sublist.refl _)
      · have before := grouped _ (List.mem_of_getElem? here)
        exact ⟨before.occupied, before.stems, before.ordered⟩
  | @enrolled number registry handle value ref here given unbound present vacant =>
      have keys : ((session.desk registry).enroll handle (value.key?.getD (.ref ref)) ref
          value).ledger.bindings.keys = session.ledger.bindings.keys ++ [handle] :=
        Ledger.keys_bind _ unbound
      intro other among
      rcases List.mem_or_eq_of_mem_set among with old | rfl
      · refine (grouped other old).extended ?_
        rw [put_ledger, keys]
        exact List.sublist_append_left _ _
      · exact (grouped registry (List.mem_of_getElem? here)).record vacant keys

/-- All registries list their names in groups. -/
theorem grouped_run (operations : List Operation) :
    ∀ registry ∈ (run {} operations).2.registries,
      registry.Grouped (run {} operations).2.ledger :=
  run_induction (fun _ among => absurd among List.not_mem_nil)
    (fun _ grouped change => change.grouped grouped) operations

end Session

end NameScope
