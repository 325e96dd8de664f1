import Mathlib.Data.List.Nodup
import NameScope.Proofs.Deduplication
import NameScope.Proofs.FirstOccurrence
import NameScope.Proofs.Grouping
import NameScope.Proofs.Layout

/-!
# Every name is held once

A registration that succeeds either finds a name or binds one that was not bound.
`Session.enrolments` lists those of the second kind, and `Session.Recorded` says that
this list is all there is to know: its names are the bound ones, and what a registry
holds are its part of the list, by stem. Hence no name is held twice, within a registry or
by two of them, and selecting the names of a registry loses none
(`Session.names_of_registry`).
-/

namespace NameScope

/-- What a registry finds stands in one of its groups. -/
theorem Registry.find?_iff {registry : Registry} {stem : String} {key : Key} {handle : Handle} :
    registry.find? stem key = some handle ↔
      ∃ group, (stem, group) ∈ registry.bound.entries ∧ (key, handle) ∈ group.entries := by
  unfold find? group
  simp only [OrderedMap.mem_entries_iff]
  cases here : registry.bound.get? stem with
  | none => simp
  | some group => simp

namespace Session

/-- The registration that an operation makes, if it binds a name. -/
def enrolment? (session : Session) (operation : Operation) : Option Entry :=
  (session.entry? operation).filter fun entry => (session.ledger.binding? entry.name).isNone

/-- The registrations that bind a name in the course of operations, oldest first. -/
def enrolments (session : Session) : List Operation → List Entry
  | [] => []
  | operation :: rest =>
    (session.enrolment? operation).toList ++ (session.perform operation).2.enrolments rest

/-- The entries of one registry. -/
def entriesOf (log : List Entry) (number : Nat) : List Entry := log.filter (·.registry = number)

/-- What a registry keeps of an entry. -/
def Entry.item (entry : Entry) : Key × Handle := (entry.key, entry.name)

/-- The entries are the registrations that have bound the names of a session. -/
structure Recorded (session : Session) (log : List Entry) : Prop where
  names : session.ledger.bindings.keys = log.map Entry.name
  faithful : ∀ entry ∈ log, entry.name.stem = entry.stem ∧
    ∃ binding, session.ledger.binding? entry.name = some binding ∧
      binding.value.dedupKey? = some entry.key
  opened : ∀ entry ∈ log, entry.registry < session.registries.length
  groups : ∀ number registry, session.registries[number]? = some registry →
    (registry.bound.entries.map fun group => (group.1, group.2.entries)) =
      (byKey Entry.stem (entriesOf log number)).map fun group => (group.1, group.2.map Entry.item)

variable {session : Session} {log : List Entry} {number : Nat} {registry : Registry}

/-! ## Entries of a registry -/

theorem entriesOf_append_of_foreign {more : List Entry}
    (foreign : ∀ entry ∈ more, entry.registry ≠ number) :
    entriesOf (log ++ more) number = entriesOf log number := by
  have none : more.filter (·.registry = number) = [] :=
    List.filter_eq_nil_iff.mpr fun entry among ours =>
      foreign entry among (of_decide_eq_true ours)
  unfold entriesOf
  rw [List.filter_append, none, List.append_nil]

theorem entriesOf_concat (log : List Entry) (entry : Entry) :
    entriesOf (log ++ [entry]) entry.registry = entriesOf log entry.registry ++ [entry] := by
  simp [entriesOf]

/-! ## What the entries tell -/

/-- A registry finds what was entered for it. -/
theorem Recorded.find?_iff (recorded : session.Recorded log)
    (here : session.registries[number]? = some registry) {stem : String} {key : Key}
    {handle : Handle} :
    registry.find? stem key = some handle ↔ ⟨number, stem, key, handle⟩ ∈ log := by
  have groups := recorded.groups number registry here
  rw [Registry.find?_iff]
  constructor
  · rintro ⟨group, inBound, inGroup⟩
    have listed : (stem, group.entries) ∈
        registry.bound.entries.map fun group => (group.1, group.2.entries) :=
      List.mem_map.mpr ⟨(stem, group), inBound, rfl⟩
    rw [groups] at listed
    obtain ⟨⟨stem', items⟩, collected, same⟩ := List.mem_map.mp listed
    obtain ⟨rfl, members⟩ : stem' = stem ∧ items.map Entry.item = group.entries := Prod.mk.inj same
    obtain ⟨-, rfl⟩ := mem_byKey.mp collected
    rw [← members] at inGroup
    obtain ⟨entry, among, item⟩ := List.mem_map.mp inGroup
    obtain ⟨rfl, rfl⟩ : entry.key = key ∧ entry.name = handle := Prod.mk.inj item
    obtain ⟨ours, ofStem⟩ := List.mem_filter.mp among
    obtain ⟨among, ofRegistry⟩ := List.mem_filter.mp ours
    rw [← of_decide_eq_true ofStem, ← of_decide_eq_true ofRegistry]
    exact among
  · intro among
    have ours : ⟨number, stem, key, handle⟩ ∈ entriesOf log number :=
      List.mem_filter.mpr ⟨among, decide_eq_true rfl⟩
    have listed : (stem, ((entriesOf log number).filter (·.stem = stem)).map Entry.item) ∈
        (byKey Entry.stem (entriesOf log number)).map
          fun group => (group.1, group.2.map Entry.item) :=
      List.mem_map.mpr
        ⟨(stem, _), mem_byKey.mpr ⟨List.mem_map.mpr ⟨_, ours, rfl⟩, rfl⟩, rfl⟩
    rw [← groups] at listed
    obtain ⟨⟨stem', group⟩, inBound, same⟩ := List.mem_map.mp listed
    obtain ⟨rfl, members⟩ : stem' = stem ∧ group.entries = _ := Prod.mk.inj same
    refine ⟨group, inBound, ?_⟩
    rw [members]
    exact List.mem_map.mpr ⟨_, List.mem_filter.mpr ⟨ours, decide_eq_true rfl⟩, rfl⟩

theorem Recorded.nodup (recorded : session.Recorded log) : (log.map Entry.name).Nodup :=
  recorded.names ▸ session.ledger.bindings.nodup_keys

/-- A name that a registry finds is bound. -/
theorem Recorded.bound_of_find? (recorded : session.Recorded log)
    (here : session.registries[number]? = some registry) {stem : String} {key : Key}
    {handle : Handle} (found : registry.find? stem key = some handle) :
    ∃ binding, session.ledger.binding? handle = some binding := by
  obtain ⟨-, binding, bound, -⟩ := recorded.faithful _ ((recorded.find?_iff here).mp found)
  exact ⟨binding, bound⟩

/-- The groups of the names that are selected from a registry. -/
theorem Recorded.groups_selection (recorded : session.Recorded log)
    (here : session.registries[number]? = some registry)
    (grouped : registry.Grouped session.ledger) :
    registry.selection.groups.entries =
      (byKey Entry.stem (entriesOf log number)).map
        fun group => (group.1, group.2.map Entry.name) := by
  have groups := congrArg (List.map fun group => (group.1, group.2.map Prod.snd))
    (recorded.groups number registry here)
  rw [List.map_map, List.map_map] at groups
  rw [grouped.groups_selection]
  refine groups.trans (List.map_congr_left fun group _ => ?_)
  rw [Function.comp_apply, List.map_map]
  rfl

/-- All names that were entered for a registry are selected from it, each once. -/
theorem Recorded.perm_selection (recorded : session.Recorded log)
    (here : session.registries[number]? = some registry)
    (grouped : registry.Grouped session.ledger) :
    registry.selection.toList.Perm ((entriesOf log number).map Entry.name) := by
  have groups := congrArg (List.flatMap Prod.snd) (recorded.groups_selection here grouped)
  rw [List.flatMap_map, ← List.map_flatMap] at groups
  unfold Selection.toList OrderedMap.values
  rw [← List.flatMap_def, groups]
  exact (perm_flatMap_byKey _ _).map _

/-! ## What an operation keeps -/

/-- Nothing that is bound or held changes. -/
theorem Recorded.of_same {later : Session} (recorded : session.Recorded log)
    (bindings : later.ledger.bindings = session.ledger.bindings)
    (registries : ∀ number registry, later.registries[number]? = some registry →
      (∃ earlier, session.registries[number]? = some earlier ∧ registry.bound = earlier.bound) ∨
        session.registries.length ≤ number ∧ registry.bound = ∅)
    (opened : session.registries.length ≤ later.registries.length) : later.Recorded log := by
  refine ⟨?_, ?_, fun entry among => Nat.lt_of_lt_of_le (recorded.opened entry among) opened, ?_⟩
  · rw [bindings]
    exact recorded.names
  · unfold Ledger.binding?
    rw [bindings]
    exact recorded.faithful
  · intro number registry here
    rcases registries number registry here with ⟨earlier, there, same⟩ | ⟨isNew, empty⟩
    · rw [same]
      exact recorded.groups number earlier there
    · have none : entriesOf log number = [] :=
        List.filter_eq_nil_iff.mpr fun entry among ofRegistry => by
          have old := recorded.opened entry among
          have same : entry.registry = number := of_decide_eq_true ofRegistry
          omega
      rw [empty, none]
      rfl

theorem Recorded.issued (recorded : session.Recorded log)
    (here : session.registries[number]? = some registry) (stem : String) :
    (session.put number ((session.desk registry).issue stem)).Recorded log := by
  refine recorded.of_same rfl (fun other registry' there => .inl ?_) ?_
  · rw [getElem?_put here] at there
    split at there
    · rename_i ours
      exact ⟨registry, ours ▸ here, by rw [← Option.some.inj there]; rfl⟩
    · exact ⟨registry', there, rfl⟩
  · exact Nat.le_of_eq List.length_set.symm

/-- A name that is bound for a key that its group lacks goes to the end of the group. -/
theorem entries_enroll {desk : Desk} {handle : Handle} {key : Key}
    (vacant : desk.registry.find? handle.stem key = none) (ref : Ref) (value : Value) :
    ((desk.enroll handle key ref value).registry.bound.entries.map
        fun group => (group.1, group.2.entries)) =
      Entries.update handle.stem (putLast (key, handle))
        (desk.registry.bound.entries.map fun group => (group.1, group.2.entries)) := by
  refine Entries.map_update OrderedMap.entries ?_
  unfold Registry.find? Registry.group OrderedMap.get? at vacant
  cases group : Entries.get? handle.stem desk.registry.bound.entries with
  | none => rfl
  | some members =>
      rw [group] at vacant
      exact OrderedMap.entries_update_of_none _ vacant

/-- A name that is bound makes one more entry. -/
theorem Recorded.enrolled (recorded : session.Recorded log)
    (here : session.registries[number]? = some registry) {handle : Handle} {value : Value}
    {ref : Ref} (unbound : session.ledger.binding? handle = none) (present : value.ref? = some ref)
    (vacant : registry.find? handle.stem (value.key?.getD (.ref ref)) = none) :
    (session.put number ((session.desk registry).enroll handle (value.key?.getD (.ref ref)) ref
      value)).Recorded
        (log ++ [⟨number, handle.stem, value.key?.getD (.ref ref), handle⟩]) := by
  generalize isKey : value.key?.getD (.ref ref) = key at vacant ⊢
  have inside : number < session.registries.length := (List.getElem?_eq_some_iff.mp here).1
  refine ⟨?_, ?_, ?_, ?_⟩
  · rw [put_ledger, List.map_append, List.map_singleton, ← recorded.names]
    exact Ledger.keys_bind _ unbound
  · intro entry among
    rw [put_ledger, Desk.binding?_enroll]
    rcases List.mem_append.mp among with old | new
    · obtain ⟨ofStem, binding, bound, hasKey⟩ := recorded.faithful entry old
      refine ⟨ofStem, binding, ?_, hasKey⟩
      rw [if_neg, desk_ledger]
      · exact bound
      · intro same
        rw [same, unbound] at bound
        exact absurd bound (by simp)
    · rw [List.mem_singleton.mp new, if_pos rfl]
      exact ⟨rfl, _, rfl, isKey ▸ Value.dedupKey?_of_ref present⟩
  · intro entry among
    show entry.registry < (session.registries.set number _).length
    rw [List.length_set]
    rcases List.mem_append.mp among with old | new
    · exact recorded.opened entry old
    · rw [List.mem_singleton.mp new]
      exact inside
  · intro other registry' there
    rw [getElem?_put here] at there
    split at there
    · rename_i ours
      subst ours
      -- both sides are the same update of what they were before
      rw [← Option.some.inj there, entriesOf_concat log ⟨other, handle.stem, key, handle⟩,
        byKey_concat, Entries.map_update _ (map_putLast Entry.item _ _),
        ← recorded.groups other registry here]
      exact entries_enroll vacant ref value
    · rename_i foreign
      rw [entriesOf_append_of_foreign fun entry among => by
        rw [List.mem_singleton.mp among]
        exact Ne.symm foreign]
      exact recorded.groups other registry' there

/-- What is entered for a name that an operation answers. -/
theorem enrolment?_of_entry {operation : Operation} {entry : Entry}
    (entered : session.entry? operation = some entry) :
    session.enrolment? operation =
      if session.ledger.binding? entry.name = none then some entry else none := by
  unfold enrolment?
  rw [entered, Option.filter_some]
  cases session.ledger.binding? entry.name with
  | none => rfl
  | some binding => rfl

theorem enrolment?_of_none {operation : Operation} (none : session.entry? operation = none) :
    session.enrolment? operation = .none := by
  unfold enrolment?
  rw [none]
  rfl

/-- **One operation.** -/
theorem Recorded.perform (recorded : session.Recorded log) (sound : session.ledger.Sound)
    (operation : Operation) :
    (session.perform operation).2.Recorded (log ++ (session.enrolment? operation).toList) := by
  have cases := perform_cases sound operation
  have entered := @entry?_of_submission session operation
  have nameless := @entry?_of_nameless session operation
  have unsubmitted := @entry?_of_unsubmitted session operation
  generalize (session.perform operation).1 = outcome at cases entered nameless
  generalize (session.perform operation).2 = later at cases ⊢
  cases cases with
  | aside allocators tables none =>
      rw [enrolment?_of_none (nameless none), Option.toList_none, List.append_nil]
      exact recorded.of_same rfl (fun _ registry here => .inl ⟨registry, here, rfl⟩) (Nat.le_refl _)
  | opened scope table style =>
      rw [enrolment?_of_none (nameless rfl), Option.toList_none, List.append_nil]
      refine recorded.of_same rfl (fun number registry here => ?_) (by simp)
      rw [getElem?_opened] at here
      split at here
      · rename_i isNew
        exact .inr ⟨isNew ▸ Nat.le_refl _, by rw [← Option.some.inj here]⟩
      · exact .inl ⟨registry, here, rfl⟩
  | issued isNew here admitted =>
      rw [enrolment?_of_none (unsubmitted (isNew ▸ rfl)), Option.toList_none, List.append_nil]
      exact recorded.issued here _
  | found submitted here present known =>
      obtain ⟨binding, bound⟩ := recorded.bound_of_find? here known
      rw [enrolment?_of_entry (entered submitted present rfl), if_neg (by rw [bound]; simp),
        Option.toList_none, List.append_nil]
      exact recorded
  | @fresh number stem value registry ref submitted here present vacant admitted =>
      have unbound : session.ledger.binding? ((session.desk registry).nextHandle stem) = none :=
        sound.binding?_next rfl
      rw [enrolment?_of_entry (entered submitted present rfl), if_pos unbound]
      have issued := recorded.issued here stem
      have here' := getElem?_put_self here ((session.desk registry).issue stem)
      have enrolled := issued.enrolled here' unbound present vacant
      rw [put_put] at enrolled
      exact enrolled
  | named submitted here present vacant unbound =>
      rw [enrolment?_of_entry (entered submitted present rfl), if_pos unbound]
      exact recorded.enrolled here unbound present vacant

/-- **A run** goes on with the list. -/
theorem Recorded.run (recorded : session.Recorded log) (sound : session.ledger.Sound)
    (operations : List Operation) :
    (session.run operations).2.Recorded (log ++ session.enrolments operations) := by
  induction operations generalizing session log with
  | nil =>
      rw [enrolments, List.append_nil]
      exact recorded
  | cons operation rest ih =>
      have first := recorded.perform sound operation
      rw [enrolments, ← List.append_assoc]
      exact ih first (sound_of_changes (perform_changes sound operation) sound)

theorem recorded_run (operations : List Operation) :
    (Session.run {} operations).2.Recorded (enrolments {} operations) := by
  have empty : Recorded {} [] :=
    ⟨rfl, fun _ among => absurd among List.not_mem_nil,
      fun _ among => absurd among List.not_mem_nil, fun _ _ here => by cases here⟩
  exact empty.run sound_empty operations

/-- The names of a group have slots of their stem, with indices that go up. -/
theorem Laid.slots_of_group {places : Nat → String → List Nat} (laid : session.Laid places)
    (here : session.registries[number]? = some registry)
    (grouped : registry.Grouped session.ledger) :
    ∀ group ∈ registry.selection.groups.entries, ∃ indices : List Nat,
      indices.Pairwise (· < ·) ∧
      group.2.map session.ledger.slot? = indices.map fun index => some ⟨group.1, index⟩ := by
  intro group among
  rw [grouped.groups_selection] at among
  obtain ⟨⟨stem, names⟩, inBound, rfl⟩ := List.mem_map.mp among
  have held : registry.group stem = names := by
    unfold Registry.group
    rw [OrderedMap.mem_entries_iff.mp inBound]
    rfl
  have slots := laid.slots number stem
  rw [members_of_some here, held] at slots
  exact ⟨places number stem, laid.increasing number stem, slots⟩

/-- **Every name is held once.** In every session, whatever registries it has and whatever
names they have bound for each other, a name that a registry finds under a stem for a key has
this stem and is bound to a value with this key, and no registry finds it anywhere else. So
the names selected from a registry are those that its registrations have bound, none twice:
the stems come in the order in which something was first bound under them, and the names of
a stem in the order in which they were bound, with indices that go up. Each is what the
registry finds under its stem for the key of its value. -/
theorem names_of_registry (operations : List Operation) (number : Nat) (registry : Registry)
    (here : (run {} operations).2.registries[number]? = some registry) :
    let session := (run {} operations).2
    let mine := entriesOf (enrolments {} operations) number
    (∀ stem key handle, registry.find? stem key = some handle →
      handle.stem = stem ∧
      (∃ binding, session.ledger.binding? handle = some binding ∧
        binding.value.dedupKey? = some key) ∧
      ∀ number' stem' key', session.find? number' stem' key' = some handle →
        number' = number ∧ stem' = stem ∧ key' = key) ∧
    registry.selection.toList.Perm (mine.map Entry.name) ∧
    registry.selection.size = mine.length ∧
    registry.selection.groups.entries =
      (byKey Entry.stem mine).map (fun group => (group.1, group.2.map Entry.name)) ∧
    (∀ group ∈ registry.selection.groups.entries, ∃ indices : List Nat,
      indices.Pairwise (· < ·) ∧
      group.2.map session.ledger.slot? = indices.map fun index => some ⟨group.1, index⟩) ∧
    ∀ handle ∈ registry.selection.toList, ∃ binding key,
      session.ledger.binding? handle = some binding ∧ binding.value.dedupKey? = some key ∧
      session.perform (.find number handle.stem key) = (.found (some handle), session) := by
  intro session mine
  have recorded : session.Recorded (enrolments {} operations) := recorded_run operations
  have grouped : registry.Grouped session.ledger :=
    grouped_run operations registry (List.mem_of_getElem? here)
  obtain ⟨places, laid⟩ := laid_of_changes (run_changes sound_empty operations)
  have selected := recorded.perm_selection here grouped
  have faithful : ∀ stem key handle, registry.find? stem key = some handle →
      handle.stem = stem ∧ ∃ binding, session.ledger.binding? handle = some binding ∧
        binding.value.dedupKey? = some key := fun stem key handle found =>
    recorded.faithful _ ((recorded.find?_iff here).mp found)
  refine ⟨?_, selected, ?_, recorded.groups_selection here grouped,
    laid.slots_of_group here grouped, ?_⟩
  · intro stem key handle found
    refine ⟨(faithful stem key handle found).1, (faithful stem key handle found).2, ?_⟩
    intro number' stem' key' found'
    obtain ⟨registry', here', found'⟩ := Option.bind_eq_some_iff.mp found'
    -- two entries of one name are one entry
    have same := List.inj_on_of_nodup_map recorded.nodup
      ((recorded.find?_iff here').mp found') ((recorded.find?_iff here).mp found) rfl
    exact ⟨congrArg Entry.registry same, congrArg Entry.stem same, congrArg Entry.key same⟩
  · exact selected.length_eq.trans (List.length_map _)
  · intro handle held
    obtain ⟨stem, key, found⟩ :=
      Registry.mem_handles_iff.mp (Registry.mem_toList_selection.mp held)
    obtain ⟨rfl, binding, bound, hasKey⟩ := faithful stem key handle found
    refine ⟨binding, key, bound, hasKey, ?_⟩
    have here : session.registries[number]? = some registry := here
    simp only [Session.perform, here, found]

/-- Three registries with two tables. The second one binds a name of the first, finds one of
its values again, and fails for a value without a reference and for a name that is bound. -/
theorem names_of_registry_of_shared_names :
    let value (id : Nat) : Value := .inline (some ⟨id, .unit⟩)
    let operations : List Operation := [.openRegistry 0 {} {}, .openRegistry 0 {} {},
      .openRegistry 1 {} {}, .registerNew 0 "p" (value 0), .newName 0 "q",
      .registerName 1 1 (value 1), .registerNew 1 "p" (value 2), .registerNew 1 "p" (value 2),
      .registerNew 1 "p" (.inline none), .registerName 1 0 (value 3),
      .registerNew 1 "q" (value 4), .registerNew 1 "p" ((value 0).withKey (.text "k")),
      .registerNew 2 "q" (value 1)]
    let session := (run {} operations).2
    let foreign : Handle := ⟨1, ⟨"q0"⟩, "q"⟩
    ∃ registry, session.registries[1]? = some registry ∧
      registry.selection.size = 4 ∧
      (registry.selection.groups.entries.map fun group => (group.1, group.2.map Handle.id)) =
        [("q", [1, 3]), ("p", [2, 4])] ∧
      session.ledger.slot? foreign = some ⟨"q", 0⟩ ∧
      session.find? 1 "q" (.ref ⟨1, .unit⟩) = some foreign ∧
      ∀ number stem key, session.find? number stem key = some foreign →
        number = 1 ∧ stem = "q" ∧ key = .ref ⟨1, .unit⟩ := by
  intro value operations session foreign
  let registry : Registry := session.registries[1]?.getD default
  have opened : session.registries[1]? = some registry := by decide +kernel
  obtain ⟨once, -, size, groups, -, -⟩ := names_of_registry operations 1 registry opened
  have found : registry.find? "q" (.ref ⟨1, .unit⟩) = some foreign := by decide +kernel
  refine ⟨registry, opened, size.trans (by decide +kernel), ?_, by decide +kernel,
    (find?_of_some opened _ _).trans found, (once _ _ _ found).2.2⟩
  rw [groups]
  decide +kernel

end Session

end NameScope
