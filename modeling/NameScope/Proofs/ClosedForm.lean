import NameScope.Proofs.Solitary

/-!
# The closed form of registration

What a registry with a table of its own comes to at the end of a run. Each stem keeps the keys
that were offered under it, in the order in which they were first offered; the position of a key
there is the number of its name and the index of its slot
(`Session.closed_form_of_registration`).
-/

namespace NameScope

namespace Session

variable {session : Session} {number table : Nat} {scope : Scope} {log : List Entry}
  {offers : List Offer} {stem : String}

/-- The names that a registry has bound under a stem, in the order of binding. -/
def namesUnder (log : List Entry) (number : Nat) (stem : String) : List Handle :=
  (entriesUnder log number stem).map Entry.name

theorem Recorded.values_group (recorded : session.Recorded log) {registry : Registry}
    (here : session.registries[number]? = some registry) (stem : String) :
    (registry.group stem).values = namesUnder log number stem := by
  have groups := congrArg (Entries.get? stem) (recorded.groups number registry here)
  rw [Entries.get?_map, Entries.get?_map] at groups
  have entries : (registry.group stem).entries =
      ((Entries.get? stem registry.bound.entries).map OrderedMap.entries).getD [] := by
    unfold Registry.group OrderedMap.get?
    cases Entries.get? stem registry.bound.entries with
    | none => rfl
    | some group => rfl
  have items : ((Entries.get? stem (byKey Entry.stem (entriesOf log number))).map
      (List.map Entry.item)).getD [] = (entriesUnder log number stem).map Entry.item := by
    unfold entriesUnder
    rw [← get?_byKey]
    cases Entries.get? stem (byKey Entry.stem (entriesOf log number)) with
    | none => rfl
    | some group => rfl
  unfold OrderedMap.values
  rw [entries, groups, items, List.map_map]
  rfl

/-- The only writer of a table. -/
theorem Solitary.writers (solitary : session.Solitary number table scope log offers) :
    session.writers table = [number] := by
  obtain ⟨registry, here, ofTable, -⟩ := solitary.registry
  refine List.perm_singleton.mp ?_
  refine (List.perm_ext_iff_of_nodup (nodup_writers table) (List.nodup_singleton number)).mpr ?_
  intro other
  rw [mem_writers_iff, List.mem_singleton]
  constructor
  · rintro ⟨registry', there, sameTable⟩
    exact solitary.alone other registry' there sameTable
  · rintro rfl
    exact ⟨registry, here, ofTable⟩

/-- The names of a stem have the slots of the stem, one after another. -/
theorem Solitary.slots (solitary : session.Solitary number table scope log offers)
    {places : Nat → String → List Nat} (laid : session.Laid places) (stem : String) :
    (namesUnder log number stem).map session.ledger.slot? =
      (List.range (entriesUnder log number stem).length).map fun index => some ⟨stem, index⟩ := by
  obtain ⟨registry, here, -⟩ := solitary.registry
  have cover := laid.cover table stem
  rw [solitary.writers, List.flatMap_singleton] at cover
  have inOrder : places number stem =
      List.range ((session.ledger.table table).size stem) :=
    cover.eq_of_pairwise (fun a b _ _ less less' => absurd (Nat.lt_trans less less') (lt_irrefl a))
      (laid.increasing number stem) List.pairwise_lt_range
  have size : (session.ledger.table table).size stem = (entriesUnder log number stem).length := by
    have lengths := congrArg List.length (solitary.column stem)
    rwa [List.length_map, List.length_map] at lengths
  have slots := laid.slots number stem
  rw [members_of_some here, solitary.recorded.values_group here, inOrder, size] at slots
  exact slots

/-- The keys of the entries of a stem are those that were offered under it. -/
theorem Solitary.keys (solitary : session.Solitary number table scope log offers)
    (stem : String) :
    (entriesUnder log number stem).map Entry.key =
      ((offers.filter (·.stem = stem)).map Offer.key).eraseDups := by
  have offered : ((offers.map Offer.place).filter (·.1 = stem)).map Prod.snd =
      (offers.filter (·.stem = stem)).map Offer.key := by
    rw [List.filter_map, List.map_map]
    rfl
  have entered : ((entriesOf log number).map Entry.place |>.filter (·.1 = stem)).map Prod.snd =
      (entriesUnder log number stem).map Entry.key := by
    rw [List.filter_map, List.map_map]
    rfl
  -- among the places of one stem, keys are apart
  have apart : ∀ place ∈ (offers.map Offer.place).filter (·.1 = stem),
      ∀ place' ∈ (offers.map Offer.place).filter (·.1 = stem),
        place.2 = place'.2 → place = place' := by
    intro place among place' among' same
    have first : place.1 = stem := of_decide_eq_true (List.mem_filter.mp among).2
    have second : place'.1 = stem := of_decide_eq_true (List.mem_filter.mp among').2
    exact Prod.ext (first.trans second.symm) same
  calc (entriesUnder log number stem).map Entry.key
    _ = ((offers.map Offer.place).eraseDups.filter (·.1 = stem)).map Prod.snd := by
      rw [← entered, solitary.places]
    _ = ((offers.map Offer.place).filter (·.1 = stem)).eraseDups.map Prod.snd := by
      rw [eraseDups_filter]
    _ = (((offers.map Offer.place).filter (·.1 = stem)).map Prod.snd).eraseDups :=
      (eraseDups_map apart).symm
    _ = ((offers.filter (·.stem = stem)).map Offer.key).eraseDups := by rw [offered]

/-- The stems of the entries are those that were offered. -/
theorem Solitary.stems (solitary : session.Solitary number table scope log offers) :
    ((entriesOf log number).map Entry.stem).eraseDups = (offers.map Offer.stem).eraseDups := by
  have offered : (offers.map Offer.place).map Prod.fst = offers.map Offer.stem := by
    rw [List.map_map]
    rfl
  have entered : ((entriesOf log number).map Entry.place).map Prod.fst =
      (entriesOf log number).map Entry.stem := by
    rw [List.map_map]
    rfl
  rw [← offered, ← entered, solitary.places, eraseDups_map_eraseDups]

/-- A name has the number and the slot of its position. -/
theorem Solitary.name_at (solitary : session.Solitary number table scope log offers)
    {places : Nat → String → List Nat} (laid : session.Laid places) {index : Nat}
    {handle : Handle} (there : (namesUnder log number stem)[index]? = some handle) :
    handle.stem = stem ∧ handle.text = stem ++ toString index ∧
      session.ledger.slot? handle = some ⟨stem, index⟩ := by
  have inside : index < (entriesUnder log number stem).length := by
    have inside := (List.getElem?_eq_some_iff.mp there).1
    rwa [namesUnder, List.length_map] at inside
  have slots := congrArg (·[index]?) (solitary.slots laid stem)
  have idents := congrArg (·[index]?) (solitary.idents stem)
  unfold namesUnder at there slots
  simp only [List.getElem?_map, List.getElem?_range inside] at there slots idents
  obtain ⟨entry, place, rfl⟩ := Option.map_eq_some_iff.mp there
  obtain ⟨among, -, rfl⟩ := mem_entriesUnder.mp (List.mem_of_getElem? place)
  rw [place] at slots idents
  refine ⟨(solitary.recorded.faithful entry among).1, ?_, Option.some.inj slots⟩
  exact congrArg Ident.text (Option.some.inj idents)

/-- An entry stands at the position of its key. -/
theorem Solitary.position (solitary : session.Solitary number table scope log offers) {key : Key}
    {handle : Handle} (among : ⟨number, stem, key, handle⟩ ∈ log) :
    ∃ index : Nat, ((offers.filter (·.stem = stem)).map Offer.key).eraseDups[index]? = some key ∧
      (namesUnder log number stem)[index]? = some handle := by
  obtain ⟨index, there⟩ :=
    List.mem_iff_getElem?.mp (mem_entriesUnder.mpr ⟨among, rfl, rfl⟩)
  refine ⟨index, ?_, ?_⟩
  · rw [← solitary.keys, List.getElem?_map, there]
    rfl
  · rw [namesUnder, List.getElem?_map, there]
    rfl

/-- What was answered with a name has an entry. -/
theorem Answered.entry {value : Value} {handle : Handle}
    (answered : Answered scope number log stem value (.name handle)) :
    ∃ key, value.dedupKey? = some key ∧ ⟨number, stem, key, handle⟩ ∈ log := by
  cases present : value.ref? with
  | none => exact absurd (answered.unreferenced present) (by simp)
  | some ref =>
      cases permitted : scope.permits stem with
      | false => exact absurd (answered.refused ref present permitted) (by simp)
      | true =>
          obtain ⟨other, same, among⟩ := answered.named ref present permitted
          obtain rfl := Outcome.name.inj same
          exact ⟨_, Value.dedupKey?_of_ref present, among⟩

/-- Two names that were answered are the same if the stem and the key were. -/
theorem Solitary.same_name_iff (solitary : session.Solitary number table scope log offers)
    {stem stem' : String} {value value' : Value} {handle handle' : Handle}
    (answered : Answered scope number log stem value (.name handle))
    (answered' : Answered scope number log stem' value' (.name handle')) :
    handle = handle' ↔ stem = stem' ∧ value.dedupKey? = value'.dedupKey? := by
  obtain ⟨key, hasKey, among⟩ := answered.entry
  obtain ⟨key', hasKey', among'⟩ := answered'.entry
  obtain ⟨registry, here, -⟩ := solitary.registry
  constructor
  · rintro rfl
    have same := List.inj_on_of_nodup_map solitary.recorded.nodup among among' rfl
    obtain rfl : key = key' := congrArg Entry.key same
    exact ⟨congrArg Entry.stem same, hasKey.trans hasKey'.symm⟩
  · rintro ⟨rfl, same⟩
    obtain rfl : key = key' := Option.some.inj (hasKey.symm.trans (same.trans hasKey'))
    have found := (solitary.recorded.find?_iff here).mpr among
    have found' := (solitary.recorded.find?_iff here).mpr among'
    exact Option.some.inj (found.symm.trans found')

/-- **The closed form of registration.** A registry is opened with a table that no other
registry writes to, and then operations are carried out that leave the two alone, but for values
that are registered there under stems and keys that are looked up. Of the values with a reference
under stems that the scope permits, list under each stem the keys in the order of their first
occurrence. Every such value was answered the name at the position of its key, whose text is the
stem with the position behind it, and whose slot is the stem with the position; so two of them
were answered the same name exactly if they had the same stem and key. Under each stem, the table
holds the reference that came first with each key, in this order. The registry lists the stems in
the order of their first occurrence, and under each the names in the order of the keys. All other
values failed, and have no part in this. -/
theorem closed_form_of_registration (before operations : List Operation) (table : Nat)
    (scope : Scope) (style : Style)
    (unused : ∀ registry ∈ (run {} before).2.registries, registry.table ≠ table)
    (spared : ∀ operation ∈ operations,
      operation.Spares (run {} before).2.registries.length table) :
    let number := (run {} before).2.registries.length
    let opened := ((run {} before).2.perform (.openRegistry table scope style)).2
    let outcomes := (opened.run operations).1
    let session := (opened.run operations).2
    let offers := operations.filterMap (offer? scope number)
    let keys (stem : String) := ((offers.filter (·.stem = stem)).map Offer.key).eraseDups
    ∃ (registry : Registry) (names : String → List Handle),
      session.registries[number]? = some registry ∧
      registry.selection.groups.entries =
        (offers.map Offer.stem).eraseDups.map (fun stem => (stem, names stem)) ∧
      (∀ stem, (names stem).length = (keys stem).length) ∧
      (∀ (stem : String) (index : Nat) (handle : Handle), (names stem)[index]? = some handle →
        handle.stem = stem ∧ handle.text = stem ++ toString index ∧
          session.ledger.slot? handle = some ⟨stem, index⟩) ∧
      (∀ stem, ((session.ledger.table table).column stem).map some =
        (keys stem).map fun key => firstRef? offers (stem, key)) ∧
      (∀ (i : Nat) (stem : String) (value : Value),
        operations[i]? = some (.registerNew number stem value) →
        (value.ref? = none → outcomes[i]? = some (.failed (.missingRef stem))) ∧
        ∀ ref, value.ref? = some ref →
          (scope.permits stem = false → outcomes[i]? = some (.failed (.stemRefused stem))) ∧
          (scope.permits stem = true → ∃ (index : Nat) (handle : Handle),
            (keys stem)[index]? = some (value.key?.getD (.ref ref)) ∧
            (names stem)[index]? = some handle ∧ outcomes[i]? = some (.name handle))) ∧
      ∀ (i j : Nat) (stem stem' : String) (value value' : Value) (handle handle' : Handle),
        operations[i]? = some (.registerNew number stem value) →
        operations[j]? = some (.registerNew number stem' value') →
        outcomes[i]? = some (.name handle) → outcomes[j]? = some (.name handle') →
        (handle = handle' ↔ stem = stem' ∧ value.dedupKey? = value'.dedupKey?) := by
  intro number opened outcomes session offers keys
  obtain ⟨solitary, answers⟩ := (solitary_opened before table scope style unused).run spared
  rw [List.nil_append] at solitary
  generalize enrolments {} before ++ enrolments _ operations = log at solitary answers
  have solitary : session.Solitary number table scope log offers := solitary
  have entered : ∀ stem, keys stem = (entriesUnder log number stem).map Entry.key :=
    fun stem => (solitary.keys stem).symm
  have whole : (run {} (before ++ .openRegistry table scope style :: operations)).2 = session :=
    run_append_snd {} before _
  obtain ⟨registry, here, -⟩ := solitary.registry
  have grouped : registry.Grouped session.ledger := by
    have grouped := grouped_run (before ++ .openRegistry table scope style :: operations)
    rw [whole] at grouped
    exact grouped registry (List.mem_of_getElem? here)
  obtain ⟨places, laid⟩ : ∃ places, session.Laid places := by
    have laid := laid_of_changes (run_changes sound_empty
      (before ++ .openRegistry table scope style :: operations))
    rwa [whole] at laid
  refine ⟨registry, namesUnder log number, here, ?_, ?_, ?_, ?_, ?_, ?_⟩
  · rw [solitary.recorded.groups_selection here grouped, byKey, List.map_map, solitary.stems]
    rfl
  · intro stem
    rw [entered, namesUnder, List.length_map, List.length_map]
  · intro stem index handle there
    exact solitary.name_at laid there
  · intro stem
    rw [solitary.column stem, entered, List.map_map]
    refine List.map_congr_left fun entry among => ?_
    rw [Function.comp_apply, Entry.place, (mem_entriesUnder.mp among).2.2]
  · intro i stem value asked
    obtain ⟨outcome, answer, answered⟩ := answers i stem value asked
    have answer : outcomes[i]? = some outcome := answer
    rw [answer]
    refine ⟨fun absent => congrArg some (answered.unreferenced absent), fun ref present =>
      ⟨fun refused => congrArg some (answered.refused ref present refused), fun permitted => ?_⟩⟩
    obtain ⟨handle, named, among⟩ := answered.named ref present permitted
    obtain ⟨index, atKeys, atNames⟩ := solitary.position among
    exact ⟨index, handle, atKeys, atNames, congrArg some named⟩
  · intro i j stem stem' value value' handle handle' asked asked' named named'
    obtain ⟨outcome, answer, answered⟩ := answers i stem value asked
    obtain ⟨outcome', answer', answered'⟩ := answers j stem' value' asked'
    obtain rfl := Option.some.inj (named.symm.trans answer)
    obtain rfl := Option.some.inj (named'.symm.trans answer')
    exact solitary.same_name_iff answered answered'

/-- Beside a registry that writes to another table, values are registered again, with a key of
their own, without a reference and under a stem that is not permitted. -/
theorem closed_form_of_registration_of_repeated_keys :
    let value (id : Nat) : Value := .inline (some ⟨id, .unit⟩)
    let scope : Scope := { allowed := some ["p", "q"] }
    let before : List Operation := [.openRegistry 0 {} {}, .registerNew 0 "p" (value 9)]
    let operations : List Operation := [.registerNew 1 "q" (value 0), .registerNew 1 "p" (value 1),
      .registerNew 1 "p" (.inline none), .registerNew 0 "p" (value 1), .registerNew 1 "x" (value 2),
      .find 1 "p" (.text "k"), .registerNew 1 "p" ((value 2).withKey (.text "k")),
      .registerNew 1 "p" (value 1), .registerNew 1 "p" ((value 3).withKey (.text "k"))]
    let opened := ((run {} before).2.perform (.openRegistry 1 scope {})).2
    let outcomes := (opened.run operations).1
    let session := (opened.run operations).2
    (∀ registry ∈ (run {} before).2.registries, registry.table ≠ 1) ∧
    (∀ operation ∈ operations, operation.Spares (run {} before).2.registries.length 1) ∧
    ∃ (registry : Registry) (names : String → List Handle),
      session.registries[1]? = some registry ∧
      registry.selection.groups.entries = [("q", names "q"), ("p", names "p")] ∧
      (names "p").length = 2 ∧
      ((session.ledger.table 1).column "p").map some =
        [some ⟨1, .unit⟩, some ⟨2, .unit⟩] ∧
      outcomes[2]? = some (.failed (.missingRef "p")) ∧
      outcomes[4]? = some (.failed (.stemRefused "x")) ∧
      ∃ handle, (names "p")[1]? = some handle ∧ handle.text = "p1" ∧
        outcomes[6]? = some (.name handle) ∧ outcomes[8]? = some (.name handle) := by
  intro value scope before operations
  dsimp only
  have unused : ∀ registry ∈ (run {} before).2.registries, registry.table ≠ 1 := by decide +kernel
  have spared : ∀ operation ∈ operations,
      operation.Spares (run {} before).2.registries.length 1 := by
    decide +kernel
  obtain ⟨registry, names, here, groups, lengths, places, column, answers, same⟩ :=
    closed_form_of_registration before operations 1 scope {} unused spared
  have count : (run {} before).2.registries.length = 1 := by decide +kernel
  have stems : ((operations.filterMap (offer? scope (run {} before).2.registries.length)).map
      Offer.stem).eraseDups = ["q", "p"] := by
    decide +kernel
  rw [count] at here
  have second : ∀ index : Nat,
      ([.ref ⟨1, .unit⟩, .text "k"] : List Key)[index]? = some (.text "k") → index = 1 := by
    rintro (_ | _ | index) there
    · exact absurd there (by decide)
    · rfl
    · exact absurd there (by simp)
  refine ⟨unused, spared, registry, names, here, ?_, ?_, ?_, ?_, ?_, ?_⟩
  · rw [groups, stems]
    rfl
  · rw [lengths]
    decide +kernel
  · rw [column]
    decide +kernel
  · exact (answers 2 "p" (.inline none) rfl).1 rfl
  · exact ((answers 4 "x" (value 2) rfl).2 _ rfl).1 (by decide +kernel)
  · obtain ⟨index, handle, atKeys, atNames, answer⟩ :=
      ((answers 6 "p" ((value 2).withKey (.text "k")) rfl).2 _ rfl).2 (by decide +kernel)
    obtain ⟨index', handle', -, -, answer'⟩ :=
      ((answers 8 "p" ((value 3).withKey (.text "k")) rfl).2 _ rfl).2 (by decide +kernel)
    have equal : handle = handle' := (same 6 8 "p" "p" _ _ _ _ rfl rfl answer answer').mpr ⟨rfl, rfl⟩
    have keys : (((operations.filterMap (offer? scope (run {} before).2.registries.length)).filter
        (·.stem = "p")).map Offer.key).eraseDups = [.ref ⟨1, .unit⟩, .text "k"] := by
      decide +kernel
    obtain rfl := second index ((congrArg (·[index]?) keys).symm.trans atKeys)
    exact ⟨handle, atNames, (places "p" 1 handle atNames).2.1, answer, equal ▸ answer'⟩

end Session

end NameScope
