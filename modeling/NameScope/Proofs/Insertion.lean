import Mathlib.Data.Finset.Card
import NameScope.Proofs.Change
import NameScope.Proofs.FirstOccurrence
import NameScope.Proofs.Selection

/-!
# Names inserted one after the other

An insertion changes nothing if the name is selected, and puts it at the end of the group of
its stem if it is new (`Selection.insert_of_mem`, `Selection.entries_insert_of_not_mem`). So
what is selected from a list are the first occurrences of its names, by their stems
(`Selection.groups_ofList`), and each insertion tells whether it met a first occurrence
(`Selection.answer_insertEach`).

Names given out in a session are told apart by their numbers, whatever their texts. For
lists of such names all of this is said in numbers
(`Session.selected_in_order_of_occurrence`).
-/

namespace NameScope

namespace Selection

variable {selection : Selection} {handle : Handle}

/-- A name that is selected is not inserted again. -/
theorem insert_of_mem (held : handle ∈ selection.toList) : selection.insert handle = selection := by
  rw [mem_toList_iff] at held
  unfold group at held
  cases found : selection.groups.get? handle.stem with
  | none => simp [found] at held
  | some handles =>
      rw [found] at held
      have stays : join handle (some handles) = handles := by
        unfold join
        exact if_pos (List.contains_iff_mem.mpr held)
      exact Selection.ext (OrderedMap.ext (Entries.update_of_get?_some found stays))

/-- A new name goes to the end of the group of its stem. -/
theorem entries_insert_of_not_mem (new : handle ∉ selection.toList) :
    (selection.insert handle).groups.entries =
      Entries.update handle.stem (putLast handle) selection.groups.entries := by
  rw [mem_toList_iff] at new
  refine Entries.update_congr ?_
  unfold join
  exact if_neg (mt List.contains_iff_mem.mp new)

theorem ofList_concat (handles : List Handle) (handle : Handle) :
    ofList (handles ++ [handle]) = (ofList handles).insert handle := by
  unfold ofList
  rw [List.foldl_append]
  rfl

/-- **First occurrences, stem by stem**, are what is selected from a list. -/
theorem groups_ofList (handles : List Handle) :
    (ofList handles).groups.entries = byKey Handle.stem handles.eraseDups := by
  induction handles using List.reverseRecOn with
  | nil => rfl
  | append_singleton handles handle ih =>
      -- the last name leaves both sides as they are, or goes to the end of its group
      rw [ofList_concat, eraseDups_concat]
      by_cases before : handle ∈ handles
      · rw [insert_of_mem ((mem_toList_ofList handles).mpr before), if_pos before, ih]
      · rw [entries_insert_of_not_mem (mt (mem_toList_ofList handles).mp before), if_neg before,
          byKey_concat, ih]

/-- Nothing changes when the names of a selection are selected again. -/
theorem ofList_toList (selection : Selection) : ofList selection.toList = selection := by
  have again := groups_ofList_of_grouped selection.sound selection.groups.nodup_keys
  refine Selection.ext (OrderedMap.ext ?_)
  unfold toList OrderedMap.values
  rw [← List.flatMap_def]
  exact again

/-! ## What the insertions tell -/

/-- Insert names one after the other and keep what each insertion tells. -/
def insertEach (selection : Selection) : List Handle → List Bool × Selection
  | [] => ([], selection)
  | handle :: rest =>
    let (new, selection) := selection.insertNew handle
    let (answers, selection) := selection.insertEach rest
    (new :: answers, selection)

theorem insertEach_cons (selection : Selection) (handle : Handle) (rest : List Handle) :
    selection.insertEach (handle :: rest) =
      ((!selection.contains handle) :: ((selection.insert handle).insertEach rest).1,
        ((selection.insert handle).insertEach rest).2) := rfl

theorem insertEach_append (selection : Selection) (handles rest : List Handle) :
    selection.insertEach (handles ++ rest) =
      ((selection.insertEach handles).1 ++ ((selection.insertEach handles).2.insertEach rest).1,
        ((selection.insertEach handles).2.insertEach rest).2) := by
  induction handles generalizing selection with
  | nil => rfl
  | cons handle handles ih =>
      rw [List.cons_append, insertEach_cons, insertEach_cons, ih]
      rfl

theorem insertEach_snd (selection : Selection) (handles : List Handle) :
    (selection.insertEach handles).2 = handles.foldl insert selection := by
  induction handles generalizing selection with
  | nil => rfl
  | cons handle handles ih => exact ih (selection.insert handle)

theorem length_insertEach (selection : Selection) (handles : List Handle) :
    (selection.insertEach handles).1.length = handles.length := by
  induction handles generalizing selection with
  | nil => rfl
  | cons handle handles ih => exact congrArg Nat.succ (ih (selection.insert handle))

/-- Each insertion tells whether its name occurred before. -/
theorem answer_insertEach (before : List Handle) (handle : Handle) (after : List Handle) :
    (insertEach ∅ (before ++ handle :: after)).1[before.length]? =
      some (decide (handle ∉ before)) := by
  have place : before.length = (insertEach ∅ before).1.length := (length_insertEach ∅ before).symm
  have occurred : (ofList before).contains handle = decide (handle ∈ before) := by
    rw [Bool.eq_iff_iff, contains_iff, mem_toList_ofList, decide_eq_true_iff]
  rw [insertEach_append, insertEach_cons, place, List.getElem?_append_right (Nat.le_refl _),
    Nat.sub_self, List.getElem?_cons_zero, insertEach_snd]
  show some (!(ofList before).contains handle) = _
  rw [occurred, decide_not]

end Selection

/-! ## Names that have numbers -/

namespace Ledger.Sound

variable {ledger : Ledger} {names : List Handle}

/-- Among names that were given out, a name occurs if its number does. -/
theorem id_mem_iff (sound : ledger.Sound) (given : ∀ name ∈ names, name ∈ ledger.handles)
    {name : Handle} (among : name ∈ ledger.handles) :
    name.id ∈ names.map Handle.id ↔ name ∈ names := by
  constructor
  · intro held
    obtain ⟨other, listed, same⟩ := List.mem_map.mp held
    exact sound.eq_of_id (given other listed) among same ▸ listed
  · exact List.mem_map_of_mem

theorem eraseDups_ids (sound : ledger.Sound) (given : ∀ name ∈ names, name ∈ ledger.handles) :
    (names.map Handle.id).eraseDups = names.eraseDups.map Handle.id :=
  eraseDups_map fun name held other held' =>
    sound.eq_of_id (given name held) (given other held')

/-- As many names are selected as there are numbers. -/
theorem size_ofList (sound : ledger.Sound) (given : ∀ name ∈ names, name ∈ ledger.handles) :
    (Selection.ofList names).size = (names.map Handle.id).toFinset.card := by
  have among : ∀ name ∈ (Selection.ofList names).toList, name ∈ ledger.handles :=
    fun name held => given name ((Selection.mem_toList_ofList names).mp held)
  have apart : ((Selection.ofList names).toList.map Handle.id).Nodup :=
    (Selection.nodup_toList _).map_on fun name held other held' =>
      sound.eq_of_id (among name held) (among other held')
  have same : (names.map Handle.id).toFinset =
      ((Selection.ofList names).toList.map Handle.id).toFinset := by
    ext number
    simp only [List.mem_toFinset, List.mem_map, Selection.mem_toList_ofList]
  rw [same, List.toFinset_card_of_nodup apart, List.length_map]
  rfl

end Ledger.Sound

namespace Session

/-- **First occurrences by number.** Names that registries of a session have given out, bound
or not, are inserted one after the other. The stems come in the order in which they first
occur, each once, and under a stem come its names, told apart by their numbers, in the order
in which these first occur. An insertion tells that the name is new exactly if no name with
its number came before; the names whose numbers occur are selected and no others, each once;
and to select the names of the selection in their order gives the same selection again. -/
theorem selected_in_order_of_occurrence (operations : List Operation) {names : List Handle}
    (given : ∀ name ∈ names, name ∈ (run {} operations).2.ledger.handles) :
    let inserted := Selection.insertEach ∅ names
    let selection := Selection.ofList names
    inserted.2 = selection ∧
    inserted.1.length = names.length ∧
    (∀ before name after, names = before ++ name :: after →
      inserted.1[before.length]? = some (decide (name.id ∉ before.map Handle.id))) ∧
    selection.groups.entries = (names.map Handle.stem).eraseDups.map
      (fun stem => (stem, (names.filter (·.stem = stem)).eraseDups)) ∧
    (∀ group ∈ selection.groups.entries, group.2.map Handle.id =
      ((names.filter (·.stem = group.1)).map Handle.id).eraseDups) ∧
    (∀ name ∈ (run {} operations).2.ledger.handles,
      selection.contains name = true ↔ name.id ∈ names.map Handle.id) ∧
    selection.size = (names.map Handle.id).toFinset.card ∧
    Selection.ofList selection.toList = selection := by
  intro inserted selection
  have sound : (run {} operations).2.ledger.Sound := sound_run operations
  have groups : selection.groups.entries = (names.map Handle.stem).eraseDups.map
      (fun stem => (stem, (names.filter (·.stem = stem)).eraseDups)) :=
    (Selection.groups_ofList names).trans (byKey_eraseDups Handle.stem names)
  refine ⟨Selection.insertEach_snd ∅ names, Selection.length_insertEach ∅ names, ?_, groups, ?_,
    ?_, sound.size_ofList given, Selection.ofList_toList selection⟩
  · rintro before name after rfl
    have earlier : ∀ other ∈ before, other ∈ (run {} operations).2.ledger.handles :=
      fun other held => given other (List.mem_append_left _ held)
    have among := given name (List.mem_append_right _ List.mem_cons_self)
    rw [Selection.answer_insertEach, decide_eq_decide.mpr
      (not_congr (sound.id_mem_iff earlier among))]
  · intro group listed
    rw [groups] at listed
    obtain ⟨stem, -, rfl⟩ := List.mem_map.mp listed
    exact (sound.eraseDups_ids fun name held => given name (List.mem_of_mem_filter held)).symm
  · intro name among
    rw [Selection.contains_iff, Selection.mem_toList_ofList, sound.id_mem_iff given among]

/-- Two registries with tables of their own both give out names with the texts `p0` and `q0`.
Of the names in the list two are bound, two are not, and two occur twice. -/
theorem selected_in_order_of_occurrence_of_equal_texts :
    let value (id : Nat) : Value := .inline (some ⟨id, .unit⟩)
    let operations : List Operation := [.openRegistry 0 {} {}, .openRegistry 1 {} {},
      .newName 0 "q", .registerNew 0 "p" (value 0), .newName 1 "p",
      .registerNew 1 "q" (value 1), .newName 0 "p"]
    let session := (run {} operations).2
    let q (id : Nat) : Handle := ⟨id, ⟨"q0"⟩, "q"⟩
    let p (id : Nat) : Handle := ⟨id, ⟨"p0"⟩, "p"⟩
    let names := [p 1, q 3, p 2, p 1, q 0, q 3]
    let selection := Selection.ofList names
    (∀ name ∈ names, name ∈ session.ledger.handles) ∧
    (names.map fun name => (session.ledger.binding? name).isSome) =
      [true, true, false, true, false, true] ∧
    (Selection.insertEach ∅ names).1[2]? = some true ∧
    (Selection.insertEach ∅ names).1[5]? = some false ∧
    selection.groups.entries = [("p", [p 1, p 2]), ("q", [q 3, q 0])] ∧
    selection.contains ⟨4, ⟨"p1"⟩, "p"⟩ = false ∧
    selection.size = 4 ∧
    Selection.ofList [p 1, p 2, q 3, q 0] = selection := by
  intro value operations session q p names selection
  have given : ∀ name ∈ names, name ∈ session.ledger.handles := by decide +kernel
  obtain ⟨-, -, answers, groups, -, selected, size, again⟩ :=
    selected_in_order_of_occurrence operations given
  have stems : (names.map Handle.stem).eraseDups = ["p", "q"] := by decide +kernel
  have entries : selection.groups.entries = [("p", [p 1, p 2]), ("q", [q 3, q 0])] := by
    rw [groups, stems]
    decide +kernel
  refine ⟨given, by decide +kernel, answers [p 1, q 3] (p 2) [p 1, q 0, q 3] rfl,
    answers [p 1, q 3, p 2, p 1, q 0] (q 3) [] rfl, entries, ?_, size.trans (by decide +kernel), ?_⟩
  · rw [Bool.eq_false_iff, ne_eq, selected _ (by decide +kernel)]
    decide +kernel
  · have order : selection.toList = [p 1, p 2, q 3, q 0] := by
      unfold Selection.toList OrderedMap.values
      rw [entries]
      rfl
    rw [← order]
    exact again

end Session

end NameScope
