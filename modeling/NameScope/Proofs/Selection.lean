import NameScope.Selection
import NameScope.Proofs.OrderedMap

/-!
# The names of a selection

A name is selected exactly if it was inserted (`mem_toList_ofList`), and no
selection lists a name twice (`nodup_toList`). Names that come group by group are
selected in these groups (`groups_ofList_of_grouped`).
-/

namespace NameScope.Selection

variable {selection : Selection} {handle other : Handle}

theorem mem_join {group : Option (List Handle)} :
    other ∈ join handle group ↔ other = handle ∨ other ∈ group.getD [] := by
  unfold join
  simp only [List.contains_iff_mem]
  split
  · rename_i held
    constructor
    · exact .inr
    · rintro (rfl | held')
      · exact held
      · exact held'
  · simp only [List.mem_append, List.mem_singleton]
    exact or_comm

theorem group_insert (stem : String) :
    (selection.insert handle).group stem =
      if stem = handle.stem then join handle (selection.groups.get? handle.stem)
      else selection.group stem := by
  unfold group insert
  rw [OrderedMap.get?_update]
  split <;> rfl

/-- All names of a group have its stem. -/
theorem stem_of_mem_group {stem : String} (h : handle ∈ selection.group stem) :
    handle.stem = stem := by
  unfold group at h
  cases found : selection.groups.get? stem with
  | none => simp [found] at h
  | some handles =>
      rw [found] at h
      exact (selection.sound _ (OrderedMap.mem_entries_of_get? found)).stems handle h

/-- A name is selected if it stands in the group of its stem. -/
theorem mem_toList_iff : handle ∈ selection.toList ↔ handle ∈ selection.group handle.stem := by
  unfold toList
  rw [List.mem_flatten]
  constructor
  · rintro ⟨handles, listed, held⟩
    obtain ⟨stem, found⟩ := OrderedMap.mem_values_iff.mp listed
    have inGroup : handle ∈ selection.group stem := by
      unfold group
      rw [found]
      exact held
    rw [stem_of_mem_group inGroup]
    exact inGroup
  · intro held
    unfold group at held
    cases found : selection.groups.get? handle.stem with
    | none => simp [found] at held
    | some handles =>
        rw [found] at held
        exact ⟨handles, OrderedMap.mem_values_iff.mpr ⟨handle.stem, found⟩, held⟩

theorem contains_iff : selection.contains handle = true ↔ handle ∈ selection.toList := by
  rw [mem_toList_iff]
  exact List.contains_iff_mem

theorem mem_toList_insert :
    other ∈ (selection.insert handle).toList ↔ other = handle ∨ other ∈ selection.toList := by
  rw [mem_toList_iff, mem_toList_iff, group_insert]
  split
  · rename_i same
    rw [mem_join, same]
    rfl
  · rename_i apart
    constructor
    · exact .inr
    · rintro (rfl | held)
      · exact absurd rfl apart
      · exact held

/-- The names of a list are those that are selected from it. -/
theorem mem_toList_ofList (handles : List Handle) :
    handle ∈ (ofList handles).toList ↔ handle ∈ handles := by
  have general : ∀ start : Selection,
      handle ∈ (handles.foldl insert start).toList ↔ handle ∈ start.toList ∨ handle ∈ handles := by
    induction handles with
    | nil => simp
    | cons first rest ih =>
        intro start
        rw [List.foldl_cons, ih, mem_toList_insert, List.mem_cons]
        constructor
        · rintro ((isFirst | held) | later)
          · exact .inr (.inl isFirst)
          · exact .inl held
          · exact .inr (.inr later)
        · rintro (held | isFirst | later)
          · exact .inl (.inr held)
          · exact .inl (.inl isFirst)
          · exact .inr later
  have fromEmpty := general ∅
  rw [show (∅ : Selection).toList = [] from rfl] at fromEmpty
  simpa [ofList] using fromEmpty

/-- No name is listed twice. -/
theorem nodup_toList (selection : Selection) : selection.toList.Nodup := by
  unfold toList OrderedMap.values List.Nodup
  rw [List.pairwise_flatten]
  refine ⟨?_, ?_⟩
  · intro handles listed
    obtain ⟨group, held, rfl⟩ := List.mem_map.mp listed
    exact (selection.sound group held).nodup
  · have apart := selection.groups.nodup_keys
    rw [List.Nodup, List.pairwise_map] at apart
    rw [List.pairwise_map]
    refine List.Pairwise.imp_of_mem ?_ apart
    intro first second inFirst inSecond different handle held other held' same
    have stem := (selection.sound first inFirst).stems handle held
    have stem' := (selection.sound second inSecond).stems other held'
    exact different (stem.symm.trans ((congrArg Handle.stem same).trans stem'))

/-! ## Names that are grouped by stem -/

/-- A new name whose stem has the last group is put at its end. -/
private theorem entries_insert_of_last {before : List (String × List Handle)} {group : List Handle}
    (entries : selection.groups.entries = before ++ [(handle.stem, group)])
    (new : handle ∉ group) :
    (selection.insert handle).groups.entries = before ++ [(handle.stem, group ++ [handle])] := by
  have keys := selection.groups.nodup_keys
  rw [entries, List.map_append, List.nodup_append] at keys
  have absent : handle.stem ∉ before.map Prod.fst := fun held =>
    keys.2.2 handle.stem held handle.stem List.mem_cons_self rfl
  show Entries.update handle.stem (join handle) selection.groups.entries = _
  rw [entries, Entries.update_append _ absent]
  simp [Entries.update, join, new]

private theorem entries_foldl_of_last (rest : List Handle) :
    ∀ (selection : Selection) (before : List (String × List Handle)) (stem : String)
      (group : List Handle), selection.groups.entries = before ++ [(stem, group)] →
      (group ++ rest).Nodup → (∀ handle ∈ rest, handle.stem = stem) →
      (rest.foldl insert selection).groups.entries = before ++ [(stem, group ++ rest)] := by
  induction rest with
  | nil =>
      intro selection before stem group entries _ _
      simpa using entries
  | cons first rest ih =>
      intro selection before stem group entries nodup stems
      have new : first ∉ group := fun held =>
        (List.nodup_append.mp nodup).2.2 first held first List.mem_cons_self rfl
      obtain rfl := stems first List.mem_cons_self
      have further := ih (selection.insert first) before first.stem (group ++ [first])
        (entries_insert_of_last entries new) (by simpa using nodup)
        (fun handle held => stems handle (List.mem_cons_of_mem _ held))
      simpa using further

/-- Names that come group by group are selected in these groups. -/
theorem groups_ofList_of_grouped {groups : List (String × List Handle)}
    (sound : ∀ group ∈ groups, GroupSound group) (nodup : (groups.map Prod.fst).Nodup) :
    (ofList (groups.flatMap Prod.snd)).groups.entries = groups := by
  have general : ∀ start : Selection, (start.groups.entries.map Prod.fst ++
      groups.map Prod.fst).Nodup → ((groups.flatMap Prod.snd).foldl insert start).groups.entries =
        start.groups.entries ++ groups := by
    clear nodup
    induction groups with
    | nil => simp
    | cons group rest ih =>
        intro start nodup
        obtain ⟨stem, handles⟩ := group
        have here := sound (stem, handles) List.mem_cons_self
        obtain ⟨first, more, rfl⟩ := List.exists_cons_of_ne_nil here.occupied
        obtain rfl : first.stem = stem := here.stems first List.mem_cons_self
        have absent : first.stem ∉ start.groups.entries.map Prod.fst := fun held =>
          (List.nodup_append.mp nodup).2.2 first.stem held first.stem List.mem_cons_self rfl
        have opened : (start.insert first).groups.entries =
            start.groups.entries ++ [(first.stem, [first])] := by
          have added := Entries.update_append (join first) absent []
          rw [List.append_nil] at added
          exact added
        have filled := entries_foldl_of_last more (start.insert first) _ _ _ opened here.nodup
          (fun handle held => here.stems handle (List.mem_cons_of_mem _ held))
        have further := ih (fun group held => sound group (List.mem_cons_of_mem _ held))
          (more.foldl insert (start.insert first)) (by
            rw [filled]
            simpa using nodup)
        rw [List.flatMap_cons, List.foldl_append, List.foldl_cons, further, filled]
        simp
  have fromEmpty := general ∅ nodup
  rw [show (∅ : Selection).groups.entries = [] from rfl, List.nil_append] at fromEmpty
  exact fromEmpty

end NameScope.Selection
