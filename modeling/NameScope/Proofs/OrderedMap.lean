import NameScope.OrderedMap

/-!
# Lookups and entries of ordered maps

What a map answers for a key and what stands in its list of entries are two
views of one thing, since no key has two entries (`mem_entries_iff`,
`mem_keys_iff`, `mem_values_iff`). An update of a key without a value adds an entry
at the end (`entries_update_of_none`). `mapValues` changes all values of a map and
goes along with updates (`mapValues_update`).
-/

namespace NameScope

variable {κ α : Type} [DecidableEq κ]

namespace Entries

theorem get?_of_mem {key : κ} {a : α} {entries : List (κ × α)}
    (nodup : (entries.map Prod.fst).Nodup) (h : (key, a) ∈ entries) :
    get? key entries = some a := by
  induction entries with
  | nil => exact absurd h List.not_mem_nil
  | cons first rest ih =>
      obtain ⟨k, b⟩ := first
      rw [List.map_cons, List.nodup_cons] at nodup
      rcases List.mem_cons.mp h with here | later
      · rw [Prod.mk.injEq] at here
        obtain ⟨rfl, rfl⟩ := here
        simp [get?]
      · have apart : k ≠ key := by
          rintro rfl
          exact nodup.1 (List.mem_map.mpr ⟨(k, a), later, rfl⟩)
        simp [get?, apart, ih nodup.2 later]

theorem update_of_get?_none {key : κ} {entries : List (κ × α)} (change : Option α → α)
    (h : get? key entries = none) :
    update key change entries = entries ++ [(key, change none)] := by
  induction entries with
  | nil => rfl
  | cons first rest ih =>
      obtain ⟨k, b⟩ := first
      by_cases same : k = key
      · simp [get?, same] at h
      · simp only [get?, same, if_false] at h
        simp [update, same, ih h]

/-- Only what becomes of the value that is there matters. -/
theorem update_congr {key : κ} {change change' : Option α → α} {entries : List (κ × α)}
    (alike : change (get? key entries) = change' (get? key entries)) :
    update key change entries = update key change' entries := by
  induction entries with
  | nil => simpa [update, get?] using alike
  | cons first rest ih =>
      by_cases same : first.1 = key
      · simpa [update, get?, same] using alike
      · simp only [get?, same, if_false] at alike
        simp only [update, same, if_false, ih alike]

/-- A value that stays leaves the entries as they are. -/
theorem update_of_get?_some {key : κ} {a : α} {change : Option α → α} {entries : List (κ × α)}
    (h : get? key entries = some a) (stays : change (some a) = a) :
    update key change entries = entries := by
  induction entries with
  | nil => exact absurd h (by simp [get?])
  | cons first rest ih =>
      obtain ⟨k, b⟩ := first
      by_cases same : k = key
      · simp only [get?, same, if_true] at h
        obtain rfl := Option.some.inj h
        simp [update, same, stays]
      · simp only [get?, same, if_false] at h
        simp [update, same, ih h]

/-- Entries with other keys are passed over. -/
theorem update_append {key : κ} {entries : List (κ × α)} (change : Option α → α)
    (absent : key ∉ entries.map Prod.fst) (rest : List (κ × α)) :
    update key change (entries ++ rest) = entries ++ update key change rest := by
  induction entries with
  | nil => rfl
  | cons first entries ih =>
      obtain ⟨k, b⟩ := first
      rw [List.map_cons, List.mem_cons, not_or] at absent
      simp only [List.cons_append, update, if_neg (Ne.symm absent.1), ih absent.2]

theorem get?_map {β : Type} (f : α → β) (key : κ) (entries : List (κ × α)) :
    get? key (entries.map fun entry => (entry.1, f entry.2)) = (get? key entries).map f := by
  induction entries with
  | nil => rfl
  | cons entry rest ih =>
      by_cases same : entry.1 = key
      · simp [get?, same]
      · simpa [get?, same] using ih

theorem map_update {β : Type} (f : α → β) {key : κ} {change : Option α → α}
    {change' : Option β → β} {entries : List (κ × α)}
    (alike : f (change (get? key entries)) = change' ((get? key entries).map f)) :
    (update key change entries).map (fun entry => (entry.1, f entry.2)) =
      update key change' (entries.map fun entry => (entry.1, f entry.2)) := by
  induction entries with
  | nil => simpa [update, get?] using alike
  | cons entry rest ih =>
      by_cases same : entry.1 = key
      · simpa [update, get?, same] using alike
      · simp only [get?, same, if_false] at alike
        simp only [update, same, if_false, List.map_cons, ih alike]

end Entries

namespace OrderedMap

theorem mem_entries_iff {m : OrderedMap κ α} {key : κ} {a : α} :
    (key, a) ∈ m.entries ↔ m.get? key = some a :=
  ⟨Entries.get?_of_mem m.nodup_keys, mem_entries_of_get?⟩

theorem mem_keys_iff {m : OrderedMap κ α} {key : κ} :
    key ∈ m.keys ↔ ∃ a, m.get? key = some a := by
  simp only [keys, List.mem_map, Prod.exists, exists_and_right, exists_eq_right, mem_entries_iff]

theorem mem_values_iff {m : OrderedMap κ α} {a : α} :
    a ∈ m.values ↔ ∃ key, m.get? key = some a := by
  simp only [values, List.mem_map, Prod.exists, exists_eq_right, mem_entries_iff]

theorem entries_update_of_none {m : OrderedMap κ α} {key : κ} (change : Option α → α)
    (h : m.get? key = none) :
    (m.update key change).entries = m.entries ++ [(key, change none)] :=
  Entries.update_of_get?_none change h

/-- A key without a value gets its first one at the end. -/
theorem values_insert_of_none {m : OrderedMap κ α} {key : κ} (a : α) (h : m.get? key = none) :
    (m.insert key a).values = m.values ++ [a] := by
  simp [values, insert, entries_update_of_none _ h]

omit [DecidableEq κ] in
theorem nodup_entries (m : OrderedMap κ α) : m.entries.Nodup :=
  List.Pairwise.of_map Prod.fst (fun _ _ apart same => apart (congrArg Prod.fst same)) m.nodup_keys

/-- Maps that answer alike have the same entries, in some order. -/
theorem perm_entries {m m' : OrderedMap κ α} (alike : ∀ key, m.get? key = m'.get? key) :
    m.entries.Perm m'.entries := by
  refine (List.perm_ext_iff_of_nodup m.nodup_entries m'.nodup_entries).mpr ?_
  rintro ⟨key, a⟩
  rw [mem_entries_iff, mem_entries_iff, alike]

/-! ## Changing all values -/

variable {β : Type}

omit [DecidableEq κ] in
private theorem map_fst_map (f : α → β) (entries : List (κ × α)) :
    (entries.map fun entry => (entry.1, f entry.2)).map Prod.fst = entries.map Prod.fst := by
  rw [List.map_map]
  rfl

/-- The map with all values changed. -/
def mapValues (f : α → β) (m : OrderedMap κ α) : OrderedMap κ β where
  entries := m.entries.map fun entry => (entry.1, f entry.2)
  nodup_keys := by
    rw [map_fst_map]
    exact m.nodup_keys

variable {f : α → β} {m : OrderedMap κ α}

omit [DecidableEq κ] in
@[simp] theorem values_mapValues : (m.mapValues f).values = m.values.map f := by
  unfold values mapValues
  rw [List.map_map, List.map_map]
  rfl

@[simp] theorem get?_mapValues (key : κ) : (m.mapValues f).get? key = (m.get? key).map f :=
  Entries.get?_map f key m.entries

omit [DecidableEq κ] in
theorem mapValues_congr {g : α → β} (same : ∀ a ∈ m.values, f a = g a) :
    m.mapValues f = m.mapValues g := by
  apply OrderedMap.ext
  refine List.map_congr_left fun entry among => ?_
  rw [same entry.2 (List.mem_map_of_mem among)]

/-- Values that are changed alike before an update and after it. -/
theorem mapValues_update (key : κ) {change : Option α → α} {change' : Option β → β}
    (alike : f (change (m.get? key)) = change' ((m.get? key).map f)) :
    (m.update key change).mapValues f = (m.mapValues f).update key change' :=
  OrderedMap.ext (Entries.map_update f alike)

theorem mapValues_insert (key : κ) (a : α) :
    (m.insert key a).mapValues f = (m.mapValues f).insert key (f a) :=
  mapValues_update key rfl

/-! ## Maps of maps -/

variable {κ' : Type} [DecidableEq κ'] {groups : OrderedMap κ (OrderedMap κ' α)}

/-- Changing all values of all groups, seen in one group. -/
theorem get?_mapValues_groups (group : κ) (key : κ') :
    (((groups.mapValues (mapValues f)).get? group).getD ∅).get? key =
      (((groups.get? group).getD ∅).get? key).map f := by
  rw [get?_mapValues]
  cases groups.get? group with
  | none => rfl
  | some members => exact get?_mapValues key

/-- Changing all values of all groups after one has been added. -/
theorem mapValues_insert_groups (group : κ) (key : κ') (a : α) :
    (groups.update group fun members => (members.getD ∅).insert key a).mapValues (mapValues f) =
      (groups.mapValues (mapValues f)).update group
        fun members => (members.getD ∅).insert key (f a) := by
  rw [mapValues_update group]
  cases groups.get? group with
  | none => exact mapValues_insert key a
  | some members => exact mapValues_insert key a

end OrderedMap

end NameScope
