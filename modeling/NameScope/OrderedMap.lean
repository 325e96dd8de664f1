/-!
# Insertion-ordered maps

An `OrderedMap κ α` is a finite map that remembers the order in which its keys
were first given a value. Changing the value of a key that is present leaves
every position alone; a new key goes to the end. No key occurs twice, and the
type carries the proof, so two maps are equal exactly when they list the same
entries in the same order.
-/

namespace NameScope

variable {κ α : Type} [DecidableEq κ]

namespace Entries

/-- The value at `key` in a list of entries; the first entry counts. -/
def get? (key : κ) : List (κ × α) → Option α
  | [] => none
  | (k, a) :: rest => if k = key then some a else get? key rest

/-- Replace the value at `key` by `change` of what was there, in place; a key
without a value gets `change none` at the end. -/
def update (key : κ) (change : Option α → α) : List (κ × α) → List (κ × α)
  | [] => [(key, change none)]
  | (k, a) :: rest =>
    if k = key then (k, change (some a)) :: rest else (k, a) :: update key change rest

theorem keys_update (key : κ) (change : Option α → α) (entries : List (κ × α)) :
    (update key change entries).map Prod.fst =
      if key ∈ entries.map Prod.fst then entries.map Prod.fst
      else entries.map Prod.fst ++ [key] := by
  induction entries with
  | nil => simp [update]
  | cons entry rest ih =>
    obtain ⟨k, a⟩ := entry
    by_cases h : k = key
    · simp [update, h]
    · by_cases hm : key ∈ rest.map Prod.fst <;> simp_all [update, Ne.symm h]

theorem nodup_keys_update (key : κ) (change : Option α → α) {entries : List (κ × α)}
    (h : (entries.map Prod.fst).Nodup) : ((update key change entries).map Prod.fst).Nodup := by
  rw [keys_update]
  split
  · exact h
  · rename_i absent
    exact List.nodup_append.2 ⟨h, by simp, by
      intro a ha b hb hab
      rw [List.mem_singleton] at hb
      exact absent (hb ▸ hab ▸ ha)⟩

theorem get?_update (key : κ) (change : Option α → α) (entries : List (κ × α)) (k : κ) :
    get? k (update key change entries) =
      if k = key then some (change (get? key entries)) else get? k entries := by
  induction entries with
  | nil => simp [update, get?, eq_comm]
  | cons entry rest ih =>
    obtain ⟨k', a⟩ := entry
    by_cases h' : k' = key
    · by_cases h : k = key
      · simp [update, get?, h, h']
      · simp [update, get?, h, h', Ne.symm h]
    · by_cases h : k = key
      · simp_all [update, get?]
      · by_cases hk : k' = k <;> simp_all [update, get?]

/-- An update leaves no entries but the old ones and the one it makes. -/
theorem mem_update {key : κ} {change : Option α → α} {entries : List (κ × α)} {entry : κ × α}
    (h : entry ∈ update key change entries) :
    entry ∈ entries ∨ entry = (key, change (get? key entries)) := by
  induction entries with
  | nil => simpa [update, get?] using h
  | cons first rest ih =>
    obtain ⟨k, a⟩ := first
    by_cases hk : k = key
    · rcases List.mem_cons.1 (by simpa [update, hk] using h) with rfl | h
      · simp [get?, hk]
      · exact .inl (List.mem_cons_of_mem _ h)
    · rcases List.mem_cons.1 (by simpa [update, hk] using h) with rfl | h
      · exact .inl List.mem_cons_self
      · simpa [get?, hk] using (ih h).imp_left (Or.inr (a := entry = (k, a)))

theorem mem_of_get? {key : κ} {a : α} {entries : List (κ × α)}
    (h : get? key entries = some a) : (key, a) ∈ entries := by
  induction entries with
  | nil => simp [get?] at h
  | cons first rest ih =>
    obtain ⟨k, b⟩ := first
    by_cases hk : k = key
    · simp_all [get?]
    · exact List.mem_cons_of_mem _ (ih (by simpa [get?, hk] using h))

end Entries

/-- A finite map whose entries keep the order in which their keys came. -/
structure OrderedMap (κ α : Type) where
  /-- Keys with their values, oldest key first. -/
  entries : List (κ × α) := []
  /-- No key has two entries. -/
  nodup_keys : (entries.map Prod.fst).Nodup := by simp

namespace OrderedMap

/-- The map without entries. -/
def empty : OrderedMap κ α := {}

instance : EmptyCollection (OrderedMap κ α) := ⟨empty⟩

instance : Inhabited (OrderedMap κ α) := ⟨empty⟩

instance [DecidableEq α] : DecidableEq (OrderedMap κ α) := fun a b =>
  if h : a.entries = b.entries then
    isTrue (by cases a; cases b; cases h; rfl)
  else isFalse (fun e => h (e ▸ rfl))

omit [DecidableEq κ] in
@[ext] theorem ext {a b : OrderedMap κ α} (h : a.entries = b.entries) : a = b := by
  cases a; cases b; cases h; rfl

/-- The keys, oldest first. -/
def keys (m : OrderedMap κ α) : List κ := m.entries.map Prod.fst

/-- The values, in the order of their keys. -/
def values (m : OrderedMap κ α) : List α := m.entries.map Prod.snd

/-- The value at `key`, if it has one. -/
def get? (m : OrderedMap κ α) (key : κ) : Option α := Entries.get? key m.entries

/-- Change the value at `key` in place, or append the key with `change none`. -/
def update (m : OrderedMap κ α) (key : κ) (change : Option α → α) : OrderedMap κ α where
  entries := Entries.update key change m.entries
  nodup_keys := Entries.nodup_keys_update key change m.nodup_keys

/-- Give `key` the value `a`, keeping the key's position if it has one. -/
def insert (m : OrderedMap κ α) (key : κ) (a : α) : OrderedMap κ α :=
  m.update key (fun _ => a)

@[simp] theorem get?_empty (key : κ) : (∅ : OrderedMap κ α).get? key = none := rfl

omit [DecidableEq κ] in
@[simp] theorem keys_empty : (∅ : OrderedMap κ α).keys = [] := rfl

theorem get?_update (m : OrderedMap κ α) (key : κ) (change : Option α → α) (k : κ) :
    (m.update key change).get? k = if k = key then some (change (m.get? key)) else m.get? k :=
  Entries.get?_update key change m.entries k

theorem get?_insert (m : OrderedMap κ α) (key : κ) (a : α) (k : κ) :
    (m.insert key a).get? k = if k = key then some a else m.get? k :=
  get?_update m key _ k

theorem mem_entries_update {m : OrderedMap κ α} {key : κ} {change : Option α → α} {entry : κ × α}
    (h : entry ∈ (m.update key change).entries) :
    entry ∈ m.entries ∨ entry = (key, change (m.get? key)) :=
  Entries.mem_update h

theorem mem_entries_of_get? {m : OrderedMap κ α} {key : κ} {a : α} (h : m.get? key = some a) :
    (key, a) ∈ m.entries :=
  Entries.mem_of_get? h

theorem keys_update (m : OrderedMap κ α) (key : κ) (change : Option α → α) :
    (m.update key change).keys = if key ∈ m.keys then m.keys else m.keys ++ [key] :=
  Entries.keys_update key change m.entries

end OrderedMap

end NameScope
