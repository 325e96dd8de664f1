import Mathlib.Data.List.Induction
import Mathlib.Data.List.Nodup
import NameScope.Proofs.OrderedMap

/-!
# First occurrences

`List.eraseDups` lists what occurs in a list in the order of first occurrence. `byKey`
collects the items of a list by a key: the keys come in the order in which they first
occur, and the items of each key in the order of the list. One more item at the end of
the list is an update of the entries (`byKey_concat`), so a map that is filled item by
item lists what `byKey` says of the items that it was filled with.
-/

namespace NameScope

variable {κ α : Type}

section EraseDups

variable [BEq κ] [LawfulBEq κ]

theorem nodup_eraseDups (keys : List κ) : keys.eraseDups.Nodup := by
  match keys with
  | [] => exact List.nodup_nil
  | first :: rest =>
      have shorter : (rest.filter fun key => !key == first).length < rest.length + 1 :=
        Nat.lt_succ_of_le (List.length_filter_le _ _)
      rw [List.eraseDups_cons, List.nodup_cons]
      exact ⟨by simp, nodup_eraseDups _⟩
termination_by keys.length

/-- A key that occurred before adds nothing. -/
theorem eraseDups_concat (keys : List κ) (key : κ) :
    (keys ++ [key]).eraseDups =
      if key ∈ keys then keys.eraseDups else keys.eraseDups ++ [key] := by
  rw [List.eraseDups_append]
  by_cases before : key ∈ keys
  · simp [List.removeAll, before]
  · simp [List.removeAll, before, List.eraseDups_cons]

theorem eraseDups_of_nodup {keys : List κ} (nodup : keys.Nodup) : keys.eraseDups = keys := by
  induction keys using List.reverseRecOn with
  | nil => rfl
  | append_singleton keys key ih =>
      obtain ⟨nodup, -, apart⟩ := List.nodup_append.mp nodup
      have new : key ∉ keys := fun before => apart key before key (List.mem_singleton.mpr rfl) rfl
      rw [eraseDups_concat, if_neg new, ih nodup]

/-- Whether a key is kept does not depend on where it occurs. -/
theorem eraseDups_filter (keep : κ → Bool) (keys : List κ) :
    (keys.filter keep).eraseDups = keys.eraseDups.filter keep := by
  induction keys using List.reverseRecOn with
  | nil => rfl
  | append_singleton keys key ih =>
      rw [List.filter_append, eraseDups_concat]
      by_cases kept : keep key = true
      · rw [List.filter_cons_of_pos kept, List.filter_nil, eraseDups_concat, ih]
        by_cases before : key ∈ keys
        · rw [if_pos before, if_pos (List.mem_filter.mpr ⟨before, kept⟩)]
        · rw [if_neg before, if_neg fun held => before (List.mem_filter.mp held).1,
            List.filter_append, List.filter_cons_of_pos kept, List.filter_nil]
      · rw [List.filter_cons_of_neg kept, List.filter_nil, List.append_nil, ih]
        split
        · rfl
        · rw [List.filter_append, List.filter_cons_of_neg kept, List.filter_nil, List.append_nil]

section Map

variable {κ' : Type} [BEq κ'] [LawfulBEq κ']

/-- Repetitions may be left out before keys are mapped, too. -/
theorem eraseDups_map_eraseDups (f : κ → κ') (keys : List κ) :
    (keys.eraseDups.map f).eraseDups = (keys.map f).eraseDups := by
  induction keys using List.reverseRecOn with
  | nil => rfl
  | append_singleton keys key ih =>
      rw [eraseDups_concat, List.map_append, List.map_singleton, eraseDups_concat]
      by_cases before : key ∈ keys
      · rw [if_pos before, if_pos (List.mem_map_of_mem before), ih]
      · have same : f key ∈ keys.eraseDups.map f ↔ f key ∈ keys.map f := by
          simp only [List.mem_map, List.mem_eraseDups]
        rw [if_neg before, List.map_append, List.map_singleton, eraseDups_concat, ih]
        by_cases mapped : f key ∈ keys.map f
        · rw [if_pos mapped, if_pos (same.mpr mapped)]
        · rw [if_neg mapped, if_neg (mt same.mp mapped)]

/-- Keys that stay apart are repeated where they were. -/
theorem eraseDups_map {f : κ → κ'} {keys : List κ}
    (apart : ∀ a ∈ keys, ∀ b ∈ keys, f a = f b → a = b) :
    (keys.map f).eraseDups = keys.eraseDups.map f := by
  rw [← eraseDups_map_eraseDups]
  refine eraseDups_of_nodup (List.Nodup.map_on (fun a among b among' same => ?_)
    (nodup_eraseDups keys))
  exact apart a (List.mem_eraseDups.mp among) b (List.mem_eraseDups.mp among') same

end Map

end EraseDups

variable [DecidableEq κ]

/-- The items of a list by their keys. -/
def byKey (key : α → κ) (items : List α) : List (κ × List α) :=
  (items.map key).eraseDups.map fun k => (k, items.filter (key · = k))

theorem keys_byKey (key : α → κ) (items : List α) :
    (byKey key items).map Prod.fst = (items.map key).eraseDups := by
  unfold byKey
  rw [List.map_map]
  exact List.map_id _

theorem mem_byKey {key : α → κ} {items : List α} {k : κ} {group : List α} :
    (k, group) ∈ byKey key items ↔ k ∈ items.map key ∧ items.filter (key · = k) = group := by
  unfold byKey
  simp only [List.mem_map, List.mem_eraseDups, Prod.mk.injEq]
  constructor
  · rintro ⟨k, occurs, rfl, rfl⟩
    exact ⟨occurs, rfl⟩
  · rintro ⟨occurs, rfl⟩
    exact ⟨k, occurs, rfl, rfl⟩

/-- A key without items has no group. -/
theorem get?_byKey (key : α → κ) (items : List α) (k : κ) :
    (Entries.get? k (byKey key items)).getD [] = items.filter (key · = k) := by
  cases found : Entries.get? k (byKey key items) with
  | some group => exact (mem_byKey.mp (Entries.mem_of_get? found)).2.symm
  | none =>
      refine (List.filter_eq_nil_iff.mpr fun item among same => ?_).symm
      have occurs : k ∈ items.map key := of_decide_eq_true same ▸ List.mem_map_of_mem among
      have nodup : ((byKey key items).map Prod.fst).Nodup := by
        rw [keys_byKey]
        exact nodup_eraseDups _
      rw [Entries.get?_of_mem nodup (mem_byKey.mpr ⟨occurs, rfl⟩)] at found
      cases found

/-- First occurrences by their keys: the keys of all items, each with the first occurrences
of its items. -/
theorem byKey_eraseDups [DecidableEq α] (key : α → κ) (items : List α) :
    byKey key items.eraseDups =
      (items.map key).eraseDups.map fun k => (k, (items.filter (key · = k)).eraseDups) := by
  unfold byKey
  rw [eraseDups_map_eraseDups]
  refine List.map_congr_left fun k _ => ?_
  rw [eraseDups_filter]

namespace Entries

/-- An update of a key that is listed changes its value alone. -/
theorem update_map_of_mem {keys : List κ} (nodup : keys.Nodup) (f : κ → α) {key : κ}
    (listed : key ∈ keys) (change : Option α → α) :
    update key change (keys.map fun k => (k, f k)) =
      keys.map fun k => (k, if k = key then change (some (f k)) else f k) := by
  induction keys with
  | nil => exact absurd listed List.not_mem_nil
  | cons first rest ih =>
      obtain ⟨absent, nodup⟩ := List.nodup_cons.mp nodup
      rw [List.map_cons, List.map_cons]
      by_cases same : first = key
      · subst same
        have others : ∀ k ∈ rest, (k, f k) =
            (k, if k = first then change (some (f k)) else f k) := by
          intro k among
          have other : k ≠ first := fun same => absent (same ▸ among)
          rw [if_neg other]
        simp only [update, if_true, List.map_congr_left others]
      · have later : key ∈ rest := (List.mem_cons.mp listed).resolve_left (Ne.symm same)
        simp only [update, if_neg same, ih nodup later]

end Entries

/-- A group with one more item at its end. -/
def putLast (item : α) (group : Option (List α)) : List α := group.getD [] ++ [item]

theorem map_putLast {β : Type} (f : α → β) (item : α) (group : Option (List α)) :
    (putLast item group).map f = putLast (f item) (group.map (List.map f)) := by
  cases group with
  | none => rfl
  | some items => exact List.map_append

/-- **One more item** goes to the end of the group of its key. -/
theorem byKey_concat (key : α → κ) (items : List α) (item : α) :
    byKey key (items ++ [item]) =
      Entries.update (key item) (putLast item) (byKey key items) := by
  unfold byKey
  rw [List.map_append, List.map_singleton, eraseDups_concat]
  by_cases before : key item ∈ items.map key
  · rw [if_pos before, Entries.update_map_of_mem (nodup_eraseDups _) _
      (List.mem_eraseDups.mpr before)]
    refine List.map_congr_left fun k _ => ?_
    rw [List.filter_append]
    by_cases same : k = key item
    · simp [same, putLast]
    · simp [same, Ne.symm same]
  · have listed : key item ∉ ((items.map key).eraseDups.map
        fun k => (k, items.filter (key · = k))).map Prod.fst := by
      simpa [List.map_map, Function.comp_def] using before
    have appended := Entries.update_append (putLast item) listed []
    rw [if_neg before, ← List.append_nil (List.map _ (items.map key).eraseDups), appended,
      List.map_append, List.map_singleton]
    have none : items.filter (key · = key item) = [] := by
      simpa [List.filter_eq_nil_iff] using before
    congr 1
    · refine List.map_congr_left fun k among => ?_
      have other : key item ≠ k := fun same => before (same ▸ List.mem_eraseDups.mp among)
      simp [List.filter_append, other]
    · simp [List.filter_append, none, Entries.update, putLast]

/-- One more item in one of the groups is one more of all items. -/
theorem Entries.perm_flatMap_update (key : κ) (item : α) (entries : List (κ × List α)) :
    ((update key (putLast item) entries).flatMap Prod.snd).Perm
      (entries.flatMap Prod.snd ++ [item]) := by
  induction entries with
  | nil => exact .refl _
  | cons entry rest ih =>
      unfold update
      split
      · rw [List.flatMap_cons, List.flatMap_cons, List.append_assoc]
        show (entry.2 ++ [item] ++ rest.flatMap Prod.snd).Perm _
        rw [List.append_assoc]
        exact List.perm_append_comm.append_left _
      · rw [List.flatMap_cons, List.flatMap_cons, List.append_assoc]
        exact ih.append_left _

/-- Collecting items by their keys keeps all of them. -/
theorem perm_flatMap_byKey (key : α → κ) (items : List α) :
    ((byKey key items).flatMap Prod.snd).Perm items := by
  induction items using List.reverseRecOn with
  | nil => exact .refl _
  | append_singleton items item ih =>
      rw [byKey_concat]
      exact (Entries.perm_flatMap_update _ _ _).trans (ih.append_right _)

end NameScope
