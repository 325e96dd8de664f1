import Mathlib.Data.List.Nodup
import Mathlib.Data.Set.Basic
import NameScope.Proofs.Numbering
import NameScope.Proofs.Registration

/-!
# The identifiers of a run of an allocator

`Allocator.allocations` lists what an allocator gives out while it serves requests. Under
each stem it gives out the identifiers with consecutive numbers
(`Allocator.idents_of_stem`), so no identifier comes twice under one stem. It may come
under two: `Allocator.nodup_idents_iff` says which stems keep all identifiers apart.
-/

namespace NameScope

namespace Allocator

/-- An identifier that was allocated, and its stem. -/
structure Allocation where
  stem : String
  ident : Ident
deriving DecidableEq

/-- The stem of a request that allocates. -/
def Request.stem? : Request → Option String
  | .existing _ => none
  | .fresh stem => some stem

/-- What is allocated while requests are served one after the other, failed ones
included. A name that exists is handed through and not allocated. -/
def allocations (allocator : Allocator) : List Request → List Allocation
  | [] => []
  | request :: rest =>
    match (provide request).run allocator with
    | .ok ident later =>
      (request.stem?.map fun stem => ⟨stem, ident⟩).toList ++ later.allocations rest
    | .error _ later => later.allocations rest

variable {allocator : Allocator} {stem other : String}

/-! ## One request -/

theorem next_advance (allocator : Allocator) (stem other : String) :
    (allocator.advance stem).next other =
      if other = stem then allocator.next stem + 1 else allocator.next other := by
  unfold next advance
  rw [OrderedMap.get?_update]
  split <;> rfl

/-- An allocation changes nothing about which stems are admitted. -/
theorem admits_advance (admitted : allocator.admits stem = true) (other : String) :
    (allocator.advance stem).admits other = allocator.admits other := by
  by_cases same : other = stem
  · rw [same, admitted]
    unfold admits advance
    rw [OrderedMap.get?_update, if_pos rfl]
    rfl
  · unfold admits advance
    rw [OrderedMap.get?_update, if_neg same]

theorem allocations_fresh (stem : String) (rest : List Request) :
    allocator.allocations (.fresh stem :: rest) =
      if allocator.admits stem then
        ⟨stem, identAt stem (allocator.next stem)⟩ :: (allocator.advance stem).allocations rest
      else allocator.allocations rest := by
  rw [allocations, provide, run_allocate]
  split
  · rename_i allocated
    split at allocated
    · rename_i admitted
      obtain ⟨rfl, rfl⟩ := EStateM.Result.ok.inj allocated
      rw [if_pos admitted]
      rfl
    · exact absurd allocated (by simp)
  · rename_i refused
    split at refused
    · exact absurd refused (by simp)
    · rename_i excluded
      obtain ⟨-, rfl⟩ := EStateM.Result.error.inj refused
      rw [if_neg excluded]

/-! ## Runs -/

theorem mem_allocations {requests : List Request} {allocation : Allocation}
    (held : allocation ∈ allocator.allocations requests) :
    Request.fresh allocation.stem ∈ requests ∧ allocator.admits allocation.stem = true := by
  induction requests generalizing allocator with
  | nil => exact absurd held List.not_mem_nil
  | cons request rest ih =>
      cases request with
      | existing ident =>
          obtain ⟨asked, admitted⟩ := ih held
          exact ⟨List.mem_cons_of_mem _ asked, admitted⟩
      | fresh stem =>
          rw [allocations_fresh] at held
          split at held
          · rename_i admitted
            rcases List.mem_cons.mp held with rfl | later
            · exact ⟨List.mem_cons_self, admitted⟩
            · obtain ⟨asked, still⟩ := ih later
              rw [admits_advance admitted] at still
              exact ⟨List.mem_cons_of_mem _ asked, still⟩
          · obtain ⟨asked, admitted⟩ := ih held
            exact ⟨List.mem_cons_of_mem _ asked, admitted⟩

/-- What is allocated under a stem. -/
def allocationsOf (allocator : Allocator) (stem : String) (requests : List Request) :
    List Allocation :=
  (allocator.allocations requests).filter (·.stem = stem)

/-- **Consecutive numbers.** Under each stem the identifiers are numbered one after the
other from the stem's next number on. -/
theorem idents_of_stem (allocator : Allocator) (stem : String) (requests : List Request) :
    (allocator.allocationsOf stem requests).map Allocation.ident =
      (List.range' (allocator.next stem) (allocator.allocationsOf stem requests).length).map
        (identAt stem) := by
  unfold allocationsOf
  induction requests generalizing allocator with
  | nil => rfl
  | cons request rest ih =>
      cases request with
      | existing ident => exact ih allocator
      | fresh asked =>
          rw [allocations_fresh]
          split
          · have later := ih (allocator.advance asked)
            rw [next_advance] at later
            by_cases same : stem = asked
            · subst same
              rw [if_pos rfl] at later
              rw [List.filter_cons_of_pos (by simp), List.map_cons, List.length_cons, later,
                List.range'_succ, List.map_cons]
            · rw [if_neg same] at later
              rw [List.filter_cons_of_neg (by simpa using Ne.symm same)]
              exact later
          · exact ih allocator

theorem nodup_idents_of_stem (allocator : Allocator) (stem : String) (requests : List Request) :
    ((allocator.allocationsOf stem requests).map Allocation.ident).Nodup := by
  rw [idents_of_stem]
  exact List.Nodup.map (fun _ _ same => identAt_inj.mp same) List.nodup_range'

/-- Every identifier is one of its stem. -/
theorem exists_eq_identAt {requests : List Request} {allocation : Allocation}
    (held : allocation ∈ allocator.allocations requests) :
    ∃ index, allocation.ident = identAt allocation.stem index := by
  have ofStem : allocation ∈ allocator.allocationsOf allocation.stem requests :=
    List.mem_filter.mpr ⟨held, by simp⟩
  have listed := List.mem_map_of_mem (f := Allocation.ident) ofStem
  rw [idents_of_stem] at listed
  obtain ⟨index, -, same⟩ := List.mem_map.mp listed
  exact ⟨index, same.symm⟩

/-- If no identifier comes twice under one stem and none under two, none comes twice. -/
theorem Allocation.nodup_idents {allocations : List Allocation}
    (ofStem : ∀ stem, ((allocations.filter (·.stem = stem)).map Allocation.ident).Nodup)
    (apart : ∀ a ∈ allocations, ∀ b ∈ allocations, a.stem ≠ b.stem → a.ident ≠ b.ident) :
    (allocations.map Allocation.ident).Nodup := by
  rw [List.Nodup, List.pairwise_map, List.pairwise_iff_forall_sublist]
  intro a b pair
  by_cases stems : a.stem = b.stem
  · -- the pair also stands in what is allocated under the stem
    have nodup := ofStem b.stem
    rw [List.Nodup, List.pairwise_map, List.pairwise_iff_forall_sublist] at nodup
    apply nodup
    have filtered := pair.filter (·.stem = b.stem)
    rwa [List.filter_eq_self.mpr (by simp [stems])] at filtered
  · exact apart a (pair.subset (by simp)) b (pair.subset (by simp)) stems

/-- Enough requests for a stem reach each of its numbers. -/
theorem mem_allocations_replicate (admitted : allocator.admits stem = true) {index count : Nat}
    (reached : index < count) :
    ⟨stem, identAt stem (allocator.next stem + index)⟩ ∈
      allocator.allocations (List.replicate count (.fresh stem)) := by
  induction count generalizing allocator index with
  | zero => exact absurd reached (Nat.not_lt_zero index)
  | succ count ih =>
      rw [List.replicate_succ, allocations_fresh, if_pos admitted, List.mem_cons]
      cases index with
      | zero => exact .inl rfl
      | succ index =>
          have still : (allocator.advance stem).admits stem = true := by
            rw [admits_advance admitted, admitted]
          have later := ih still (Nat.lt_of_succ_lt_succ reached)
          rw [next_advance, if_pos rfl, Nat.add_assoc, Nat.add_comm 1 index] at later
          exact .inr later

/-- A stem is not among its own identifiers. -/
theorem identAt_text_ne (stem : String) (index : Nat) : (identAt stem index).text ≠ stem := by
  intro same
  have lists := congrArg String.toList same
  rw [toList_identAt] at lists
  exact Nat.toDigits_ne_nil (List.append_right_eq_self.mp lists)

/-- A stem that is an identifier of another one comes into its way. -/
theorem not_nodup_idents {scope : Scope} {p : String} {n : Nat} (positive : 0 < n)
    (permitted : scope.permits p = true) (permitted' : scope.permits (identAt p n).text = true) :
    ¬ ((allocations { scope } (.fresh (identAt p n).text ::
      List.replicate (10 * n + 1) (.fresh p))).map Allocation.ident).Nodup := by
  have admitted : Allocator.admits { scope } (identAt p n).text = true := permitted'
  have still : (Allocator.advance { scope } (identAt p n).text).admits p = true := by
    rw [admits_advance admitted]
    exact permitted
  have reached := mem_allocations_replicate still (Nat.lt_succ_self (10 * n))
  have start : (Allocator.advance { scope } (identAt p n).text).next p = 0 := by
    rw [next_advance, if_neg (identAt_text_ne p n).symm]
    rfl
  rw [start, Nat.zero_add] at reached
  rw [allocations_fresh, if_pos admitted, List.map_cons, List.nodup_cons]
  intro nodup
  apply nodup.1
  -- the first identifier under the longer stem is a later one under `p`
  show identAt (identAt p n).text 0 ∈ _
  rw [identAt_text_zero p positive]
  exact List.mem_map_of_mem (f := Allocation.ident) reached

/-- **Stems that keep identifiers apart.** A scope allocates no identifier twice in any
run that uses stems of a set exactly if no stem of the set is an identifier of another
one, its number 0 excepted; stems that the scope does not permit do no harm. -/
theorem nodup_idents_iff (scope : Scope) (stems : Set String) :
    (∀ requests : List Request, (∀ stem, Request.fresh stem ∈ requests → stem ∈ stems) →
      ((allocations { scope } requests).map Allocation.ident).Nodup) ↔
    ∀ p ∈ stems, ∀ q ∈ stems, scope.permits p = true → scope.permits q = true →
      ∀ n, 0 < n → q ≠ (identAt p n).text := by
  constructor
  · intro distinct p inP q inQ permitted permitted' n positive same
    subst same
    apply not_nodup_idents positive permitted permitted'
    apply distinct
    intro stem asked
    rcases List.mem_cons.mp asked with first | later
    · rw [Request.fresh.inj first]
      exact inQ
    · rw [Request.fresh.inj (List.eq_of_mem_replicate later)]
      exact inP
  · intro safe requests within
    apply Allocation.nodup_idents (fun stem => nodup_idents_of_stem _ stem requests)
    intro a inA b inB stems same
    obtain ⟨askedA, admittedA⟩ := mem_allocations inA
    obtain ⟨askedB, admittedB⟩ := mem_allocations inB
    obtain ⟨i, identA⟩ := exists_eq_identAt inA
    obtain ⟨j, identB⟩ := exists_eq_identAt inB
    rw [identA, identB, identAt_eq_iff] at same
    -- one stem runs into the other, so that one is an identifier of this one
    rcases same with ⟨sameStem, -⟩ | into | into
    · exact stems sameStem
    · obtain ⟨n, positive, extended⟩ := into.exists_eq
      exact safe _ (within _ askedA) _ (within _ askedB) admittedA admittedB n positive extended
    · obtain ⟨n, positive, extended⟩ := into.exists_eq
      exact safe _ (within _ askedB) _ (within _ askedA) admittedB admittedA n positive extended

/-- The eleventh identifier under "a" is the first one under "a1". -/
theorem ident_allocated_twice :
    let requests : List Request := .fresh "a1" :: List.replicate 11 (.fresh "a")
    let idents := (allocations { scope := {} } requests).map Allocation.ident
    idents.length = 12 ∧ idents[0]? = some ⟨"a10"⟩ ∧ idents[11]? = some ⟨"a10"⟩ ∧
      ¬ idents.Nodup := by
  decide +kernel

end Allocator

end NameScope
