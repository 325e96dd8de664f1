import NameScope.Proofs.Admission

/-!
# When identifiers collide

An allocator numbers what it gives out under each stem from 0 on (`Session.numbers_run`), so
the identifiers of a run are known from their stems and places, and whether two of them are
the same is a question about texts and decimals (`Allocator.identAt_eq_iff`). Hence, in the
course of any run, an allocator gives out no identifier twice under one stem, nor under two
stems unless one of them ends in a digit (`Session.collisions_of_run`).
-/

namespace NameScope

open Allocator (Allocation identAt)

namespace Session

variable {operations : List Operation} {site : Site} {stem : String}

/-- What is allocated under a stem is numbered from 0 on. -/
theorem idents_allocatedUnder (operations : List Operation) (site : Site) (stem : String) :
    (allocatedUnder {} site stem operations).map Allocation.ident =
      (List.range' 0 (allocatedUnder {} site stem operations).length).map (identAt stem) := by
  have numbered := (numbers_run sound_empty site stem operations).1
  rwa [nextAt_empty] at numbered

/-- The identifier at a place bears the number of the place. -/
theorem ident_of_allocatedUnder {place : Nat} {allocation : Allocation}
    (there : (allocatedUnder {} site stem operations)[place]? = some allocation) :
    allocation.ident = identAt stem place := by
  have listed : ((allocatedUnder {} site stem operations).map Allocation.ident)[place]? =
      some allocation.ident := by
    rw [List.getElem?_map, there]
    rfl
  rw [idents_allocatedUnder] at listed
  exact Allocator.eq_identAt_of_getElem? listed

theorem nodup_allocatedUnder (operations : List Operation) (site : Site) (stem : String) :
    ((allocatedUnder {} site stem operations).map Allocation.ident).Nodup := by
  rw [idents_allocatedUnder]
  exact List.Nodup.map (fun _ _ same => Allocator.identAt_inj.mp same) List.nodup_range'

/-- If no stem ends in a digit, no identifier is allocated twice. -/
theorem nodup_allocated
    (plain : ∀ a ∈ allocated {} site operations, Allocator.endsInDigit a.stem = false) :
    ((allocated {} site operations).map Allocation.ident).Nodup := by
  apply Allocation.nodup_idents (nodup_allocatedUnder operations site)
  intro a inA b inB stems same
  obtain ⟨-, -, -, i, identA⟩ := permits_of_allocated sound_empty faithful_empty inA
  obtain ⟨-, -, -, j, identB⟩ := permits_of_allocated sound_empty faithful_empty inB
  rw [identA, identB] at same
  exact stems (Allocator.stem_eq_of_identAt_eq (plain a inA) (plain b inB) same)

theorem nodup_texts {allocations : List Allocation}
    (nodup : (allocations.map Allocation.ident).Nodup) :
    (allocations.map (·.ident.text)).Nodup := by
  have texts : allocations.map (·.ident.text) =
      (allocations.map Allocation.ident).map Ident.text := List.map_map.symm
  rw [texts]
  exact nodup.map fun _ _ same => congrArg Ident.mk same

/-- **Collisions.** Take two identifiers that an allocator gives out in the course of a run,
number `i` under one stem and number `j` under the same or another one. If they are not the
same allocation, they have the same text exactly if one stem is the other with digits behind
it, and the decimals differ by these digits. So no text comes twice under one stem, and none
at all if no stem ends in a digit. -/
theorem collisions_of_run (operations : List Operation) (site : Site) :
    (∀ (p q : String) (i j : Nat) (a b : Allocation),
      (allocatedUnder {} site p operations)[i]? = some a →
      (allocatedUnder {} site q operations)[j]? = some b → (p, i) ≠ (q, j) →
      (a.ident.text = b.ident.text ↔ ∃ digits : String, digits ≠ "" ∧
        (∀ c ∈ digits.toList, c.isDigit = true) ∧
        ((q = p ++ digits ∧ toString i = digits ++ toString j) ∨
          (p = q ++ digits ∧ toString j = digits ++ toString i)))) ∧
    (∀ p, ((allocatedUnder {} site p operations).map (·.ident.text)).Nodup) ∧
    ((∀ a ∈ allocated {} site operations, Allocator.endsInDigit a.stem = false) →
      ((allocated {} site operations).map (·.ident.text)).Nodup) := by
  refine ⟨fun p q i j a b first second different => ?_, fun p => ?_, fun plain => ?_⟩
  · have texts : a.ident.text = b.ident.text ↔ identAt p i = identAt q j := by
      rw [ident_of_allocatedUnder first, ident_of_allocatedUnder second]
      exact ⟨congrArg Ident.mk, congrArg Ident.text⟩
    have places : ¬ (p = q ∧ i = j) := fun same => different (Prod.ext same.1 same.2)
    rw [texts, Allocator.identAt_eq_iff, or_iff_right places, Allocator.runsInto_iff,
      Allocator.runsInto_iff, ← exists_or]
    apply exists_congr
    intro digits
    rw [← and_or_left, ← and_or_left]
  · exact nodup_texts (nodup_allocatedUnder operations site p)
  · exact nodup_texts (nodup_allocated plain)

/-- The eleventh name under "a" is the first one under "a1", and the second one is not. -/
theorem collisions_of_run_of_extended_stem :
    let operations : List Operation := .openAllocator {} :: .allocate 0 (.fresh "a1") ::
      List.replicate 11 (.allocate 0 (.fresh "a"))
    (allocatedUnder {} (.alone 0) "a" operations)[10]? = some ⟨"a", ⟨"a10"⟩⟩ ∧
    (allocatedUnder {} (.alone 0) "a" operations)[1]? = some ⟨"a", ⟨"a1"⟩⟩ ∧
    (allocatedUnder {} (.alone 0) "a1" operations)[0]? = some ⟨"a1", ⟨"a10"⟩⟩ ∧
    (∃ digits : String, digits ≠ "" ∧ (∀ c ∈ digits.toList, c.isDigit = true) ∧
      (("a1" = "a" ++ digits ∧ toString 10 = digits ++ toString 0) ∨
        ("a" = "a1" ++ digits ∧ toString 0 = digits ++ toString 10))) ∧
    ¬ ∃ digits : String, digits ≠ "" ∧ (∀ c ∈ digits.toList, c.isDigit = true) ∧
      (("a1" = "a" ++ digits ∧ toString 1 = digits ++ toString 0) ∨
        ("a" = "a1" ++ digits ∧ toString 0 = digits ++ toString 1)) := by
  intro operations
  have eleventh : (allocatedUnder {} (.alone 0) "a" operations)[10]? = some ⟨"a", ⟨"a10"⟩⟩ := by
    decide +kernel
  have second : (allocatedUnder {} (.alone 0) "a" operations)[1]? = some ⟨"a", ⟨"a1"⟩⟩ := by
    decide +kernel
  have other : (allocatedUnder {} (.alone 0) "a1" operations)[0]? = some ⟨"a1", ⟨"a10"⟩⟩ := by
    decide +kernel
  have collide := (collisions_of_run operations (.alone 0)).1
  refine ⟨eleventh, second, other, ?_, ?_⟩
  · exact (collide "a" "a1" 10 0 _ _ eleventh other (by decide)).mp rfl
  · exact fun split =>
      absurd ((collide "a" "a1" 1 0 _ _ second other (by decide)).mpr split) (by decide)

end Session

end NameScope
