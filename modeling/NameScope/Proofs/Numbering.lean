import NameScope.Allocator
import Mathlib.Data.List.Induction

/-!
# Stems with numbers

An identifier is a stem with a decimal behind it and nothing in between, so its text
does not say where the stem ends. Under one stem different numbers give different
identifiers (`Allocator.identAt_inj`). Under two stems the identifiers are the same
exactly if one stem is the other with digits behind it, and the decimals differ by
these digits (`Allocator.identAt_eq_iff`). The one stem then is an identifier of the
other with a positive number (`Allocator.RunsInto.exists_eq`), and all such stems have
an identifier in common (`Allocator.identAt_text_zero`).
-/

namespace NameScope

/-! ## Decimals -/

namespace Decimal

private theorem digitChar_of_isDigit {c : Char} (digit : c.isDigit = true) :
    c.toNat - 48 < 10 ∧ Nat.digitChar (c.toNat - 48) = c := by
  obtain ⟨low, high⟩ : 48 ≤ c.toNat ∧ c.toNat ≤ 57 := Char.isDigit_iff_toNat.mp digit
  have small : c.toNat - 48 < 10 := by omega
  refine ⟨small, Char.toNat_inj.mp ?_⟩
  rw [Nat.toNat_digitChar_of_lt_ten small]
  omega

private theorem head?_append {front : List Char} (occupied : front ≠ []) (rest : List Char) :
    (front ++ rest).head? = front.head? := by
  obtain ⟨first, more, rfl⟩ := List.exists_cons_of_ne_nil occupied
  rfl

theorem toDigits_inj {m n : Nat} : Nat.toDigits 10 m = Nat.toDigits 10 n ↔ m = n := by
  constructor
  · intro same
    have read := congrArg (fun digits => Nat.ofDigitChars 10 digits 0) same
    simpa using read
  · exact congrArg _

/-- The decimal of a positive number begins with another digit than zero. -/
theorem head?_toDigits {n : Nat} (positive : 0 < n) : (Nat.toDigits 10 n).head? ≠ some '0' := by
  induction n using Nat.strongRecOn with
  | _ n ih =>
      rw [Nat.toDigits_eq_if (by decide)]
      split
      · intro zero
        rw [List.head?_singleton, Option.some.injEq, Nat.digitChar_eq_zero] at zero
        omega
      · have shorter := ih (n / 10) (by omega) (by omega)
        rw [head?_append Nat.toDigits_ne_nil]
        exact shorter

/-- Digits that do not begin with zero are the decimal of a positive number. -/
theorem exists_toDigits {digits : List Char} (occupied : digits ≠ [])
    (isDigit : ∀ c ∈ digits, c.isDigit = true) (leading : digits.head? ≠ some '0') :
    ∃ n, 0 < n ∧ Nat.toDigits 10 n = digits := by
  induction digits using List.reverseRecOn with
  | nil => exact absurd rfl occupied
  | append_singleton front last ih =>
      obtain ⟨small, last_eq⟩ := digitChar_of_isDigit (isDigit last (by simp))
      by_cases alone : front = []
      · subst alone
        refine ⟨last.toNat - 48, ?_, ?_⟩
        · by_contra zero
          have none : last.toNat - 48 = 0 := by omega
          rw [none] at last_eq
          exact leading (by rw [← last_eq]; rfl)
        · rw [Nat.toDigits_of_lt_base small, last_eq]
          rfl
      · rw [head?_append alone] at leading
        obtain ⟨n, positive, front_eq⟩ := ih alone
          (fun c held => isDigit c (List.mem_append_left _ held)) leading
        refine ⟨10 * n + (last.toNat - 48), by omega, ?_⟩
        rw [← Nat.toDigits_append_toDigits (by decide) positive small, front_eq,
          Nat.toDigits_of_lt_base small, last_eq]

/-- What stands in front of a decimal to make it another one is the decimal of a
positive number. -/
theorem exists_of_toDigits_append {i j : Nat} {digits : List Char} (occupied : digits ≠ [])
    (split : Nat.toDigits 10 i = digits ++ Nat.toDigits 10 j) :
    ∃ n, 0 < n ∧ Nat.toDigits 10 n = digits := by
  apply exists_toDigits occupied
  · intro c held
    apply Nat.isDigit_of_mem_toDigits (b := 10) (n := i) (by decide) (by decide)
    rw [split]
    exact List.mem_append_left _ held
  · have positive : 0 < i := by
      rcases Nat.eq_zero_or_pos i with rfl | positive
      · -- two digits at least
        have lengths := congrArg List.length split
        have first := List.length_pos_iff.mpr occupied
        have second := List.length_pos_iff.mpr (Nat.toDigits_ne_nil (n := j) (b := 10))
        simp only [Nat.toDigits_zero, List.length_singleton, List.length_append] at lengths
        omega
      · exact positive
    have leading := head?_toDigits positive
    rw [split, head?_append occupied] at leading
    exact leading

end Decimal

/-! ## Identifiers -/

namespace Allocator

theorem toList_identAt (stem : String) (index : Nat) :
    (identAt stem index).text.toList = stem.toList ++ Nat.toDigits 10 index := by
  unfold identAt
  rw [String.toList_append, Nat.toString_eq_repr, Nat.toList_repr]

private theorem identAt_eq_iff_toList {p q : String} {i j : Nat} :
    identAt p i = identAt q j ↔
      p.toList ++ Nat.toDigits 10 i = q.toList ++ Nat.toDigits 10 j := by
  rw [← toList_identAt, ← toList_identAt, String.toList_inj]
  constructor
  · exact congrArg Ident.text
  · exact congrArg Ident.mk

/-- Under one stem each number has an identifier of its own. -/
theorem identAt_inj {stem : String} {i j : Nat} : identAt stem i = identAt stem j ↔ i = j := by
  rw [identAt_eq_iff_toList, List.append_cancel_left_eq, Decimal.toDigits_inj]

/-- Of identifiers that are numbered from 0 on, each bears the number of its place. -/
theorem eq_identAt_of_getElem? {stem : String} {count place : Nat} {ident : Ident}
    (here : ((List.range' 0 count).map (identAt stem))[place]? = some ident) :
    ident = identAt stem place := by
  rw [List.getElem?_map, Option.map_eq_some_iff] at here
  obtain ⟨index, inRange, rfl⟩ := here
  obtain ⟨inside, rfl⟩ := List.getElem?_eq_some_iff.mp inRange
  rw [List.getElem_range', Nat.zero_add, Nat.one_mul]

/-- One stem with digits behind it is the other, and the digits make up for it in the
decimals. -/
def RunsInto (p q : String) (i j : Nat) : Prop :=
  ∃ digits : List Char, digits ≠ [] ∧ q.toList = p.toList ++ digits ∧
    Nat.toDigits 10 i = digits ++ Nat.toDigits 10 j

/-- The same, said of texts. -/
theorem runsInto_iff {p q : String} {i j : Nat} :
    RunsInto p q i j ↔ ∃ digits : String, digits ≠ "" ∧
      (∀ c ∈ digits.toList, c.isDigit = true) ∧ q = p ++ digits ∧
      toString i = digits ++ toString j := by
  have decimal : ∀ n : Nat, (toString n).toList = Nat.toDigits 10 n := by
    intro n
    rw [Nat.toString_eq_repr, Nat.toList_repr]
  constructor
  · rintro ⟨digits, occupied, stems, decimals⟩
    refine ⟨String.ofList digits, by simpa using occupied, fun c held => ?_, ?_, ?_⟩
    · rw [String.toList_ofList] at held
      apply Nat.isDigit_of_mem_toDigits (b := 10) (n := i) (by decide) (by decide)
      rw [decimals]
      exact List.mem_append_left _ held
    · apply String.toList_inj.mp
      rw [String.toList_append, String.toList_ofList, stems]
    · apply String.toList_inj.mp
      rw [String.toList_append, String.toList_ofList, decimal, decimal, decimals]
  · rintro ⟨digits, occupied, -, stems, decimals⟩
    refine ⟨digits.toList, by simpa using occupied, ?_, ?_⟩
    · rw [stems, String.toList_append]
    · rw [← decimal, ← decimal, decimals, String.toList_append]

/-- **When identifiers are the same.** -/
theorem identAt_eq_iff {p q : String} {i j : Nat} :
    identAt p i = identAt q j ↔ (p = q ∧ i = j) ∨ RunsInto p q i j ∨ RunsInto q p j i := by
  rw [identAt_eq_iff_toList, List.append_eq_append_iff]
  constructor
  · have same : ∀ {p q : String} {i j : Nat} {digits : List Char},
        q.toList = p.toList ++ digits → Nat.toDigits 10 i = digits ++ Nat.toDigits 10 j →
          (p = q ∧ i = j) ∨ RunsInto p q i j := by
      intro p q i j digits stems decimals
      by_cases none : digits = []
      · subst none
        rw [List.append_nil, String.toList_inj] at stems
        exact .inl ⟨stems.symm, Decimal.toDigits_inj.mp decimals⟩
      · exact .inr ⟨digits, none, stems, decimals⟩
    rintro (⟨digits, stems, decimals⟩ | ⟨digits, stems, decimals⟩)
    · rcases same stems decimals with both | runs
      · exact .inl both
      · exact .inr (.inl runs)
    · rcases same stems decimals with ⟨rfl, rfl⟩ | runs
      · exact .inl ⟨rfl, rfl⟩
      · exact .inr (.inr runs)
  · rintro (⟨rfl, rfl⟩ | ⟨digits, -, stems, decimals⟩ | ⟨digits, -, stems, decimals⟩)
    · exact .inl ⟨[], (List.append_nil _).symm, rfl⟩
    · exact .inl ⟨digits, stems, decimals⟩
    · exact .inr ⟨digits, stems, decimals⟩

/-- A stem that another one runs into is an identifier of that one. -/
theorem RunsInto.exists_eq {p q : String} {i j : Nat} (runs : RunsInto p q i j) :
    ∃ n, 0 < n ∧ q = (identAt p n).text := by
  obtain ⟨digits, occupied, stems, decimals⟩ := runs
  obtain ⟨n, positive, rfl⟩ := Decimal.exists_of_toDigits_append occupied decimals
  refine ⟨n, positive, String.toList_inj.mp ?_⟩
  rw [stems, toList_identAt]

/-- Whether the stem ends in a decimal digit. -/
def endsInDigit (stem : String) : Bool := stem.toList.getLast?.any Char.isDigit

/-- A stem that another one runs into ends in a digit. -/
theorem RunsInto.endsInDigit {p q : String} {i j : Nat} (runs : RunsInto p q i j) :
    endsInDigit q = true := by
  obtain ⟨digits, occupied, stems, decimals⟩ := runs
  have last : q.toList.getLast? = some (digits.getLast occupied) := by
    rw [stems, List.getLast?_append, List.getLast?_eq_some_getLast occupied]
    rfl
  have among : digits.getLast occupied ∈ Nat.toDigits 10 i := by
    rw [decimals]
    exact List.mem_append_left _ (List.getLast_mem occupied)
  unfold Allocator.endsInDigit
  rw [last]
  exact Nat.isDigit_of_mem_toDigits (by decide) (by decide) among

/-- Of two stems that do not end in digits, the identifiers are different if the stems are. -/
theorem stem_eq_of_identAt_eq {p q : String} {i j : Nat} (plain : endsInDigit p = false)
    (plain' : endsInDigit q = false) (same : identAt p i = identAt q j) : p = q := by
  rcases identAt_eq_iff.mp same with ⟨stems, -⟩ | runs | runs
  · exact stems
  · exact absurd runs.endsInDigit (by simp [plain'])
  · exact absurd runs.endsInDigit (by simp [plain])

/-- The first identifier under a stem that is an identifier itself. -/
theorem identAt_text_zero (p : String) {n : Nat} (positive : 0 < n) :
    identAt (identAt p n).text 0 = identAt p (10 * n) := by
  rw [identAt_eq_iff_toList, toList_identAt, List.append_assoc,
    Nat.toDigits_append_toDigits (by decide) positive (by decide), Nat.add_zero]

end Allocator

end NameScope
