import Mathlib.Data.List.Pairwise
import NameScope.Proofs.Allocation
import NameScope.Proofs.Emission
import NameScope.Proofs.Grouping
import NameScope.Proofs.Outcome
import NameScope.Proofs.Spelling

/-!
# Who gave out a name

`Session.givenOut` lists the names that a registry gives out under a stem in the course
of a run. They are numbered one after the other (`Session.idents_givenOut`), by a counter
that the registry shares with none. A registry that binds names of others may therefore
hold two names of one stem with the same text; `Session.same_text_iff` tells which, and
what this means for the blocks that declare all names of the registry.
-/

namespace NameScope

/-- The registry that an operation may have a new name from. -/
def Operation.registry? : Operation → Option Nat
  | .newName number _ => some number
  | .registerNew number _ _ => some number
  | _ => none

namespace Session

/-- The number that the next name of a registry under a stem gets. -/
def next (session : Session) (number : Nat) (stem : String) : Nat :=
  (session.registries[number]?.map (·.allocator.next stem)).getD 0

/-- The names that a registry gives out under a stem in one operation. -/
def gains (session : Session) (number : Nat) (stem : String) (operation : Operation) :
    List Handle :=
  if operation.registry? = some number then
    ((session.perform operation).2.ledger.handles.drop session.ledger.handles.length).filter
      (·.stem = stem)
  else []

/-- The names that a registry gives out under a stem in the course of operations,
oldest first. -/
def givenOut (session : Session) (number : Nat) (stem : String) : List Operation → List Handle
  | [] => []
  | operation :: rest =>
    session.gains number stem operation ++ (session.perform operation).2.givenOut number stem rest

/-- Two names among these stand at the same place of what two registries gave out under
one stem. -/
def Crosses (operations : List Operation) (handles : List Handle) : Prop :=
  ∃ a ∈ handles, ∃ b ∈ handles, ∃ first second place : Nat, a.stem = b.stem ∧ first ≠ second ∧
    (givenOut {} first a.stem operations)[place]? = some a ∧
    (givenOut {} second a.stem operations)[place]? = some b

variable {session : Session} {operation : Operation} {number : Nat} {stem : String}
  {handle : Handle}

/-! ## One operation -/

theorem next_of_some {registry : Registry} (here : session.registries[number]? = some registry)
    (stem : String) : session.next number stem = registry.allocator.next stem := by
  unfold next
  rw [here]
  rfl

theorem next_put {registry : Registry} (here : session.registries[number]? = some registry)
    (desk : Desk) (other : Nat) (stem : String) :
    (session.put number desk).next other stem =
      if other = number then desk.registry.allocator.next stem else session.next other stem := by
  unfold next
  rw [getElem?_put here]
  split <;> rfl

/-- A registry that has just been opened begins to count at 0. -/
theorem next_opened (scope : Scope) (table : Nat) (style : Style) (stem : String) :
    next { session with
      registries := session.registries ++ [{ allocator := { scope }, table, style }] }
      number stem = session.next number stem := by
  unfold next
  rw [getElem?_opened]
  split
  · rename_i new
    rw [new, List.getElem?_eq_none (Nat.le_refl _)]
    rfl
  · rfl

/-- What an operation does to the names given out and to the counters. -/
inductive Growth (session : Session) (operation : Operation) (later : Session) : Prop
  | none : later.ledger.handles = session.ledger.handles →
      (∀ number stem, later.next number stem = session.next number stem) →
      Growth session operation later
  | one {number : Nat} {registry : Registry} {stem : String} :
      operation.registry? = some number →
      session.registries[number]? = some registry →
      later.ledger.handles = session.ledger.handles ++ [(session.desk registry).nextHandle stem] →
      (∀ other question, later.next other question =
        if other = number ∧ question = stem then session.next number stem + 1
        else session.next other question) →
      Growth session operation later

/-- A name that is issued moves one counter on. -/
theorem next_put_advance {registry : Registry}
    (here : session.registries[number]? = some registry) (stem : String) {desk : Desk}
    (advanced : desk.registry.allocator = registry.allocator.advance stem) (other : Nat)
    (question : String) :
    (session.put number desk).next other question =
      if other = number ∧ question = stem then session.next number stem + 1
      else session.next other question := by
  rw [next_put here, advanced, Allocator.next_advance, ← next_of_some here, ← next_of_some here]
  by_cases ours : other = number
  · subst ours
    simp only [if_true, true_and]
  · simp only [ours, if_false, false_and]

theorem registry?_of_submission {value : Value}
    (submitted : session.submission? operation = some ⟨number, .stem stem, value⟩) :
    operation.registry? = some number := by
  cases operation with
  | registerNew number' stem' value' =>
      obtain ⟨rfl, -, -⟩ := Submission.mk.inj (Option.some.inj submitted)
      rfl
  | registerName number' place value' =>
      obtain ⟨other, -, same⟩ := Option.map_eq_some_iff.mp submitted
      exact absurd (Submission.mk.inj same).2.1 (by simp)
  | _ => exact absurd submitted (by simp [submission?])

theorem growth_perform (sound : session.ledger.Sound) (operation : Operation) :
    Growth session operation (session.perform operation).2 := by
  have cases := perform_cases sound operation
  generalize (session.perform operation).1 = outcome at cases
  generalize (session.perform operation).2 = later at cases ⊢
  cases cases with
  | aside allocators tables nameless => exact .none rfl fun _ _ => rfl
  | opened scope table style => exact .none rfl fun _ stem => next_opened scope table style stem
  | found submitted here present known => exact .none rfl fun _ _ => rfl
  | issued isNew here admitted =>
      exact .one (isNew ▸ rfl) here rfl (next_put_advance here _ rfl)
  | fresh submitted here present vacant admitted =>
      exact .one (registry?_of_submission submitted) here rfl (next_put_advance here _ rfl)
  | named submitted here present vacant unbound =>
      -- the name comes from elsewhere, and no counter moves
      refine .none rfl fun other question => ?_
      rw [next_put here]
      split
      · rename_i ours
        rw [ours, next_of_some here]
        rfl
      · rfl

theorem gains_of_same
    (same : (session.perform operation).2.ledger.handles = session.ledger.handles)
    (number : Nat) (stem : String) : session.gains number stem operation = [] := by
  unfold gains
  rw [same, List.drop_length, List.filter_nil, ite_self]

/-- A name that is added is gained by the registry that it comes from, under its stem. -/
theorem gains_of_grown (issuer : operation.registry? = some number)
    (grown : (session.perform operation).2.ledger.handles = session.ledger.handles ++ [handle])
    (other : Nat) (stem : String) :
    session.gains other stem operation =
      if other = number ∧ stem = handle.stem then [handle] else [] := by
  unfold gains
  rw [issuer, grown, List.drop_left]
  by_cases ours : other = number
  · subst ours
    by_cases stems : stem = handle.stem
    · rw [if_pos rfl, if_pos ⟨rfl, stems⟩]
      exact List.filter_cons_of_pos (by simp [stems])
    · rw [if_pos rfl, if_neg fun both => stems both.2]
      exact List.filter_cons_of_neg (by simpa using Ne.symm stems)
  · rw [if_neg fun same => ours (Option.some.inj same).symm, if_neg fun both => ours both.1]

/-- **One operation** gives out names with consecutive numbers. -/
theorem idents_gains (sound : session.ledger.Sound) (number : Nat) (stem : String)
    (operation : Operation) :
    (session.gains number stem operation).map Handle.ident =
      (List.range' (session.next number stem) (session.gains number stem operation).length).map
        (Allocator.identAt stem) ∧
    (session.perform operation).2.next number stem =
      session.next number stem + (session.gains number stem operation).length := by
  cases growth_perform sound operation with
  | none same counters =>
      rw [gains_of_same same, counters]
      exact ⟨rfl, rfl⟩
  | @one source registry issued issuer here grown counters =>
      have gained := gains_of_grown issuer grown number stem
      by_cases ours : number = source ∧ stem = issued
      · rw [gained.trans (if_pos ours), counters, if_pos ours, ours.1, ours.2, next_of_some here]
        exact ⟨rfl, rfl⟩
      · rw [gained.trans (if_neg ours), counters, if_neg ours]
        exact ⟨rfl, rfl⟩

theorem of_mem_gains (held : handle ∈ session.gains number stem operation) :
    handle.stem = stem ∧ operation.registry? = some number := by
  unfold gains at held
  split at held
  · rename_i ours
    exact ⟨by simpa using (List.mem_filter.mp held).2, ours⟩
  · exact absurd held List.not_mem_nil

/-- A name is among the given ones after an operation if it was before, or if some
registry gains it. -/
theorem mem_handles_perform (sound : session.ledger.Sound) (operation : Operation) :
    handle ∈ (session.perform operation).2.ledger.handles ↔
      handle ∈ session.ledger.handles ∨
        ∃ number, handle ∈ session.gains number handle.stem operation := by
  cases growth_perform sound operation with
  | none same counters =>
      rw [same]
      simp [gains_of_same same]
  | @one source registry issued issuer here grown counters =>
      rw [grown, List.mem_append, List.mem_singleton]
      apply or_congr_right
      constructor
      · rintro rfl
        refine ⟨source, ?_⟩
        rw [gains_of_grown issuer grown, if_pos ⟨rfl, rfl⟩]
        exact List.mem_singleton_self _
      · rintro ⟨other, gained⟩
        rw [gains_of_grown issuer grown] at gained
        split at gained
        · exact List.mem_singleton.mp gained
        · exact absurd gained List.not_mem_nil

/-- A name that is gained has a number that no name had before. -/
theorem id_of_mem_gains (sound : session.ledger.Sound)
    (held : handle ∈ session.gains number stem operation) :
    session.ledger.handles.length ≤ handle.id := by
  cases growth_perform sound operation with
  | none same counters =>
      rw [gains_of_same same] at held
      exact absurd held List.not_mem_nil
  | one issuer here grown counters =>
      rw [gains_of_grown issuer grown] at held
      split at held
      · rw [List.mem_singleton.mp held]
        exact Nat.le_refl _
      · exact absurd held List.not_mem_nil

/-! ## Runs -/

/-- **Consecutive numbers.** A registry numbers the names that it gives out under a stem
one after the other. -/
theorem idents_givenOut (sound : session.ledger.Sound) (number : Nat) (stem : String)
    (operations : List Operation) :
    (session.givenOut number stem operations).map Handle.ident =
      (List.range' (session.next number stem)
        (session.givenOut number stem operations).length).map (Allocator.identAt stem) := by
  induction operations generalizing session with
  | nil => rfl
  | cons operation rest ih =>
      obtain ⟨first, counter⟩ := idents_gains sound number stem operation
      have later := ih (sound_of_changes (perform_changes sound operation) sound)
      rw [givenOut, List.map_append, first, later, counter, List.length_append, ← List.map_append,
        List.range'_append_1]

/-- The name at a place bears the number of the place. -/
theorem ident_of_givenOut {operations : List Operation} {place : Nat}
    (there : (givenOut {} number stem operations)[place]? = some handle) :
    handle.ident = Allocator.identAt stem place := by
  have listed : ((givenOut {} number stem operations).map Handle.ident)[place]? =
      some handle.ident := by
    rw [List.getElem?_map, there]
    rfl
  rw [idents_givenOut sound_empty] at listed
  exact Allocator.eq_identAt_of_getElem? listed

/-- The names after a run are those of before and those that some registry gave out. -/
theorem mem_handles_run (sound : session.ledger.Sound) (operations : List Operation) :
    handle ∈ (session.run operations).2.ledger.handles ↔
      handle ∈ session.ledger.handles ∨
        ∃ number, handle ∈ session.givenOut number handle.stem operations := by
  induction operations generalizing session with
  | nil => simp [run, givenOut]
  | cons operation rest ih =>
      have later := sound_of_changes (perform_changes sound operation) sound
      show handle ∈ (Session.run (session.perform operation).2 rest).2.ledger.handles ↔ _
      rw [ih later, mem_handles_perform sound, or_assoc, ← exists_or]
      simp only [givenOut, List.mem_append]

theorem id_of_givenOut (sound : session.ledger.Sound) {operations : List Operation}
    (held : handle ∈ session.givenOut number stem operations) :
    session.ledger.handles.length ≤ handle.id := by
  induction operations generalizing session with
  | nil => exact absurd held List.not_mem_nil
  | cons operation rest ih =>
      rcases List.mem_append.mp held with first | later
      · exact id_of_mem_gains sound first
      · have grown := ih (sound_of_changes (perform_changes sound operation) sound) later
        cases growth_perform sound operation with
        | none same counters => exact same ▸ grown
        | one issuer here more counters =>
            rw [more, List.length_append] at grown
            omega

/-- A name is given out by one registry. -/
theorem registry_of_givenOut (sound : session.ledger.Sound) {operations : List Operation}
    {first second : Nat} (held : handle ∈ session.givenOut first stem operations)
    (held' : handle ∈ session.givenOut second stem operations) : first = second := by
  induction operations generalizing session with
  | nil => exact absurd held List.not_mem_nil
  | cons operation rest ih =>
      have later := sound_of_changes (perform_changes sound operation) sound
      -- what is gained now has a number below those that are given out later
      have apart : ∀ {m n : Nat}, handle ∈ session.gains m stem operation →
          handle ∉ (session.perform operation).2.givenOut n stem rest := by
        intro m n now late
        have among := (mem_handles_perform sound operation).mpr
          (.inr ⟨m, (of_mem_gains now).1.symm ▸ now⟩)
        exact absurd (id_of_givenOut later late) (Nat.not_le.mpr (later.id_lt among))
      rcases List.mem_append.mp held with now | late
      · rcases List.mem_append.mp held' with now' | late'
        · exact Option.some.inj ((of_mem_gains now).2.symm.trans (of_mem_gains now').2)
        · exact absurd late' (apart now)
      · rcases List.mem_append.mp held' with now' | late'
        · exact absurd late (apart now')
        · exact ih later late late'

/-! ## The names of a registry -/

/-- Everything that a registry holds was given out in the run. -/
theorem mem_givenOut_of_held {operations : List Operation} {registry : Registry}
    (among : registry ∈ (run {} operations).2.registries) (held : handle ∈ registry.handles) :
    ∃ (number place : Nat), (givenOut {} number handle.stem operations)[place]? = some handle := by
  obtain ⟨binding, bound⟩ := (grouped_run operations registry among).bound held
  have given := (sound_run operations).issued handle binding bound
  rcases (mem_handles_run sound_empty operations).mp given with none | ⟨number, here⟩
  · exact absurd none List.not_mem_nil
  · exact ⟨number, List.getElem?_of_mem here⟩

/-- **Two names of one stem.** They are different and have the same text exactly if they
come from two registries, at the same place. -/
theorem text_eq_iff {operations : List Operation} {registry : Registry}
    (among : registry ∈ (run {} operations).2.registries) {a b : Handle}
    (heldA : a ∈ registry.handles) (heldB : b ∈ registry.handles) (stems : a.stem = b.stem) :
    (a ≠ b ∧ a.text = b.text) ↔ ∃ first second place : Nat, first ≠ second ∧
      (givenOut {} first a.stem operations)[place]? = some a ∧
      (givenOut {} second a.stem operations)[place]? = some b := by
  constructor
  · rintro ⟨unequal, texts⟩
    obtain ⟨first, i, hereA⟩ := mem_givenOut_of_held among heldA
    obtain ⟨second, j, hereB⟩ := mem_givenOut_of_held among heldB
    rw [← stems] at hereB
    -- under one stem a text tells the number, so both stand at the same place
    have same : Allocator.identAt a.stem i = Allocator.identAt a.stem j := by
      rw [← ident_of_givenOut hereA, ← ident_of_givenOut hereB]
      exact congrArg Ident.mk texts
    obtain rfl : i = j := Allocator.identAt_inj.mp same
    refine ⟨first, second, i, ?_, hereA, hereB⟩
    rintro rfl
    exact unequal (Option.some.inj (hereA.symm.trans hereB))
  · rintro ⟨first, second, place, apart, hereA, hereB⟩
    refine ⟨?_, ?_⟩
    · rintro rfl
      exact apart (registry_of_givenOut sound_empty (List.mem_of_getElem? hereA)
        (List.mem_of_getElem? hereB))
    · show a.ident.text = b.ident.text
      rw [ident_of_givenOut hereA, ident_of_givenOut hereB]

/-- Names that the registry gave out itself do not cross. -/
theorem not_crosses_of_own {operations : List Operation} {handles : List Handle}
    (own : ∀ handle ∈ handles, handle ∈ givenOut {} number handle.stem operations) :
    ¬ Crosses operations handles := by
  rintro ⟨a, inA, b, inB, first, second, place, stems, apart, hereA, hereB⟩
  have fromA := registry_of_givenOut sound_empty (List.mem_of_getElem? hereA) (own a inA)
  have fromB := registry_of_givenOut sound_empty (List.mem_of_getElem? hereB) (stems ▸ own b inB)
  exact apart (fromA.trans fromB.symm)

end Session

/-! ## Blocks -/

/-- No two of the pieces declare the same identifier under one stem. -/
def Piece.Distinct (pieces : List Piece) : Prop :=
  (pieces.map Piece.name).Pairwise fun a b => a.stem = b.stem → a.ident ≠ b.ident

namespace Emission

variable {σ : Type} {ledger : Ledger} {style : Style}

/-- Reads of slots declare all names, in order. -/
theorem slotReads_of_bound (style : Style) (store : Ident) {selection : Selection}
    (bound : ∀ handle ∈ selection.toList, ∃ binding, ledger.binding? handle = some binding) :
    ∃ pieces, slotReads ledger style store selection = .ok (style.spellBlock pieces) ∧
      pieces.map Piece.name = selection.toList ∧
      ∀ piece ∈ pieces, ∃ slot, piece.code = style.spellRead piece.name.ident store slot := by
  obtain ⟨pieces, read, names, reads⟩ :=
    (slotReads_spec ledger style store selection).2 (firstUnbound?_eq_none bound)
  refine ⟨pieces, read, names, fun piece held => ?_⟩
  obtain ⟨binding, -, code⟩ := reads piece held
  exact ⟨binding.slot, code⟩

/-- An emission declares names in order, each with its own code if there is one. -/
theorem names_of_run_pieces {supply : Supplier σ} {handles : List Handle}
    {before after : Emitting σ} {emitted : List Piece}
    (run : (pieces ledger style supply handles).run before = .ok emitted after) :
    (emitted.map Piece.name).Sublist handles ∧
      ∀ piece ∈ emitted, ∀ code, ledger.spelled? style piece.name = some code →
        piece.code = code :=
  ⟨(lists_of_run_pieces run).sublist, (lists_of_run_pieces run).spelled⟩

end Emission

namespace Session

/-- The names of one registry have different identifiers under every stem unless two
cross. -/
theorem pairwise_iff {operations : List Operation} {registry : Registry}
    (among : registry ∈ (run {} operations).2.registries) :
    (registry.handles.Pairwise fun a b => a.stem = b.stem → a.ident ≠ b.ident) ↔
      ¬ Crosses operations registry.handles := by
  have grouped := grouped_run operations registry among
  have nodup : registry.handles.Nodup :=
    grouped.toList_selection ▸ registry.selection.nodup_toList
  constructor
  · rintro apart ⟨a, inA, b, inB, first, second, place, stems, sources, hereA, hereB⟩
    obtain ⟨unequal, texts⟩ := (text_eq_iff among inA inB stems).mpr
      ⟨first, second, place, sources, hereA, hereB⟩
    have symmetric : Std.Symm fun a b : Handle => a.stem = b.stem → a.ident ≠ b.ident :=
      ⟨fun _ _ differ stems same => differ stems.symm same.symm⟩
    exact apart.forall inA inB unequal stems (congrArg Ident.mk texts)
  · intro uncrossed
    -- the names are different to begin with, so equal texts would be a crossing
    apply nodup.imp_of_mem
    intro a b inA inB unequal stems same
    obtain ⟨first, second, place, sources, hereA, hereB⟩ :=
      (text_eq_iff among inA inB stems).mp ⟨unequal, congrArg Ident.text same⟩
    exact uncrossed ⟨a, inA, b, inB, first, second, place, stems, sources, hereA, hereB⟩

/-- **Identifiers within a stem.** After any run, take two names that a registry holds
under one stem. They are different and have the same text exactly if two registries gave
them out, both at the same place; so this does not happen among names that the registry
gave out itself. A block that reads the slots of all names of the registry declares no
identifier twice under a stem exactly if no two names cross in this way, and if none do,
a block of declarations does not either, whatever its supplier and wherever it starts. -/
theorem distinct_within_stem_iff (operations : List Operation) (number : Nat)
    (registry : Registry) (here : (run {} operations).2.registries[number]? = some registry) :
    let ledger := (run {} operations).2.ledger
    (∀ a ∈ registry.handles, ∀ b ∈ registry.handles, a.stem = b.stem →
      ((a ≠ b ∧ a.text = b.text) ↔ ∃ first second place : Nat, first ≠ second ∧
        (givenOut {} first a.stem operations)[place]? = some a ∧
        (givenOut {} second a.stem operations)[place]? = some b)) ∧
    ((∀ handle ∈ registry.handles, handle ∈ givenOut {} number handle.stem operations) →
      ¬ Crosses operations registry.handles) ∧
    (∀ style store, ∃ pieces,
      Emission.slotReads ledger style store registry.selection =
        .ok (style.spellBlock pieces) ∧
      pieces.map Piece.name = registry.selection.toList ∧
      (∀ piece ∈ pieces, ∃ slot, piece.code = style.spellRead piece.name.ident store slot) ∧
      (Piece.Distinct pieces ↔ ¬ Crosses operations registry.handles)) ∧
    ∀ (σ : Type) (style : Style) (supply : Supplier σ) (before after : Emitting σ)
      (block : Fragment),
      (Emission.declarations ledger style supply registry.selection).run before =
        .ok block after →
      ∃ pieces, block = style.spellBlock pieces ∧
        (pieces.map Piece.name).Sublist registry.selection.toList ∧
        (∀ piece ∈ pieces, ∀ code, ledger.spelled? style piece.name = some code →
          piece.code = code) ∧
        (¬ Crosses operations registry.handles → Piece.Distinct pieces) := by
  intro ledger
  have among := List.mem_of_getElem? here
  have grouped : registry.Grouped ledger := grouped_run operations registry among
  have bound : ∀ handle ∈ registry.selection.toList,
      ∃ binding, ledger.binding? handle = some binding := by
    rw [grouped.toList_selection]
    exact fun handle held => grouped.bound held
  refine ⟨fun a inA b inB stems => text_eq_iff among inA inB stems, not_crosses_of_own, ?_, ?_⟩
  · intro style store
    obtain ⟨pieces, read, names, declares⟩ := Emission.slotReads_of_bound style store bound
    refine ⟨pieces, read, names, declares, ?_⟩
    unfold Piece.Distinct
    rw [names, grouped.toList_selection]
    exact pairwise_iff among
  · intro σ style supply before after block run
    obtain ⟨pieces, emitted, made⟩ := Emission.pieces_of_run_declarations run
    obtain ⟨names, codes⟩ := Emission.names_of_run_pieces emitted
    refine ⟨pieces, made, names, codes, fun uncrossed => ?_⟩
    have apart := (pairwise_iff among).mpr uncrossed
    rw [← grouped.toList_selection] at apart
    exact apart.sublist names

/-- The second registry holds the other one's second name and its own first one. -/
theorem distinct_within_stem_of_different_places :
    let value (id : Nat) : Value := .inline (some ⟨id, .unit⟩)
    let operations : List Operation := [.openRegistry 0 {} {}, .openRegistry 1 {} {},
      .newName 0 "p", .newName 0 "p", .registerName 1 1 (value 0), .registerNew 1 "p" (value 1)]
    let session := (run {} operations).2
    ∃ registry pieces, session.registries[1]? = some registry ∧
      registry.handles.map Handle.text = ["p1", "p0"] ∧
      ¬ Crosses operations registry.handles ∧
      Emission.slotReads session.ledger {} ⟨"s"⟩ registry.selection =
        .ok (Style.spellBlock {} pieces) ∧
      (Style.spellBlock {} pieces).render = "const p1 = s.p[0];const p0 = s.p[1];" ∧
      pieces.map Piece.name = registry.handles ∧ Piece.Distinct pieces := by
  intro value operations session
  let registry : Registry := session.registries[1]?.getD default
  have opened : session.registries[1]? = some registry := by decide +kernel
  obtain ⟨-, -, reads, -⟩ := distinct_within_stem_iff operations 1 registry opened
  obtain ⟨pieces, read, names, -, distinct⟩ := reads {} ⟨"s"⟩
  have rendered : (Emission.slotReads session.ledger {} ⟨"s"⟩ registry.selection).map
      Fragment.render = .ok "const p1 = s.p[0];const p0 = s.p[1];" := by
    decide +kernel
  rw [read] at rendered
  have listed : registry.selection.toList = registry.handles := by decide +kernel
  have apart : Piece.Distinct pieces := by
    unfold Piece.Distinct
    rw [names]
    decide +kernel
  exact ⟨registry, pieces, opened, by decide +kernel, distinct.mp apart, read,
    Except.ok.inj rendered, names.trans listed, apart⟩

/-- The second registry holds the first name of each under one stem, and declares their
common text twice. -/
theorem declared_twice_within_stem :
    let value (id : Nat) (code : String) : Value :=
      (Value.inline (some ⟨id, .unit⟩)).withCode (.text code)
    let operations : List Operation := [.openRegistry 0 {} {}, .openRegistry 1 {} {},
      .newName 0 "p", .registerNew 1 "p" (value 0 "1"), .registerName 1 0 (value 1 "2")]
    let session := (run {} operations).2
    ∃ registry, session.registries[1]? = some registry ∧
      registry.handles = [⟨1, ⟨"p0"⟩, "p"⟩, ⟨0, ⟨"p0"⟩, "p"⟩] ∧
      (∃ block after, (Emission.declarations session.ledger registry.style .none
          registry.selection).run { state := () } = .ok block after ∧
        block.render = "const p0 = 1;const p0 = 2;") ∧
      ∃ block, Emission.slotReads session.ledger registry.style ⟨"s"⟩ registry.selection =
          .ok block ∧
        block.render = "const p0 = s.p[0];const p0 = s.p[1];" := by
  intro value operations session
  let registry : Registry := session.registries[1]?.getD default
  have declared : Emission.rendered? ((Emission.declarations session.ledger registry.style .none
      registry.selection).run { state := () }) = some "const p0 = 1;const p0 = 2;" := by
    decide +kernel
  have read : (match Emission.slotReads session.ledger registry.style ⟨"s"⟩
      registry.selection with
    | .ok block => block.render
    | .error _ => "") = "const p0 = s.p[0];const p0 = s.p[1];" := by decide +kernel
  refine ⟨registry, by decide +kernel, by decide +kernel, Emission.ok_of_rendered? declared, ?_⟩
  split at read
  · rename_i block run
    exact ⟨block, run, read⟩
  · exact absurd read (by decide)

end Session

end NameScope
