import Mathlib.Data.Set.Insert
import NameScope.Proofs.OrderedMap
import NameScope.Supply.Recipe

/-!
# Emission, step by step

What a tracker answers after a name has been started or completed, and one
equation for each step of an emission: `code_of_unbound`, `code_of_ready` and
`code_of_missing` for the three ways in which the code of a name comes about,
`run_piece?_of_tracked` and `run_piece?_of_untracked` for a name, and `pieces_cons`
for names. Later proofs cite these and do not open the computations.

`ok_code_cases` and `failed_code_cases` tell where the code of a name, or its fault, comes
from. `Lists` tells how an emission that ends well goes over its names, for proofs by induction.
-/

namespace NameScope

namespace Tracker

variable {tracker : Tracker} {handle other : Handle}

/-- The names that are tracked. -/
def known (tracker : Tracker) : Set Handle := {handle | tracker.progress? handle ≠ none}

theorem tracks_iff : tracker.tracks handle = true ↔ tracker.progress? handle ≠ none := by
  unfold tracks
  rw [Option.isSome_iff_ne_none]

theorem tracks_eq_false_iff : tracker.tracks handle = false ↔ tracker.progress? handle = none := by
  unfold tracks
  rw [Option.isSome_eq_false_iff, Option.isNone_iff_eq_none]

theorem progress?_ne_none_iff : tracker.progress? handle ≠ none ↔ handle ∈ tracker.states.keys := by
  rw [OrderedMap.mem_keys_iff, ← Option.isSome_iff_ne_none, Option.isSome_iff_exists]
  rfl

theorem progress?_start (handle other : Handle) :
    (tracker.start handle).progress? other =
      if other = handle then some ((tracker.progress? handle).getD .started)
      else tracker.progress? other :=
  OrderedMap.get?_update tracker.states handle _ other

/-- Only a name that has been started can be completed. -/
theorem progress?_complete (tracked : tracker.tracks handle = true) (other : Handle) :
    (tracker.complete handle).progress? other =
      if other = handle then some .completed else tracker.progress? other := by
  unfold complete
  rw [if_pos tracked]
  exact OrderedMap.get?_insert tracker.states handle .completed other

theorem size_start (untracked : tracker.progress? handle = none) :
    (tracker.start handle).size = tracker.size + 1 := by
  have absent : handle ∉ tracker.states.keys := fun held =>
    progress?_ne_none_iff.mpr held untracked
  unfold start size
  rw [OrderedMap.keys_update, if_neg absent, List.length_append]
  rfl

/-- Completing a name tracks none that was not tracked before. -/
theorem keys_complete (tracker : Tracker) (handle : Handle) :
    (tracker.complete handle).states.keys = tracker.states.keys := by
  unfold complete
  split
  · rename_i tracked
    obtain ⟨progress, known⟩ := Option.isSome_iff_exists.mp tracked
    show (tracker.states.update handle fun _ => .completed).keys = _
    rw [OrderedMap.keys_update, if_pos (OrderedMap.mem_keys_iff.mpr ⟨progress, known⟩)]
  · rfl

/-- The size of a tracker is the number of the names it tracks. -/
theorem size_eq_length {handles : List Handle} (nodup : handles.Nodup)
    (same : ∀ handle, handle ∈ handles ↔ tracker.tracks handle = true) :
    tracker.size = handles.length := by
  refine List.Perm.length_eq ?_
  refine (List.perm_ext_iff_of_nodup tracker.states.nodup_keys nodup).mpr (fun handle => ?_)
  rw [same, tracks_iff]
  exact progress?_ne_none_iff.symm

end Tracker

namespace Emitting

variable {σ : Type}

/-- A name that was not tracked is started. -/
def begin (st : Emitting σ) (handle : Handle) : Emitting σ :=
  { st with tracker := st.tracker.start handle }

/-- A name is completed and put into the journal. -/
def finish (st : Emitting σ) (handle : Handle) : Emitting σ :=
  { st with tracker := st.tracker.complete handle, journal := st.journal ++ [handle] }

/-- The names that are tracked. -/
def known (st : Emitting σ) : Set Handle := st.tracker.known

variable {st : Emitting σ} {handle other : Handle}

theorem progress?_begin (untracked : st.tracker.progress? handle = none) (other : Handle) :
    (st.begin handle).tracker.progress? other =
      if other = handle then some .started else st.tracker.progress? other := by
  show (st.tracker.start handle).progress? other = _
  rw [Tracker.progress?_start, untracked]
  rfl

theorem progress?_finish (tracked : st.tracker.progress? handle ≠ none) (other : Handle) :
    (st.finish handle).tracker.progress? other =
      if other = handle then some .completed else st.tracker.progress? other :=
  Tracker.progress?_complete (Tracker.tracks_iff.mpr tracked) other

theorem tracked_begin (untracked : st.tracker.progress? handle = none) (other : Handle) :
    (st.begin handle).tracker.progress? other ≠ none ↔
      other = handle ∨ st.tracker.progress? other ≠ none := by
  rw [progress?_begin untracked]
  by_cases same : other = handle
  · simp [same]
  · simp [same]

/-- Completing a tracked name tracks no other. -/
theorem tracked_finish (tracked : st.tracker.progress? handle ≠ none) (other : Handle) :
    (st.finish handle).tracker.progress? other ≠ none ↔ st.tracker.progress? other ≠ none := by
  rw [progress?_finish tracked]
  by_cases same : other = handle
  · simp [same, tracked]
  · rw [if_neg same]

theorem known_begin (untracked : st.tracker.progress? handle = none) :
    (st.begin handle).known = insert handle st.known :=
  Set.ext fun other => tracked_begin untracked other

theorem known_finish (st : Emitting σ) (handle : Handle) : (st.finish handle).known = st.known := by
  ext other
  show (st.tracker.complete handle).progress? other ≠ none ↔ st.tracker.progress? other ≠ none
  rw [Tracker.progress?_ne_none_iff, Tracker.progress?_ne_none_iff, Tracker.keys_complete]

end Emitting

namespace EmitM

variable {σ α : Type}

theorem run_during (handle : Handle) (work : EmitM σ α) (st : Emitting σ) :
    (during handle work).run st = match work.run st with
      | .error (.failed fault handles) st => .error (.failed fault (handle :: handles)) st
      | result => result := rfl

end EmitM

namespace Emission

variable {σ : Type} {ledger : Ledger} {style : Style} {supply : Supplier σ} {handle : Handle}

/-- The code of the declaration of a bound name whose value has all that is needed. -/
def ready? (ledger : Ledger) (style : Style) (handle : Handle) : Option Fragment :=
  match ledger.binding? handle with
  | none => none
  | some binding =>
    match binding.value.origin with
    | .load source => some (style.load handle.ident source)
    | .code code => some (style.declare handle.ident code)
    | .missing _ => none

/-- The code that a supplier gave, or the fault of its having given none. -/
def demand (handle : Handle) (value : Value) : Option Fragment → EmitM σ Fragment
  | some code => pure code
  | none => EmitM.fail (.noCode handle.text value)

theorem code_of_unbound (unbound : ledger.binding? handle = none) :
    code ledger style supply handle = EmitM.fail (.unbound handle.text) := by
  unfold code
  rw [unbound]

theorem code_of_ready {fragment : Fragment} (ready : ready? ledger style handle = some fragment) :
    code ledger style supply handle = pure fragment := by
  unfold ready? at ready
  unfold code
  cases bound : ledger.binding? handle with
  | none => simp [bound] at ready
  | some binding =>
      simp only [bound] at ready ⊢
      cases origin : binding.value.origin with
      | load source =>
          simp only [origin, Option.some.injEq] at ready ⊢
          rw [ready]
      | code code =>
          simp only [origin, Option.some.injEq] at ready ⊢
          rw [ready]
      | missing value => simp [origin] at ready

theorem code_of_missing {binding : Binding} (bound : ledger.binding? handle = some binding)
    (missing : ready? ledger style handle = none) :
    code ledger style supply handle = supply handle >>= demand handle binding.value := by
  have origin : binding.value.origin = .missing binding.value := by
    unfold ready? at missing
    simp only [bound] at missing
    unfold Value.origin at missing ⊢
    cases kind : binding.value.kind with
    | inline code? =>
        cases code? with
        | none => rfl
        | some code => simp [kind] at missing
    | imported source =>
        by_cases usable : source.isUsable
        · simp [kind, usable] at missing
        · simp only [usable, Bool.false_eq_true, if_false]
  unfold code
  simp only [bound, origin]
  rfl

/-- The code of a name comes about because its value has all that is needed, or because its
supplier gives it. -/
theorem ok_code_cases {st after : Emitting σ} {fragment : Fragment}
    (coded : (code ledger style supply handle).run st = .ok fragment after) :
    (ready? ledger style handle = some fragment ∧ after = st) ∨
    (ready? ledger style handle = none ∧
      (∃ binding, ledger.binding? handle = some binding) ∧
      (supply handle).run st = .ok (some fragment) after) := by
  cases ready : ready? ledger style handle with
  | some fragment' =>
      rw [code_of_ready ready] at coded
      cases coded
      exact .inl ⟨rfl, rfl⟩
  | none =>
      cases bound : ledger.binding? handle with
      | none =>
          rw [code_of_unbound bound] at coded
          cases coded
      | some binding =>
          rw [code_of_missing bound ready, EStateM.run_bind] at coded
          cases supplied : (supply handle).run st with
          | error stop middle =>
              rw [supplied] at coded
              cases coded
          | ok code? middle =>
              rw [supplied] at coded
              cases code? with
              | none => cases coded
              | some code =>
                  cases coded
                  exact .inr ⟨rfl, ⟨binding, rfl⟩, rfl⟩

/-- The code of a name fails because the name is not bound, because its supplier declines, or
because its supplier fails. -/
theorem failed_code_cases {st after : Emitting σ} {fault : Fault} {during : List Handle}
    (failed : (code ledger style supply handle).run st = .error (.failed fault during) after) :
    (ledger.binding? handle = none ∧ fault = .unbound handle.text ∧ during = []) ∨
    (∃ binding, ledger.binding? handle = some binding ∧
      (supply handle).run st = .ok none after ∧
      fault = .noCode handle.text binding.value ∧ during = []) ∨
    (supply handle).run st = .error (.failed fault during) after := by
  cases ready : ready? ledger style handle with
  | some fragment =>
      rw [code_of_ready ready] at failed
      cases failed
  | none =>
      cases bound : ledger.binding? handle with
      | none =>
          rw [code_of_unbound bound] at failed
          cases failed
          exact .inl ⟨rfl, rfl, rfl⟩
      | some binding =>
          rw [code_of_missing bound ready, EStateM.run_bind] at failed
          cases supplied : (supply handle).run st with
          | error stop middle =>
              rw [supplied] at failed
              exact .inr (.inr (by simpa using failed))
          | ok code? middle =>
              rw [supplied] at failed
              cases code? with
              | some code => cases failed
              | none =>
                  cases failed
                  exact .inr (.inl ⟨binding, rfl, rfl, rfl, rfl⟩)

theorem run_piece?_of_tracked {st : Emitting σ} (tracked : st.tracker.tracks handle = true) :
    (piece? ledger style supply handle).run st = .ok none st := by
  unfold piece?
  rw [EStateM.run_bind, EStateM.run_get]
  simp only [tracked, if_true]
  rfl

/-- What becomes of a name after its code has been asked for. -/
def settle (handle : Handle) :
    EStateM.Result Stop (Emitting σ) Fragment → EStateM.Result Stop (Emitting σ) (Option Piece)
  | .ok code st => .ok (some ⟨handle, code⟩) (st.finish handle)
  | .error (.failed fault handles) st => .error (.failed fault (handle :: handles)) st
  | .error .endless st => .error .endless st

theorem run_piece?_of_untracked {st : Emitting σ} (untracked : st.tracker.tracks handle = false) :
    (piece? ledger style supply handle).run st =
      settle handle ((code ledger style supply handle).run (st.begin handle)) := by
  unfold piece? EmitM.start EmitM.complete
  rw [EStateM.run_bind, EStateM.run_get]
  simp only [untracked, Bool.false_eq_true, if_false, EStateM.run_bind, EStateM.run_modify]
  rw [EmitM.run_during, Emitting.begin]
  generalize (code ledger style supply handle).run _ = result
  cases result with
  | ok code st => rfl
  | error stop st =>
      cases stop with
      | failed fault handles => rfl
      | endless => rfl

theorem pieces_cons (handle : Handle) (rest : List Handle) :
    pieces ledger style supply (handle :: rest) = (do
      let piece ← piece? ledger style supply handle
      let later ← pieces ledger style supply rest
      return piece.toList ++ later) := rfl

theorem pieces_append (earlier later : List Handle) :
    pieces ledger style supply (earlier ++ later) = (do
      let first ← pieces ledger style supply earlier
      let second ← pieces ledger style supply later
      return first ++ second) := by
  induction earlier with
  | nil => simp [pieces]
  | cons handle rest ih =>
      simp only [List.cons_append, pieces_cons, ih, bind_assoc, pure_bind, List.append_assoc]

/-- A tracked name is passed over. -/
theorem run_pieces_of_tracked {st : Emitting σ} (tracked : st.tracker.tracks handle = true)
    (rest : List Handle) :
    (pieces ledger style supply (handle :: rest)).run st =
      (pieces ledger style supply rest).run st := by
  rw [pieces_cons, EStateM.run_bind, run_piece?_of_tracked tracked]
  simp only [Option.toList_none, List.nil_append, bind_pure]

/-- A name that is not tracked is completed before the names behind it are looked at,
unless its code fails. -/
theorem run_pieces_of_untracked {st : Emitting σ} (untracked : st.tracker.tracks handle = false)
    (rest : List Handle) :
    (pieces ledger style supply (handle :: rest)).run st =
      match (code ledger style supply handle).run (st.begin handle) with
      | .ok fragment middle =>
        match (pieces ledger style supply rest).run (middle.finish handle) with
        | .ok later after => .ok (⟨handle, fragment⟩ :: later) after
        | .error stop after => .error stop after
      | .error (.failed fault during) after => .error (.failed fault (handle :: during)) after
      | .error .endless after => .error .endless after := by
  rw [pieces_cons, EStateM.run_bind, run_piece?_of_untracked untracked]
  match (code ledger style supply handle).run (st.begin handle) with
  | .ok fragment middle =>
      simp only [settle, EStateM.run_bind]
      cases (pieces ledger style supply rest).run (middle.finish handle) with
      | ok later after => rfl
      | error stop after => rfl
  | .error (.failed fault during) after => rfl
  | .error .endless after => rfl

/-- A name whose code comes about is completed before the names behind it. -/
theorem run_pieces_of_coded {st middle after : Emitting σ} {fragment : Fragment}
    {rest : List Handle} {later : List Piece} (untracked : st.tracker.tracks handle = false)
    (coded : (code ledger style supply handle).run (st.begin handle) = .ok fragment middle)
    (emitted : (pieces ledger style supply rest).run (middle.finish handle) = .ok later after) :
    (pieces ledger style supply (handle :: rest)).run st =
      .ok (⟨handle, fragment⟩ :: later) after := by
  rw [run_pieces_of_untracked untracked, coded]
  simp only [emitted]

/-- An emission that ends well and begins with a new name has its code. -/
theorem coded_of_run_pieces {st after : Emitting σ} {rest : List Handle} {emitted : List Piece}
    (untracked : st.tracker.tracks handle = false)
    (run : (pieces ledger style supply (handle :: rest)).run st = .ok emitted after) :
    ∃ fragment middle later,
      (code ledger style supply handle).run (st.begin handle) = .ok fragment middle ∧
      (pieces ledger style supply rest).run (middle.finish handle) = .ok later after ∧
      emitted = ⟨handle, fragment⟩ :: later := by
  rw [run_pieces_of_untracked untracked] at run
  split at run
  · rename_i fragment middle coded
    split at run
    · rename_i later last others
      cases run
      exact ⟨fragment, middle, later, coded, others, rfl⟩
    · cases run
  · cases run
  · cases run

/-- How an emission that ends well goes over names: it skips those that are tracked, and the
code of each other one comes about. -/
inductive Lists (ledger : Ledger) (style : Style) (supply : Supplier σ) :
    List Handle → Emitting σ → List Piece → Emitting σ → Prop
  | nil {st : Emitting σ} : Lists ledger style supply [] st [] st
  | skip {handle : Handle} {rest : List Handle} {st after : Emitting σ} {emitted : List Piece} :
      st.tracker.tracks handle = true → Lists ledger style supply rest st emitted after →
      Lists ledger style supply (handle :: rest) st emitted after
  | emit {handle : Handle} {rest : List Handle} {st middle after : Emitting σ}
      {fragment : Fragment} {later : List Piece} :
      st.tracker.tracks handle = false →
      (code ledger style supply handle).run (st.begin handle) = .ok fragment middle →
      Lists ledger style supply rest (middle.finish handle) later after →
      Lists ledger style supply (handle :: rest) st (⟨handle, fragment⟩ :: later) after

theorem lists_of_run_pieces {handles : List Handle} {before after : Emitting σ}
    {emitted : List Piece}
    (run : (pieces ledger style supply handles).run before = .ok emitted after) :
    Lists ledger style supply handles before emitted after := by
  induction handles generalizing before emitted with
  | nil =>
      obtain ⟨rfl, rfl⟩ : [] = emitted ∧ before = after := by
        simpa [pieces, EStateM.run_pure] using run
      exact .nil
  | cons handle rest ih =>
      by_cases tracked : before.tracker.tracks handle = true
      · rw [run_pieces_of_tracked tracked] at run
        exact .skip tracked (ih run)
      · rw [Bool.not_eq_true] at tracked
        obtain ⟨fragment, middle, later, coded, others, rfl⟩ := coded_of_run_pieces tracked run
        exact .emit tracked coded (ih others)

namespace Lists

variable {handles : List Handle} {before after : Emitting σ} {emitted : List Piece}

/-- Pieces stand in the order of their names. -/
theorem sublist (lists : Lists ledger style supply handles before emitted after) :
    (emitted.map Piece.name).Sublist handles := by
  induction lists with
  | nil => exact List.Sublist.refl _
  | skip tracked lists ih => exact ih.cons _
  | emit untracked coded lists ih => exact ih.cons_cons _

/-- What holds of a name with any code that comes about for it holds of every piece. -/
theorem forall_mem {P : Piece → Prop}
    (lists : Lists ledger style supply handles before emitted after)
    (each : ∀ handle st fragment after,
      (code ledger style supply handle).run st = .ok fragment after → P ⟨handle, fragment⟩) :
    ∀ piece ∈ emitted, P piece := by
  induction lists with
  | nil => exact fun piece held => absurd held List.not_mem_nil
  | skip tracked lists ih => exact ih
  | emit untracked coded lists ih => exact List.forall_mem_cons.mpr ⟨each _ _ _ _ coded, ih⟩

/-- Names without a binding have no piece. -/
theorem bound (lists : Lists ledger style supply handles before emitted after) :
    ∀ piece ∈ emitted, ∃ binding, ledger.binding? piece.name = some binding := by
  refine lists.forall_mem
    (P := fun piece => ∃ binding, ledger.binding? piece.name = some binding) ?_
  intro handle st fragment last coded
  cases bound : ledger.binding? handle with
  | none =>
      rw [code_of_unbound bound] at coded
      cases coded
  | some binding => exact ⟨binding, rfl⟩

/-- The piece of a name with all that is needed has the code made from it. -/
theorem ready (lists : Lists ledger style supply handles before emitted after) :
    ∀ piece ∈ emitted, ∀ code, ready? ledger style piece.name = some code →
      piece.code = code := by
  refine lists.forall_mem (P := fun piece =>
    ∀ code, ready? ledger style piece.name = some code → piece.code = code) ?_
  intro handle st fragment last coded code ready
  rw [code_of_ready ready] at coded
  exact (EStateM.Result.ok.inj coded).1.symm

end Lists

/-- Names with all that is needed give one piece each, in order. -/
theorem run_pieces_of_ready (supply : Supplier σ) {handles : List Handle}
    {fragment : Handle → Fragment}
    (ready : ∀ handle ∈ handles, ready? ledger style handle = some (fragment handle))
    (nodup : handles.Nodup) (st : Emitting σ)
    (untracked : ∀ handle ∈ handles, st.tracker.progress? handle = none) :
    ∃ after, (pieces ledger style supply handles).run st =
      .ok (handles.map fun handle => ⟨handle, fragment handle⟩) after := by
  induction handles generalizing st with
  | nil => exact ⟨st, rfl⟩
  | cons handle rest ih =>
      rw [List.nodup_cons] at nodup
      have fresh := untracked handle List.mem_cons_self
      have coded : (code ledger style supply handle).run (st.begin handle) =
          .ok (fragment handle) (st.begin handle) := by
        rw [code_of_ready (ready handle List.mem_cons_self)]
        rfl
      have begun : (st.begin handle).tracker.progress? handle ≠ none := by
        rw [Emitting.progress?_begin fresh, if_pos rfl]
        simp
      obtain ⟨after, emitted⟩ := ih
        (fun other held => ready other (List.mem_cons_of_mem _ held)) nodup.2
        ((st.begin handle).finish handle) (fun other held => by
          -- a later name is another one, so completing this one leaves it untracked
          have apart : other ≠ handle := fun same => nodup.1 (same ▸ held)
          rw [Emitting.progress?_finish begun, if_neg apart, Emitting.progress?_begin fresh,
            if_neg apart]
          exact untracked other (List.mem_cons_of_mem _ held))
      exact ⟨after, run_pieces_of_coded (Tracker.tracks_eq_false_iff.mpr fresh) coded emitted⟩

/-- A block is put together from the pieces. -/
theorem run_declarations (ledger : Ledger) (style : Style) (supply : Supplier σ)
    (selection : Selection) (st : Emitting σ) :
    (declarations ledger style supply selection).run st =
      match (pieces ledger style supply selection.toList).run st with
      | .ok emitted after => .ok (style.block emitted) after
      | .error stop after => .error stop after := by
  unfold declarations
  rw [EStateM.run_bind]
  cases (pieces ledger style supply selection.toList).run st with
  | ok emitted after => rfl
  | error stop after => rfl

theorem pieces_of_run_declarations {selection : Selection} {st after : Emitting σ}
    {block : Fragment}
    (run : (declarations ledger style supply selection).run st = .ok block after) :
    ∃ emitted, (pieces ledger style supply selection.toList).run st = .ok emitted after ∧
      block = style.block emitted := by
  rw [run_declarations] at run
  split at run
  · rename_i emitted last emission
    cases run
    exact ⟨emitted, emission, rfl⟩
  · cases run

theorem pieces_of_failed_declarations {selection : Selection} {st after : Emitting σ}
    {stop : Stop}
    (failed : (declarations ledger style supply selection).run st = .error stop after) :
    (pieces ledger style supply selection.toList).run st = .error stop after := by
  rw [run_declarations] at failed
  split at failed
  · cases failed
  · rename_i other last emission
    cases failed
    exact emission

end Emission

/-! ## Recipes -/

section Recipes

variable {σ : Type} {ledger : Ledger} {emit : Errand → EmitM (Noted σ) Fragment}

/-- A recipe goes on behind an errand with the block that came of it. -/
theorem Recipe.run_follow_emit (errand : Errand) (state : σ)
    (resume : Fragment → Tracker → σ → Recipe σ) (code : Fragment) (st : Emitting (Noted σ)) :
    (Recipe.follow emit (.emit errand state resume) code).run st =
      match (emit errand).run
        { st with state := (st.state.moveTo state).note (.emitted errand) } with
      | .ok block now =>
        (Recipe.follow emit (resume block now.tracker now.state.state) (code ++ block)).run now
      | .error stop now => .error stop now := by
  rw [Recipe.follow]
  unfold EmitM.modifyState
  simp only [EStateM.run_bind, EStateM.run_modify, EStateM.run_get]
  generalize (emit errand).run _ = result
  cases result with
  | ok block now => rfl
  | error stop now => rfl

theorem Recipe.run_follow_emit_of_ok {errand : Errand} {state : σ}
    {resume : Fragment → Tracker → σ → Recipe σ} {code block : Fragment}
    {st now : Emitting (Noted σ)}
    (done : (emit errand).run
      { st with state := (st.state.moveTo state).note (.emitted errand) } = .ok block now) :
    (Recipe.follow emit (.emit errand state resume) code).run st =
      (Recipe.follow emit (resume block now.tracker now.state.state) (code ++ block)).run now := by
  rw [run_follow_emit, done]

/-- A supplier notes that it was asked, and follows the recipe of the name. -/
theorem Recipes.run_supplier (recipes : Recipes σ) (depth : Nat) (handle : Handle)
    (st : Emitting (Noted σ)) :
    (recipes.supplier ledger (depth + 1) handle).run st =
      ((recipes handle st.tracker st.state.state).follow
        (Errand.run ledger (recipes.supplier ledger depth)) ∅).run
        { st with state :=
            st.state.note (.asked handle (st.tracker.progress? handle) st.tracker.size) } := rfl

end Recipes

end NameScope
