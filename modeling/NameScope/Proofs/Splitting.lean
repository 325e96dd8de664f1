import NameScope.Proofs.Concatenation
import NameScope.Proofs.Restyling
import NameScope.Proofs.Skipping

/-!
# Emissions in turn

Several selections can be emitted one after the other with one tracker, or their names at
once, in the order in which they first occur. Both come to the same (`emission_in_turn`):
an emission that begins finds tracked what the earlier ones have looked at, by themselves or
through their suppliers, and passes it over as one emission passes over a repeated name.
-/

namespace NameScope

theorem Style.block_append (style : Style) (first second : List Piece) :
    style.block (first ++ second) = style.block first ++ style.block second := by
  unfold block
  rw [List.map_append, Fragment.concat_append]

namespace Emission

variable {σ : Type} {ledger : Ledger} {style : Style} {supply : Supplier σ}

/-- Emit selections one after the other, and put their blocks together. -/
def inTurn (ledger : Ledger) (style : Style) (supply : Supplier σ)
    (selections : List Selection) : EmitM σ Fragment := do
  let blocks ← selections.mapM (declarations ledger style supply)
  return .concat blocks

/-- What the supplier is asked in the course of emissions in turn. -/
def callsInTurn (ledger : Ledger) (style : Style) (supply : Supplier σ)
    (selections : List Selection) (before : Emitting σ) : List (Handle × Tracker) :=
  (EmitM.leaves (inTurn ledger style supply.recorded selections)
    (before.withState (before.state, []))).state.2

theorem inTurn_cons (selection : Selection) (rest : List Selection) :
    inTurn ledger style supply (selection :: rest) = (do
      let block ← declarations ledger style supply selection
      let blocks ← inTurn ledger style supply rest
      return block ++ blocks) := by
  unfold inTurn
  simp only [List.mapM_cons, bind_assoc, pure_bind]
  rfl

/-- **Borders disappear.** Emissions in turn go over the names of all selections. -/
theorem inTurn_eq (selections : List Selection) :
    inTurn ledger style supply selections = (do
      let emitted ← pieces ledger style supply (selections.flatMap Selection.toList)
      return style.block emitted) := by
  induction selections with
  | nil => rfl
  | cons selection rest ih =>
      rw [inTurn_cons, ih, List.flatMap_cons, pieces_append]
      unfold declarations
      simp only [bind_assoc, pure_bind, Style.block_append]

/-- A supplier that keeps a record tracks what it tracked without. -/
theorem keeps_recorded (keeps : supply.Keeps) : supply.recorded.Keeps := by
  intro handle st
  have kept := keeps handle (st.withState st.state.1)
  unfold EmitM.leaves at kept ⊢
  rw [Supplier.run_recorded]
  cases run : (supply handle).run (st.withState st.state.1) with
  | ok code? after =>
      rw [run] at kept
      exact kept
  | error stop after =>
      rw [run] at kept
      exact kept

/-- Emissions in turn come to what one emission of all names comes to. -/
theorem run_inTurn (keeps : supply.Keeps) {selections : List Selection} {whole : Selection}
    (order : whole.toList = (selections.flatMap Selection.toList).eraseDups)
    (before : Emitting σ) :
    (inTurn ledger style supply selections).run before =
      (declarations ledger style supply whole).run before := by
  rw [inTurn_eq]
  unfold declarations
  rw [order, EStateM.run_bind, EStateM.run_bind, run_pieces_eraseDups keeps]

/-- **Splitting an emission.** Let the names of a selection be those of several others in
turn, repeated names left out after their first occurrence. Then emitting the others one after
the other with one tracker, up to the first failure, and emitting the selection at once come to
the same, if what is tracked stays tracked when the supplier is at work: to the same success or
the same error, with the same tracker and the same state of the supplier afterwards (in which it
may note what it emits by itself), the same calls of the supplier on the way, and blocks that put
together are the one block. Suppliers that follow routines are of this kind, with whatever
emissions and states of their own. -/
theorem emission_in_turn (ledger : Ledger) (style : Style) (selections : List Selection)
    (whole : Selection)
    (order : whole.toList = (selections.flatMap Selection.toList).eraseDups) :
    (∀ {σ : Type} (routines : Routines σ) (depth : Nat),
      Supplier.Keeps (routines.supplier ledger depth)) ∧
    ∀ {σ : Type} (supply : Supplier σ), supply.Keeps → ∀ before : Emitting σ,
      (do
        let blocks ← selections.mapM (declarations ledger style supply)
        return Fragment.concat blocks).run before =
          (declarations ledger style supply whole).run before ∧
      callsInTurn ledger style supply selections before =
        calls ledger style supply whole before := by
  refine ⟨fun routines depth => keeps_supplier ledger routines depth, ?_⟩
  intro σ supply keeps before
  refine ⟨run_inTurn keeps order before, ?_⟩
  unfold callsInTurn EmitM.leaves calls
  rw [run_inTurn (keeps_recorded keeps) order]
  cases (declarations ledger style supply.recorded whole).run
    (before.withState (before.state, [])) with
  | ok block after => rfl
  | error stop after => rfl

/-- A supplier that counts emits, for one name, another one that is selected later. -/
theorem emission_in_turn_of_nested_emission :
    let value (code? : Option Fragment) : Value := ⟨none, none, .inline code?⟩
    let first : Handle := ⟨0, ⟨"p0"⟩, "p"⟩
    let second : Handle := ⟨1, ⟨"p1"⟩, "p"⟩
    let outer : Handle := ⟨2, ⟨"q0"⟩, "q"⟩
    let inner : Handle := ⟨3, ⟨"q1"⟩, "q"⟩
    let ledger := (((Ledger.bind {} first ⟨value (some (.text "1")), ⟨"p", 0⟩⟩).bind second
      ⟨value (some (.text "2")), ⟨"p", 1⟩⟩).bind outer ⟨value none, ⟨"q", 0⟩⟩).bind inner
        ⟨value none, ⟨"q", 1⟩⟩
    let recipes : Recipes Nat := fun handle _ count =>
      if handle = outer then
        .emit { style := {}, selection := .ofList [inner] } (count + 1) fun _ _ count =>
          .add (.ident handle.ident) (.finish count)
      else .add (.ident handle.ident) (.finish (count + 1))
    let supply := recipes.supplier ledger 2
    let selections : List Selection :=
      [.ofList [first, second], .ofList [second, outer], .ofList [outer, inner]]
    let whole : Selection := .ofList [first, second, outer, inner]
    let before : Emitting (Noted Nat) := { state := { state := 0 } }
    whole.toList = (selections.flatMap Selection.toList).eraseDups ∧
    supply.Keeps ∧ ∃ block after,
      (do
        let blocks ← selections.mapM (declarations ledger {} supply)
        return Fragment.concat blocks).run before = .ok block after ∧
      (declarations ledger {} supply whole).run before = .ok block after ∧
      block.render = "const p0 = 1;const p1 = 2;q1q0" ∧
      after.state.state = 2 ∧ after.tracker.progress? inner = some .completed ∧
      (callsInTurn ledger {} supply selections before).map Prod.fst = [outer] := by
  intro value first second outer inner ledger recipes supply selections whole before
  have order : whole.toList = (selections.flatMap Selection.toList).eraseDups := by decide +kernel
  obtain ⟨routines, split⟩ := emission_in_turn ledger {} selections whole order
  have keeps : supply.Keeps := by
    have routine := routines (fun handle tracker state =>
      (recipes handle tracker state).routine ∅) 2
    rw [Recipes.supplier_routines] at routine
    exact routine
  obtain ⟨same, calls⟩ := split supply keeps before
  have evaluated : (match (declarations ledger {} supply whole).run before with
    | .ok block after =>
        some (block.render, after.state.state, after.tracker.progress? inner)
    | .error _ _ => none) =
      some ("const p0 = 1;const p1 = 2;q1q0", 2, some .completed) := by
    decide +kernel
  refine ⟨order, keeps, ?_⟩
  cases run : (declarations ledger {} supply whole).run before with
  | error stop after =>
      rw [run] at evaluated
      cases evaluated
  | ok block after =>
      rw [run] at evaluated
      obtain ⟨rendered, state, progress⟩ :
          block.render = _ ∧ after.state.state = _ ∧ after.tracker.progress? inner = _ := by
        simpa using evaluated
      refine ⟨block, after, same.trans run, rfl, rendered, state, progress, ?_⟩
      rw [calls]
      decide +kernel

end Emission

end NameScope
