import Mathlib.Data.List.Forall2
import NameScope.Proofs.Concatenation
import NameScope.Proofs.Emission

/-!
# Emissions in two styles

A style decides the form of the declarations and nothing else. The same emission in another
style is the same computation, whose pieces are restyled in the end (`Emission.pieces_restyle`):
a name with all that is needed gets its declaration in the other style, and what a supplier
gave is taken as it is. `Emission.style_changes_form_only` draws the consequences for the
blocks of declarations and for what suppliers are asked (`Emission.calls`).
-/

namespace NameScope

/-! ## Suppliers with a record -/

section Record

variable {σ τ : Type}

/-- The same tracker and journal with another state of the supplier. -/
def Emitting.withState (st : Emitting σ) (state : τ) : Emitting τ where
  tracker := st.tracker
  journal := st.journal
  state := state

/-- A supplier that keeps a record of what it is asked: the names, and the trackers that it
is handed with them. -/
def Supplier.recorded (supply : Supplier σ) : Supplier (σ × List (Handle × Tracker)) :=
  fun handle st =>
    let record := st.state.2 ++ [(handle, st.tracker)]
    match supply handle (st.withState st.state.1) with
    | .ok code? after => .ok code? (after.withState (after.state, record))
    | .error stop after => .error stop (after.withState (after.state, record))

theorem Supplier.run_recorded (supply : Supplier σ) (handle : Handle)
    (st : Emitting (σ × List (Handle × Tracker))) :
    (supply.recorded handle).run st =
      match (supply handle).run (st.withState st.state.1) with
      | .ok code? after => .ok code?
        (after.withState (after.state, st.state.2 ++ [(handle, st.tracker)]))
      | .error stop after => .error stop
        (after.withState (after.state, st.state.2 ++ [(handle, st.tracker)])) := rfl

namespace Emitting

/-- The state without the record. -/
def forget (st : Emitting (σ × τ)) : Emitting σ := st.withState st.state.1

/-- The outcome without the record. -/
def forgetIn {α : Type} :
    EStateM.Result Stop (Emitting (σ × τ)) α → EStateM.Result Stop (Emitting σ) α
  | .ok a st => .ok a st.forget
  | .error stop st => .error stop st.forget

end Emitting

/-- Whatever the record, the work comes to what the other comes to. -/
def Forgets {α : Type} (work : EmitM (σ × τ) α) (plain : EmitM σ α) : Prop :=
  ∀ st, Emitting.forgetIn (work.run st) = plain.run st.forget

theorem forgets_bind {α β : Type} {work : EmitM (σ × τ) α} {plain : EmitM σ α}
    {next : α → EmitM (σ × τ) β} {plain' : α → EmitM σ β} (first : Forgets work plain)
    (second : ∀ a, Forgets (next a) (plain' a)) : Forgets (work >>= next) (plain >>= plain') := by
  intro st
  rw [EStateM.run_bind, EStateM.run_bind, ← first st]
  cases work.run st with
  | ok a middle => exact second a middle
  | error stop middle => rfl

theorem forgets_recorded (supply : Supplier σ) (handle : Handle) :
    Forgets (supply.recorded handle) (supply handle) := by
  intro st
  show Emitting.forgetIn (supply.recorded handle st) = supply handle (st.withState st.state.1)
  unfold Supplier.recorded
  cases supply handle (st.withState st.state.1) with
  | ok code? after => rfl
  | error stop after => rfl

end Record

namespace Emission

variable {σ : Type}

theorem forgets_code (ledger : Ledger) (style : Style) (supply : Supplier σ) (handle : Handle) :
    Forgets (code ledger style supply.recorded handle) (code ledger style supply handle) := by
  cases ready : ready? ledger style handle with
  | some fragment =>
      rw [code_of_ready ready, code_of_ready ready]
      exact fun st => rfl
  | none =>
      cases bound : ledger.binding? handle with
      | none =>
          rw [code_of_unbound bound, code_of_unbound bound]
          exact fun st => rfl
      | some binding =>
          rw [code_of_missing bound ready, code_of_missing bound ready]
          refine forgets_bind (forgets_recorded supply handle) fun code? => ?_
          cases code? with
          | none => exact fun st => rfl
          | some code => exact fun st => rfl

theorem forgets_piece? (ledger : Ledger) (style : Style) (supply : Supplier σ)
    (handle : Handle) :
    Forgets (piece? ledger style supply.recorded handle) (piece? ledger style supply handle) := by
  intro st
  cases tracked : st.tracker.tracks handle with
  | true =>
      have tracked' : st.forget.tracker.tracks handle = true := tracked
      rw [run_piece?_of_tracked tracked, run_piece?_of_tracked tracked']
      rfl
  | false =>
      have untracked' : st.forget.tracker.tracks handle = false := tracked
      rw [run_piece?_of_untracked tracked, run_piece?_of_untracked untracked']
      have coded := forgets_code ledger style supply handle (st.begin handle)
      rw [show (st.begin handle).forget = st.forget.begin handle from rfl] at coded
      rw [← coded]
      match (code ledger style supply.recorded handle).run (st.begin handle) with
      | .ok fragment after => rfl
      | .error (.failed fault during) after => rfl
      | .error .endless after => rfl

/-- An emission comes to the same whether the supplier keeps a record or not. -/
theorem forgets_declarations (ledger : Ledger) (style : Style) (supply : Supplier σ)
    (selection : Selection) :
    Forgets (declarations ledger style supply.recorded selection)
      (declarations ledger style supply selection) := by
  have emits : ∀ handles, Forgets (pieces ledger style supply.recorded handles)
      (pieces ledger style supply handles) := by
    intro handles
    induction handles with
    | nil => exact fun st => rfl
    | cons handle rest ih =>
        exact forgets_bind (forgets_piece? ledger style supply handle) fun piece? =>
          forgets_bind ih fun later st => rfl
  exact forgets_bind (emits selection.toList) fun emitted st => rfl

/-- What the supplier is asked in the course of an emission, as its record tells. -/
def calls (ledger : Ledger) (style : Style) (supply : Supplier σ) (selection : Selection)
    (before : Emitting σ) : List (Handle × Tracker) :=
  match (declarations ledger style supply.recorded selection).run
    (before.withState (before.state, [])) with
  | .ok _ after => after.state.2
  | .error _ after => after.state.2

end Emission

/-! ## Restyling -/

/-- The piece in another style: a name with all that is needed is declared anew. -/
def Piece.restyle (ledger : Ledger) (style : Style) (piece : Piece) : Piece where
  name := piece.name
  code := (Emission.ready? ledger style piece.name).getD piece.code

namespace Emission

variable {σ : Type} {ledger : Ledger} {style style' : Style} {handle : Handle}

/-- Whether a name has all that is needed does not depend on the style. -/
theorem ready?_eq_none_of_style (missing : ready? ledger style handle = none) (style' : Style) :
    ready? ledger style' handle = none := by
  unfold ready? at missing ⊢
  cases bound : ledger.binding? handle with
  | none => rfl
  | some binding =>
      rw [bound] at missing
      cases origin : binding.value.origin with
      | load source => simp [origin] at missing
      | code code => simp [origin] at missing
      | missing value => simp only [origin]

theorem code_restyle (ledger : Ledger) (style style' : Style) (supply : Supplier σ)
    (handle : Handle) :
    code ledger style' supply handle =
      (ready? ledger style' handle).getD <$> code ledger style supply handle := by
  cases ready : ready? ledger style handle with
  | some fragment =>
      cases ready' : ready? ledger style' handle with
      | none =>
          rw [ready?_eq_none_of_style ready' style] at ready
          cases ready
      | some fragment' =>
          rw [code_of_ready ready, code_of_ready ready']
          rfl
  | none =>
      have ready' := ready?_eq_none_of_style ready style'
      rw [ready', show Option.getD (none : Option Fragment) = id from rfl, id_map]
      cases bound : ledger.binding? handle with
      | none => rw [code_of_unbound bound, code_of_unbound bound]
      | some binding => rw [code_of_missing bound ready, code_of_missing bound ready']

theorem piece?_restyle (ledger : Ledger) (style style' : Style) (supply : Supplier σ)
    (handle : Handle) :
    piece? ledger style' supply handle =
      Option.map (Piece.restyle ledger style') <$> piece? ledger style supply handle := by
  funext st
  show (piece? ledger style' supply handle).run st = (_ <$> _ : EmitM σ (Option Piece)).run st
  rw [map_eq_pure_bind, EStateM.run_bind]
  cases tracked : st.tracker.tracks handle with
  | true =>
      rw [run_piece?_of_tracked tracked, run_piece?_of_tracked tracked]
      rfl
  | false =>
      rw [run_piece?_of_untracked tracked, run_piece?_of_untracked tracked,
        code_restyle ledger style style' supply handle, map_eq_pure_bind, EStateM.run_bind]
      match (code ledger style supply handle).run (st.begin handle) with
      | .ok fragment after => rfl
      | .error (.failed fault during) after => rfl
      | .error .endless after => rfl

/-- **Restyling.** An emission in another style does the same work and gives the same pieces,
restyled. -/
theorem pieces_restyle (ledger : Ledger) (style style' : Style) (supply : Supplier σ)
    (handles : List Handle) :
    pieces ledger style' supply handles =
      List.map (Piece.restyle ledger style') <$> pieces ledger style supply handles := by
  induction handles with
  | nil => rfl
  | cons handle rest ih =>
      rw [pieces_cons, pieces_cons, ih, piece?_restyle ledger style style' supply handle]
      simp only [map_bind, bind_map_left, map_pure, List.map_append, Option.toList_map]

theorem run_pieces_restyle (ledger : Ledger) (style style' : Style) (supply : Supplier σ)
    (handles : List Handle) (st : Emitting σ) :
    (pieces ledger style' supply handles).run st =
      match (pieces ledger style supply handles).run st with
      | .ok emitted after => .ok (emitted.map (Piece.restyle ledger style')) after
      | .error stop after => .error stop after := by
  rw [pieces_restyle ledger style style' supply handles, map_eq_pure_bind, EStateM.run_bind]
  cases (pieces ledger style supply handles).run st with
  | ok emitted after => rfl
  | error stop after => rfl

/-- In both styles the supplier is asked the same. -/
theorem calls_restyle (ledger : Ledger) (style style' : Style) (supply : Supplier σ)
    (selection : Selection) (before : Emitting σ) :
    calls ledger style' supply selection before = calls ledger style supply selection before := by
  unfold calls
  rw [run_declarations, run_declarations, run_pieces_restyle ledger style style']
  cases (pieces ledger style supply.recorded selection.toList).run
    (before.withState (before.state, [])) with
  | ok emitted after => rfl
  | error stop after => rfl

end Emission

/-! ## Pieces in two styles -/

/-- The form in which a module is loaded depends on the keyword only where there are no
`import` statements. -/
theorem Style.load_eq {style style' : Style} (esm : style'.esm = style.esm)
    (es5 : style.esm = false → style'.es5 = style.es5) (name : Ident) (source : Import) :
    style'.load name source = style.load name source := by
  unfold load keyword
  rw [esm]
  cases modern : style.esm with
  | true => rfl
  | false => rw [es5 modern]

theorem Style.declare_eq (style : Style) (name : Ident) (code : Fragment) :
    style.declare name code = .text ((if style.es5 then "var" else "const") ++ " ") ++
      (.ident name ++ .text " = " ++ code ++ .text ";") := by
  unfold declare keyword
  cases style.es5 with
  | true => simp only [Fragment.append_assoc, Keyword.text, if_true]
  | false => simp only [Fragment.append_assoc, Keyword.text, if_false, Bool.false_eq_true]

/-- What the pieces of one name have in common in two styles. Pieces that suppliers gave are
the same. Declarations of given code begin with the keywords of their styles and go on in
the same way. Only pieces that load a module can differ in more. -/
def Piece.Alike (ledger : Ledger) (style style' : Style) (piece piece' : Piece) : Prop :=
  piece'.name = piece.name ∧ ∃ binding, ledger.binding? piece.name = some binding ∧
    match binding.value.origin with
    | .load source =>
      piece.code = style.load piece.name.ident source ∧
      piece'.code = style'.load piece.name.ident source ∧
      (style'.esm = style.esm → (style.esm = false → style'.es5 = style.es5) →
        piece'.code = piece.code)
    | .code code =>
      let rest := .ident piece.name.ident ++ .text " = " ++ code ++ .text ";"
      piece.code = .text ((if style.es5 then "var" else "const") ++ " ") ++ rest ∧
      piece'.code = .text ((if style'.es5 then "var" else "const") ++ " ") ++ rest
    | .missing _ => piece'.code = piece.code

/-- The name is that of an import that can be loaded. -/
def Ledger.Loads (ledger : Ledger) (handle : Handle) : Prop :=
  ∃ binding source, ledger.binding? handle = some binding ∧ binding.value.origin = .load source

namespace Emission

variable {σ : Type} {ledger : Ledger} {style style' : Style} {handle : Handle}

theorem alike_restyle {piece : Piece} {binding : Binding}
    (bound : ledger.binding? piece.name = some binding)
    (ready : ∀ code, ready? ledger style piece.name = some code → piece.code = code)
    (style' : Style) : piece.Alike ledger style style' (piece.restyle ledger style') := by
  refine ⟨rfl, binding, bound, ?_⟩
  unfold ready? at ready
  unfold Piece.restyle ready?
  rw [bound] at ready ⊢
  cases origin : binding.value.origin with
  | load source =>
      simp only [origin, Option.some.injEq, forall_eq', Option.getD_some] at ready ⊢
      exact ⟨ready, trivial, fun esm es5 => ready ▸ Style.load_eq esm es5 _ source⟩
  | code code =>
      simp only [origin, Option.some.injEq, forall_eq', Option.getD_some] at ready ⊢
      exact ⟨ready.trans (style.declare_eq _ code), style'.declare_eq _ code⟩
  | missing value => simp only [origin, Option.getD_none]

/-- Where the keyword is the same, a piece that loads nothing is the same, and so is every
piece where modules are loaded in the same way. -/
theorem alike_eq {piece piece' : Piece} (alike : piece.Alike ledger style style' piece')
    (es5 : style'.es5 = style.es5)
    (settled : style'.esm = style.esm ∨ ¬ ledger.Loads piece.name) : piece' = piece := by
  obtain ⟨name, binding, bound, alike⟩ := alike
  have code : piece'.code = piece.code := by
    cases origin : binding.value.origin with
    | load source =>
        simp only [origin] at alike
        rcases settled with esm | unloaded
        · exact alike.2.2 esm fun _ => es5
        · exact absurd ⟨binding, source, bound, origin⟩ unloaded
    | code code =>
        simp only [origin] at alike
        rw [alike.1, alike.2, es5]
    | missing value => simpa only [origin] using alike
  cases piece
  cases piece'
  simp only at name code
  rw [name, code]

/-- **A style changes the form only.** Carry out one emission in two styles, whatever the
selection, the tracker and the supplier. The supplier is asked the same in both. Both fail, or
neither does; they fail in the same way, and leave the tracker, the journal and the supplier
in the same state. If they end well, each block consists of pieces, every one followed by
what the style puts behind declarations; the pieces belong to the same names in the same
order, and those of one name are alike.

So a change of how modules are loaded changes nothing in a block that loads none, and a
change of whether declarations end lines puts a line break behind every piece, or takes it
away. -/
theorem style_changes_form_only (ledger : Ledger) (style style' : Style) (supply : Supplier σ)
    (selection : Selection) (before : Emitting σ) :
    calls ledger style' supply selection before = calls ledger style supply selection before ∧
    ((∃ stop after,
      (declarations ledger style supply selection).run before = .error stop after ∧
      (declarations ledger style' supply selection).run before = .error stop after) ∨
    ∃ emitted emitted' after,
      (pieces ledger style supply selection.toList).run before = .ok emitted after ∧
      (pieces ledger style' supply selection.toList).run before = .ok emitted' after ∧
      (declarations ledger style supply selection).run before =
        .ok (.concat (emitted.map fun piece =>
          piece.code ++ if style.lines then .text "\n" else ∅)) after ∧
      (declarations ledger style' supply selection).run before =
        .ok (.concat (emitted'.map fun piece =>
          piece.code ++ if style'.lines then .text "\n" else ∅)) after ∧
      List.Forall₂ (Piece.Alike ledger style style') emitted emitted' ∧
      (style'.es5 = style.es5 → (∀ piece ∈ emitted, ¬ ledger.Loads piece.name) →
        emitted' = emitted ∧ (style'.lines = style.lines →
          (declarations ledger style' supply selection).run before =
            (declarations ledger style supply selection).run before)) ∧
      (style'.es5 = style.es5 → style'.esm = style.esm → emitted' = emitted)) := by
  refine ⟨calls_restyle ledger style style' supply selection before, ?_⟩
  simp only [run_declarations, run_pieces_restyle ledger style style']
  cases run : (pieces ledger style supply selection.toList).run before with
  | error stop after => exact .inl ⟨stop, after, rfl, rfl⟩
  | ok emitted after =>
      have alike : ∀ piece ∈ emitted,
          piece.Alike ledger style style' (piece.restyle ledger style') := by
        intro piece held
        obtain ⟨binding, bound⟩ := (lists_of_run_pieces run).bound piece held
        exact alike_restyle bound ((lists_of_run_pieces run).ready piece held) style'
      have same (settled : ∀ piece ∈ emitted, piece.restyle ledger style' = piece) :
          emitted.map (Piece.restyle ledger style') = emitted := by
        rw [List.map_congr_left settled, List.map_id']
      refine .inr ⟨emitted, _, after, rfl, rfl, rfl, rfl, ?_, ?_, ?_⟩
      · rw [List.forall₂_map_right_iff, List.forall₂_same]
        exact alike
      · intro es5 unloaded
        have unchanged := same fun piece held =>
          alike_eq (alike piece held) es5 (.inr (unloaded piece held))
        refine ⟨unchanged, fun lines => ?_⟩
        simp only [unchanged, Style.block, Style.separator, lines]
      · intro es5 esm
        exact same fun piece held => alike_eq (alike piece held) es5 (.inl esm)

end Emission

end NameScope
