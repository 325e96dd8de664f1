import NameScope.Bundle
import NameScope.Proofs.ExactlyOnce
import NameScope.Proofs.Reentrancy

/-!
# What a module consists of

A module without exports and one with exports of both kinds are refused before anything is
emitted. Otherwise the exports are written one after the other with one tracker
(`Bundle.Written`), up to the first one that breaks off (`Bundle.Breaks`), and the code of
the module is put together from what they add. With suppliers that emit with the tracker
they were handed, no name is declared twice in the whole module
(`Bundle.module_of_steps`). A supplier may return any fault, the two refusals included
(`Bundle.refusal_of_supplier`); an export breaks off with one of these only if the supplier
of its name did (`Bundle.Breaks.cases`).
-/

namespace NameScope

namespace Export

/-- Whether the export has a name of its own. -/
def isNamed : Export → Bool
  | .standard _ => false
  | .named _ _ => true

/-- A letter of the alphabet, an underscore or a dollar sign. -/
def Opening (c : Char) : Prop :=
  'A' ≤ c ∧ c ≤ 'Z' ∨ 'a' ≤ c ∧ c ≤ 'z' ∨ c = '_' ∨ c = '$'

/-- A text of the form `[A-Za-z_$][A-Za-z0-9_$]*`. -/
def Word (text : String) : Prop :=
  ∃ first rest, text.toList = first :: rest ∧ Opening first ∧
    ∀ c ∈ rest, Opening c ∨ '0' ≤ c ∧ c ≤ '9'

/-- An export can be written: it is the default one, or its name is a word. -/
def Admissible : Export → Prop
  | .standard _ => True
  | .named name _ => Word name

/-- What stands in front of the declarations of an export, two statements for the default
one. -/
def heading (style : Style) : Export → Fragment
  | .standard entry =>
    .concat [.text (if style.esm then "export const validate = " else "module.exports = "),
      .ident entry.ident, .text ";", style.lineEnd,
      .text (if style.esm then "export default " else "module.exports.default = "),
      .ident entry.ident, .text ";"]
  | .named name entry =>
    .concat [.text ((if style.esm then "export const " else "exports.") ++ name ++ " = "),
      .ident entry.ident, .text ";"]

/-- An export with the declarations that it adds. -/
def block (style : Style) (item : Export) (body : Fragment) : Fragment :=
  item.heading style ++ style.lineEnd ++ body

theorem startsIdentifier_iff (c : Char) : startsIdentifier c = true ↔ Opening c := by
  unfold startsIdentifier Opening Char.isAlpha Char.isUpper Char.isLower
  simp only [Bool.or_eq_true, Bool.and_eq_true, decide_eq_true_eq, or_assoc]
  rfl

theorem continuesIdentifier_iff (c : Char) :
    continuesIdentifier c = true ↔ Opening c ∨ '0' ≤ c ∧ c ≤ '9' := by
  unfold continuesIdentifier Char.isDigit
  simp only [Bool.or_eq_true, Bool.and_eq_true, decide_eq_true_eq, startsIdentifier_iff]
  rfl

theorem isIdentifier_iff (text : String) : isIdentifier text = true ↔ Word text := by
  unfold isIdentifier Word
  cases text.toList with
  | nil => simp
  | cons first rest =>
      simp only [Bool.and_eq_true, List.all_eq_true, startsIdentifier_iff,
        continuesIdentifier_iff]
      constructor
      · rintro ⟨opening, others⟩
        exact ⟨first, rest, rfl, opening, others⟩
      · rintro ⟨first', rest', same, opening, others⟩
        obtain ⟨rfl, rfl⟩ := List.cons.inj same
        exact ⟨opening, others⟩

theorem statement_of_admissible {item : Export} (admissible : item.Admissible) (style : Style) :
    item.statement style = .ok (item.heading style) := by
  cases item with
  | standard entry =>
      unfold statement heading assign
      rw [Style.separator_eq_lineEnd]
      cases style.esm with
      | true => simp [Fragment.concat, Fragment.append_assoc]
      | false => simp [Fragment.concat, Fragment.append_assoc]
  | named name entry =>
      have word : isIdentifier name = true := (isIdentifier_iff name).mpr admissible
      simp [statement, heading, assign, word, Fragment.concat, Fragment.append_assoc]

theorem statement_of_not_word {name : String} (wrong : ¬ Word name) (entry : Handle)
    (style : Style) : (named name entry).statement style = .error (.badExportName name) := by
  have other : isIdentifier name = false := by
    rw [← Bool.not_eq_true, isIdentifier_iff]
    exact wrong
  simp [statement, other]

end Export

/-- A stop without the names in whose course it came. -/
def Stop.bare : Stop → Stop
  | .failed fault _ => .failed fault []
  | .endless => .endless

namespace Bundle

/-! ## The exports that count -/

/-- Set the default export, or add a named one. -/
def add (bundle : Bundle) : Export → Bundle
  | .standard entry => bundle.exportDefault entry
  | .named name entry => bundle.exportAs name entry

/-- The bundle that is put together step by step. -/
def ofSteps (steps : List Export) : Bundle := steps.foldl add {}

/-- What is exported by steps of one kind: all that is named, or the last default. -/
def kept (steps : List Export) : List Export :=
  if steps.any Export.isNamed then steps else steps.getLast?.toList

theorem ofSteps_concat (steps : List Export) (step : Export) :
    ofSteps (steps ++ [step]) = (ofSteps steps).add step :=
  List.foldl_concat _ _ _ _

/-- Steps without names set the default export, and the last one counts. -/
theorem ofSteps_of_unnamed {steps : List Export} (unnamed : ∀ step ∈ steps, step.isNamed = false) :
    ofSteps steps = { standard? := steps.getLast?.map Export.entry } := by
  induction steps using List.reverseRecOn with
  | nil => rfl
  | append_singleton steps step ih =>
      rw [ofSteps_concat, ih fun other among => unnamed other (List.mem_append_left _ among),
        List.getLast?_concat]
      cases step with
      | standard entry => rfl
      | named name entry =>
          exact absurd (unnamed _ (List.mem_append_right _ (List.mem_singleton.mpr rfl)))
            (by simp [Export.isNamed])

theorem named_ofSteps (steps : List Export) :
    ((ofSteps steps).named.map fun (name, entry) => Export.named name entry) =
      steps.filter Export.isNamed := by
  induction steps using List.reverseRecOn with
  | nil => rfl
  | append_singleton steps step ih =>
      rw [ofSteps_concat, List.filter_append, ← ih]
      cases step with
      | standard entry => exact (List.append_nil _).symm
      | named name entry => exact List.map_append

theorem standard?_ofSteps_eq_none_iff (steps : List Export) :
    (ofSteps steps).standard? = none ↔ ∀ step ∈ steps, step.isNamed = true := by
  induction steps using List.reverseRecOn with
  | nil => simp [ofSteps]
  | append_singleton steps step ih =>
      rw [ofSteps_concat, List.forall_mem_append, List.forall_mem_singleton, ← ih]
      cases step with
      | standard entry => simp [add, exportDefault, Export.isNamed]
      | named name entry => simp [add, exportAs, Export.isNamed]

/-- Steps of both kinds. -/
def Mixed (steps : List Export) : Prop :=
  (∃ step ∈ steps, step.isNamed = true) ∧ ∃ step ∈ steps, step.isNamed = false

theorem exports_ofSteps_of_mixed {steps : List Export} (mixed : Mixed steps) :
    (ofSteps steps).exports = .error .mixedExports := by
  obtain ⟨⟨step, among, isNamed⟩, other, among', unnamed⟩ := mixed
  have listed := named_ofSteps steps
  unfold exports
  cases standard : (ofSteps steps).standard? with
  | none =>
      have all := (standard?_ofSteps_eq_none_iff steps).mp standard other among'
      exact absurd (all.symm.trans unnamed) (by simp)
  | some entry =>
      cases named : (ofSteps steps).named with
      | nil =>
          rw [named] at listed
          have kept : step ∈ steps.filter Export.isNamed := List.mem_filter.mpr ⟨among, isNamed⟩
          exact absurd (listed ▸ kept) List.not_mem_nil
      | cons first rest => rfl

theorem exports_ofSteps {steps : List Export} (occupied : steps ≠ []) (pure : ¬ Mixed steps) :
    (ofSteps steps).exports = .ok (kept steps) := by
  by_cases some : steps.any Export.isNamed = true
  · have all : ∀ step ∈ steps, step.isNamed = true := by
      intro step among
      by_contra unnamed
      exact pure ⟨List.any_eq_true.mp some, step, among, by simpa using unnamed⟩
    have listed := named_ofSteps steps
    rw [List.filter_eq_self.mpr all] at listed
    unfold exports kept
    rw [(standard?_ofSteps_eq_none_iff steps).mpr all, if_pos some]
    cases named : (ofSteps steps).named with
    | nil =>
        rw [named] at listed
        exact absurd listed.symm occupied
    | cons first rest =>
        rw [named] at listed
        exact congrArg Except.ok listed
  · have none : ∀ step ∈ steps, step.isNamed = false := by simpa using some
    unfold kept
    rw [ofSteps_of_unnamed none, if_neg some, List.getLast?_eq_some_getLast occupied]
    -- the last step is the default export
    cases last : steps.getLast occupied with
    | standard entry => rfl
    | named name entry =>
        have named := none _ (List.getLast_mem occupied)
        rw [last] at named
        exact absurd named (by simp [Export.isNamed])

/-! ## Writing exports -/

section Writing

variable {σ : Type}

/-- Exports written one after the other, each with what its declarations come to. -/
inductive Written (ledger : Ledger) (style : Style) (supply : Supplier σ) :
    List Export → Emitting σ → List Fragment → Emitting σ → Prop
  | nil (st : Emitting σ) : Written ledger style supply [] st [] st
  | cons {item : Export} {rest : List Export} {before middle after : Emitting σ}
      {body : Fragment} {bodies : List Fragment} :
      item.Admissible →
      (Emission.declarations ledger style supply (.ofList [item.entry])).run before =
        .ok body middle →
      Written ledger style supply rest middle bodies after →
      Written ledger style supply (item :: rest) before (body :: bodies) after

/-- An export that is not written: its name is no word, or its declarations fail. -/
inductive Breaks (ledger : Ledger) (style : Style) (supply : Supplier σ) :
    Export → Emitting σ → Stop → Emitting σ → Prop
  | name {name : String} {entry : Handle} {st : Emitting σ} : ¬ Export.Word name →
      Breaks ledger style supply (.named name entry) st (.failed (.badExportName name) []) st
  | declarations {item : Export} {before after : Emitting σ} {stop : Stop} : item.Admissible →
      (Emission.declarations ledger style supply (.ofList [item.entry])).run before =
        .error stop after →
      Breaks ledger style supply item before stop after

/-- **The faults of an export.** Its name is no word; or the name that it exports is not bound,
or the supplier of this name declines, or it fails, and then the export breaks off with the
supplier's fault. -/
theorem Breaks.cases {ledger : Ledger} {style : Style} {supply : Supplier σ} {item : Export}
    {before after : Emitting σ} {fault : Fault} {during : List Handle}
    (breaks : Breaks ledger style supply item before (.failed fault during) after) :
    (∃ name entry, item = .named name entry ∧ ¬ Export.Word name ∧
      fault = .badExportName name) ∨
    (ledger.binding? item.entry = none ∧ fault = .unbound item.entry.text) ∨
    (∃ binding, ledger.binding? item.entry = some binding ∧
      (supply item.entry).run (before.begin item.entry) = .ok none after ∧
      fault = .noCode item.entry.text binding.value) ∨
    ∃ inner, (supply item.entry).run (before.begin item.entry) =
      .error (.failed fault inner) after := by
  cases breaks with
  | @name name entry st wrong => exact .inl ⟨name, entry, rfl, wrong, rfl⟩
  | declarations admissible failed =>
      -- the only name that is selected is the one that is exported
      have failed : (Emission.pieces ledger style supply [item.entry]).run before =
          .error (.failed fault during) after := Emission.pieces_of_failed_declarations failed
      by_cases tracked : before.tracker.tracks item.entry = true
      · rw [Emission.run_pieces_of_tracked tracked] at failed
        cases failed
      · rw [Bool.not_eq_true] at tracked
        rw [Emission.run_pieces_of_untracked tracked] at failed
        split at failed
        · cases failed
        · rename_i other inner last coded
          obtain ⟨⟨rfl, -⟩, rfl⟩ : (other = fault ∧ item.entry :: inner = during) ∧
              last = after := by
            simpa using failed
          rcases Emission.failed_code_cases coded with
            ⟨unbound, rfl, -⟩ | ⟨binding, bound, declined, rfl, -⟩ | supplied
          · exact .inr (.inl ⟨unbound, rfl⟩)
          · exact .inr (.inr (.inl ⟨binding, bound, declined, rfl⟩))
          · exact .inr (.inr (.inr ⟨inner, supplied⟩))
        · cases failed

/-- An export breaks off with the refusal of a module only if the supplier did. -/
theorem Breaks.of_refusal {ledger : Ledger} {style : Style} {supply : Supplier σ} {item : Export}
    {before after : Emitting σ} {fault : Fault} {during : List Handle}
    (breaks : Breaks ledger style supply item before (.failed fault during) after)
    (refusal : fault = .noExports ∨ fault = .mixedExports) :
    ∃ inner, (supply item.entry).run (before.begin item.entry) =
      .error (.failed fault inner) after := by
  rcases breaks.cases with
    ⟨name, entry, -, -, rfl⟩ | ⟨-, rfl⟩ | ⟨binding, -, -, rfl⟩ | supplied
  · simp at refusal
  · simp at refusal
  · simp at refusal
  · exact supplied

variable (ledger : Ledger) (style : Style) (supply : Supplier σ)

theorem run_exportBlock {item : Export} (admissible : item.Admissible) (before : Emitting σ) :
    (exportBlock ledger style supply item).run before =
      match (Emission.declarations ledger style supply (.ofList [item.entry])).run before with
      | .ok body after => .ok (item.block style body) after
      | .error stop after => .error stop after := by
  unfold exportBlock
  rw [Export.statement_of_admissible admissible]
  simp only [EStateM.run_bind]
  cases (Emission.declarations ledger style supply (.ofList [item.entry])).run before with
  | ok body after => rfl
  | error stop after => rfl

/-- One export is written, or it breaks off. -/
theorem exportBlock_cases (item : Export) (before : Emitting σ) :
    match (exportBlock ledger style supply item).run before with
    | .ok code after => ∃ body, code = item.block style body ∧ item.Admissible ∧
        (Emission.declarations ledger style supply (.ofList [item.entry])).run before =
          .ok body after
    | .error stop after => Breaks ledger style supply item before stop after := by
  by_cases admissible : item.Admissible
  · rw [run_exportBlock ledger style supply admissible]
    cases run : (Emission.declarations ledger style supply (.ofList [item.entry])).run before with
    | ok body after => exact ⟨body, rfl, admissible, rfl⟩
    | error stop after => exact .declarations admissible run
  · cases item with
    | standard entry => exact absurd trivial admissible
    | named name entry =>
        unfold exportBlock
        rw [Export.statement_of_not_word admissible]
        exact .name admissible

/-- **Exports one after the other.** All are written, or one breaks off after those in front
of it have been written. -/
theorem exportBlocks_cases (items : List Export) (before : Emitting σ) :
    match (exportBlocks ledger style supply items).run before with
    | .ok code after => ∃ bodies, Written ledger style supply items before bodies after ∧
        code = .concat (List.zipWith (Export.block style) items bodies)
    | .error stop after => ∃ done item rest bodies middle, items = done ++ item :: rest ∧
        Written ledger style supply done before bodies middle ∧
        Breaks ledger style supply item middle stop after := by
  induction items generalizing before with
  | nil => exact ⟨[], .nil before, rfl⟩
  | cons item rest ih =>
      have first := exportBlock_cases ledger style supply item before
      unfold exportBlocks
      simp only [EStateM.run_bind]
      cases run : (exportBlock ledger style supply item).run before with
      | error stop after =>
          rw [run] at first
          exact ⟨[], item, rest, [], before, rfl, .nil before, first⟩
      | ok code middle =>
          rw [run] at first
          obtain ⟨body, rfl, admissible, declared⟩ := first
          have later := ih middle
          simp only
          cases run : (exportBlocks ledger style supply rest).run middle with
          | ok code after =>
              rw [run] at later
              obtain ⟨bodies, written, rfl⟩ := later
              exact ⟨body :: bodies, .cons admissible declared written, rfl⟩
          | error stop after =>
              rw [run] at later
              obtain ⟨done, broken, behind, bodies, there, rfl, written, breaks⟩ := later
              exact ⟨item :: done, broken, behind, body :: bodies, there, rfl,
                .cons admissible declared written, breaks⟩

end Writing

/-! ## Modules -/

section Modules

variable {σ : Type} (ledger : Ledger) (style : Style)

/-- A module is put together with a tracker of its own. -/
theorem run_render (supply : Supplier σ) (bundle : Bundle) (before : Emitting σ) :
    (bundle.render ledger style supply).run before =
      match (bundle.assemble ledger style supply).run { state := before.state } with
      | .ok code after => .ok code { before with state := after.state }
      | .error stop after => .error stop.bare { before with state := after.state } := by
  unfold render
  rw [EmitM.run_apart]
  cases (bundle.assemble ledger style supply).run { state := before.state } with
  | ok code after => rfl
  | error stop after => cases stop <;> rfl

/-- Exports that cannot be told are refused, whatever the supplier. -/
theorem run_render_of_refused {bundle : Bundle} {fault : Fault}
    (refused : bundle.exports = .error fault) (supply : Supplier σ) (before : Emitting σ) :
    (bundle.render ledger style supply).run before = .error (.failed fault []) before := by
  rw [run_render]
  unfold assemble
  rw [refused]
  rfl

theorem render_cases {bundle : Bundle} {items : List Export} (exported : bundle.exports = .ok items)
    (supply : Supplier σ) (before : Emitting σ) :
    match (bundle.render ledger style supply).run before with
    | .ok code after => ∃ bodies last,
        Written ledger style supply items { state := before.state } bodies last ∧
        code = .text "\"use strict\";" ++ style.lineEnd ++
          .concat (List.zipWith (Export.block style) items bodies) ∧
        after = { before with state := last.state }
    | .error stop after => ∃ done item rest bodies middle cause last,
        items = done ++ item :: rest ∧
        Written ledger style supply done { state := before.state } bodies middle ∧
        Breaks ledger style supply item middle cause last ∧ stop = cause.bare ∧
        after = { before with state := last.state } := by
  have cases := exportBlocks_cases ledger style supply items { state := before.state }
  rw [run_render]
  unfold assemble
  rw [exported]
  simp only [EStateM.run_bind]
  cases run : (exportBlocks ledger style supply items).run { state := before.state } with
  | ok code last =>
      rw [run] at cases
      obtain ⟨bodies, written, rfl⟩ := cases
      exact ⟨bodies, last, written, rfl, rfl⟩
  | error cause last =>
      rw [run] at cases
      obtain ⟨done, item, rest, bodies, middle, items, written, breaks⟩ := cases
      exact ⟨done, item, rest, bodies, middle, cause, last, items, written, breaks, rfl, rfl⟩

/-! ### What the exports declare together -/

/-- The emissions of the exports, which are otherwise like a given one. -/
def calls (call : Emission.Call σ) (items : List Export) : List (Emission.Call σ) :=
  items.map fun item => { call with selection := .ofList [item.entry] }

variable (call : Emission.Call σ) {items : List Export} {bodies : List Fragment}
  {before after : Emitting (Noted σ)}

theorem mem_selection_calls {handle : Handle} :
    (∃ each ∈ calls call items, handle ∈ each.selection.toList) ↔
      ∃ item ∈ items, item.entry = handle := by
  unfold calls
  simp only [List.mem_map, exists_exists_and_eq_and, Selection.mem_toList_ofList,
    List.mem_singleton]
  simp only [eq_comm]

/-- Exports are written by emissions that share a tracker. -/
theorem runAll_of_written
    (written : Written call.ledger call.style call.supplier items before bodies after) :
    Emission.Call.runAll (calls call items) before = (bodies.map .ok, after) := by
  induction written with
  | nil st => rfl
  | @cons item rest before middle after body bodies admissible declared written ih =>
      have ran : { call with selection := .ofList [item.entry] : Emission.Call σ }.run before =
          .ok body middle := declared
      refine (Emission.Call.runAll_cons_of_ok ran (calls call rest)).trans ?_
      rw [ih]
      rfl

/-- Calls that all end well come to the blocks that are laid. -/
theorem blocks_of_declares {seen : Set Handle} {laid : List (List Piece)} {done : List Handle}
    (declares : Emission.Call.Declares seen (calls call items) (bodies.map .ok) laid done) :
    bodies = laid.map call.style.spellBlock := by
  induction items generalizing seen bodies laid done with
  | nil =>
      cases bodies with
      | nil =>
          cases declares
          rfl
      | cons body bodies => exact absurd declares.length (by simp [calls])
  | cons item rest ih =>
      cases bodies with
      | nil => exact absurd declares.length (by simp [calls])
      | cons body bodies =>
          cases declares with
          | ok lays declares => exact congrArg (_ :: ·) (ih declares)

/-- The exports that are written declare every name once: those of the exports, and those
that suppliers selected. -/
theorem Written.once (handed : call.Handed) {noted : Noted σ}
    (written : Written call.ledger call.style call.supplier items { state := noted } bodies
      after) :
    ∃ (laid : List (List Piece)) (notes : List Note), bodies = laid.map call.style.spellBlock ∧
      Emission.Call.Declares ∅ (calls call items) (bodies.map .ok) laid after.journal ∧
      after.state.notes = noted.notes ++ notes ∧
      after.journal.Nodup ∧
      (∀ handle, handle ∈ after.journal ↔
        (∃ item ∈ items, item.entry = handle) ∨ Note.Selected notes handle) ∧
      (∀ handle, after.tracker.progress? handle =
        if handle ∈ after.journal then some .completed else none) ∧
      (laid.flatten.map Piece.name).Sublist after.journal ∧
      ∀ handle ∈ after.journal,
        handle ∈ laid.flatten.map Piece.name ∨ Note.Selected notes handle := by
  have ours : ∀ each ∈ calls call items, each.Handed := by
    intro each among
    obtain ⟨item, -, rfl⟩ := List.mem_map.mp among
    exact handed
  have good : ∀ result ∈ bodies.map Except.ok, ∃ block, result = Except.ok (ε := Stop) block := by
    intro result among
    obtain ⟨body, -, rfl⟩ := List.mem_map.mp among
    exact ⟨body, rfl⟩
  have ran := runAll_of_written call written
  obtain ⟨nodup, -⟩ := Emission.Call.journal_runAll ours noted
  have completed := Emission.Call.completed_runAll ours noted
  obtain ⟨laid, done, declares, journal, included, others⟩ :=
    Emission.Call.declares_runAll ours { state := noted }
  rw [ran] at nodup completed declares journal others
  rw [Emission.Call.known_of_empty] at declares
  obtain ⟨notes, more, selected, progress, -⟩ := completed good
  obtain ⟨notes', more', others⟩ := others good
  obtain rfl : notes = notes' := List.append_cancel_left (more.symm.trans more')
  rw [List.nil_append] at journal
  subst journal
  refine ⟨laid, notes, blocks_of_declares call declares, declares, more, nodup, ?_, progress,
    included, others⟩
  intro handle
  rw [selected, mem_selection_calls]

end Modules

/-- **What a module consists of.** Take the bundle that any steps lead to. Without steps, and
with steps of both kinds, it is refused: whatever the supplier, nothing is emitted and no
state changes. Otherwise the exports that count are written one after the other with one
tracker that is empty at first, and nothing of this tracker is left afterwards. If one of
them breaks off, because its name is no word or, if it is one, because its declarations
fail, the module fails with the first such fault, with what was done in front of it done; this
is the fault of a module without exports or with both kinds only if the supplier was asked for
the name of that export and failed with it. If none does, the code of the module is the
directive followed by the exports, each with its declarations. With a supplier that follows
recipes, which emit with the tracker they were handed, these hold every name once: the names
of the exports, and those that the supplier selected. -/
theorem module_of_steps (ledger : Ledger) (style : Style) (steps : List Export) :
    (∀ (σ : Type) (supply : Supplier σ) (before : Emitting σ),
      let result := ((ofSteps steps).render ledger style supply).run before
      (steps = [] → result = .error (.failed .noExports []) before) ∧
      (Mixed steps → result = .error (.failed .mixedExports []) before) ∧
      (steps ≠ [] → ¬ Mixed steps → match result with
        | .ok code after => ∃ bodies last,
            Written ledger style supply (kept steps) { state := before.state } bodies last ∧
            code = .text "\"use strict\";" ++ style.lineEnd ++
              .concat (List.zipWith (Export.block style) (kept steps) bodies) ∧
            after = { before with state := last.state }
        | .error stop after => ∃ done item rest bodies middle cause last,
            kept steps = done ++ item :: rest ∧
            Written ledger style supply done { state := before.state } bodies middle ∧
            Breaks ledger style supply item middle cause last ∧ stop = cause.bare ∧
            after = { before with state := last.state } ∧
            ∀ fault during, cause = .failed fault during →
              fault = .noExports ∨ fault = .mixedExports →
              ∃ inner, (supply item.entry).run (middle.begin item.entry) =
                .error (.failed fault inner) last)) ∧
    ∀ (σ : Type) (recipes? : Option (Recipes σ)) (depth : Nat),
      let call : Emission.Call σ := ⟨ledger, style, ∅, recipes?, depth⟩
      call.Handed → ∀ (before after : Emitting (Noted σ)) (code : Fragment),
      ((ofSteps steps).render ledger style call.supplier).run before = .ok code after →
      ∃ (laid : List (List Piece)) (last : Emitting (Noted σ)) (notes : List Note),
        Written ledger style call.supplier (kept steps) { state := before.state }
          (laid.map style.spellBlock) last ∧
        code = .text "\"use strict\";" ++ style.lineEnd ++
          .concat (List.zipWith (Export.block style) (kept steps) (laid.map style.spellBlock)) ∧
        Emission.Call.Declares ∅ (calls call (kept steps))
          ((laid.map style.spellBlock).map .ok) laid last.journal ∧
        last.state.notes = before.state.notes ++ notes ∧
        last.journal.Nodup ∧
        (∀ handle, handle ∈ last.journal ↔
          (∃ item ∈ kept steps, item.entry = handle) ∨ Note.Selected notes handle) ∧
        (∀ handle, last.tracker.progress? handle =
          if handle ∈ last.journal then some .completed else none) ∧
        (laid.flatten.map Piece.name).Sublist last.journal ∧
        ∀ handle ∈ last.journal,
          handle ∈ laid.flatten.map Piece.name ∨ Note.Selected notes handle := by
  refine ⟨fun σ supply before => ⟨?_, ?_, ?_⟩, ?_⟩
  · rintro rfl
    exact run_render_of_refused ledger style rfl supply before
  · intro mixed
    exact run_render_of_refused ledger style (exports_ofSteps_of_mixed mixed) supply before
  · intro occupied pure
    have cases := render_cases ledger style (exports_ofSteps occupied pure) supply before
    cases run : ((ofSteps steps).render ledger style supply).run before with
    | ok code after =>
        rw [run] at cases
        exact cases
    | error stop after =>
        rw [run] at cases
        obtain ⟨done, item, rest, bodies, middle, cause, last, split, written, breaks, same,
          left⟩ := cases
        refine ⟨done, item, rest, bodies, middle, cause, last, split, written, breaks, same, left,
          ?_⟩
        rintro fault during rfl refusal
        exact breaks.of_refusal refusal
  · intro σ recipes? depth call handed before after code run
    -- a bundle that is rendered has exports of one kind
    have exported : (ofSteps steps).exports = .ok (kept steps) := by
      cases exported : (ofSteps steps).exports with
      | error fault =>
          rw [run_render_of_refused ledger style exported] at run
          exact absurd run (by simp)
      | ok items =>
          by_cases occupied : steps = []
          · subst occupied
            exact absurd exported (by simp [ofSteps, exports])
          · by_cases mixed : Mixed steps
            · rw [exports_ofSteps_of_mixed mixed] at exported
              exact absurd exported (by simp)
            · rw [← exported, exports_ofSteps occupied mixed]
    have cases := render_cases ledger style exported call.supplier before
    rw [run] at cases
    obtain ⟨bodies, last, written, made, -⟩ := cases
    obtain ⟨laid, notes, rfl, once⟩ := Written.once call handed written
    exact ⟨laid, last, notes, written, made, once⟩

/-- Two functions that need each other and a value, exported by name, the first of them
twice. -/
theorem module_of_mutual_needs :
    let first : Handle := ⟨0, ⟨"f0"⟩, "f"⟩
    let second : Handle := ⟨1, ⟨"g0"⟩, "g"⟩
    let equal : Handle := ⟨2, ⟨"e0"⟩, "e"⟩
    let ledger := ((Ledger.bind {} first ⟨.inline none, ⟨"f", 0⟩⟩).bind second
      ⟨.inline none, ⟨"g", 0⟩⟩).bind equal ⟨(Value.inline none).withCode (.text "eq"), ⟨"e", 0⟩⟩
    let recipes : Recipes Unit := fun handle _ _ =>
      .emit { style := {}, selection := .ofList [equal, if handle = first then second else first] }
        () fun _ _ _ => .add (.ident handle.ident) (.finish ())
    let steps : List Export := [.named "user" first, .named "info" second, .named "_u" first]
    let call : Emission.Call Unit := ⟨ledger, {}, ∅, some recipes, 3⟩
    let rendered := ((ofSteps steps).render ledger {} call.supplier).run
      { state := { state := () } }
    call.Handed ∧ ∃ code after, rendered = .ok code after ∧
      code.render =
        "\"use strict\";exports.user = f0;const e0 = eq;g0f0exports.info = g0;exports._u = f0;" ∧
      ∃ (laid : List (List Piece)) (last : Emitting (Noted Unit)),
        Written ledger {} call.supplier steps { state := { state := () } }
          (laid.map (Style.spellBlock {})) last ∧
        Emission.Call.Declares ∅ (calls call steps) ((laid.map (Style.spellBlock {})).map .ok)
          laid last.journal ∧
        last.journal = [equal, second, first] ∧ last.journal.Nodup ∧
        (laid.flatten.map Piece.name).Sublist last.journal := by
  intro first second equal ledger recipes steps call rendered
  have handed : call.Handed := by
    intro recipes' served handle tracker state
    obtain rfl : recipes = recipes' := Option.some.inj served
    exact ⟨rfl, fun _ _ _ => trivial⟩
  obtain ⟨-, declares⟩ := module_of_steps ledger {} steps
  have text : Emission.rendered? rendered = some
      "\"use strict\";exports.user = f0;const e0 = eq;g0f0exports.info = g0;exports._u = f0;" := by
    decide +kernel
  have journal : (Emission.Call.runAll (calls call steps)
      { state := { state := () } }).2.journal = [equal, second, first] := by
    decide +kernel
  obtain ⟨code, after, run, text⟩ := Emission.ok_of_rendered? text
  obtain ⟨laid, last, notes, written, -, declared, -, nodup, -, -, included, -⟩ :=
    declares Unit (some recipes) 3 handed { state := { state := () } } after code run
  rw [show kept steps = steps from rfl] at written declared
  rw [runAll_of_written call written] at journal
  exact ⟨handed, code, after, run, text, laid, last, written, declared, journal, nodup, included⟩

/-- A supplier may return the fault of a module without exports, and it is handed on. -/
theorem refusal_of_supplier :
    let entry : Handle := ⟨0, ⟨"f0"⟩, "f"⟩
    let ledger := Ledger.bind {} entry ⟨.inline none, ⟨"f", 0⟩⟩
    let supply : Supplier Unit := fun _ => EmitM.fail .noExports
    let steps : List Export := [.named "x" entry]
    ¬ ((∃ after, ((ofSteps steps).render ledger {} supply).run { state := () } =
      .error (.failed .noExports []) after) ↔ steps = []) := by
  intro entry ledger supply steps same
  exact absurd (same.mp ⟨_, rfl⟩) (by simp [steps])

end Bundle

end NameScope
