import NameScope.Proofs.Concatenation
import NameScope.Proofs.Emission

/-!
# The texts of declarations

What a declaration looks like, item by item: a variable with its code, a variable with what
a `require` call loads, an `import` statement, or a read from a store. `Ledger.spelled?` is
the declaration that a name has by its own value, and `Style.spellBlock` puts a block
together from pieces.

The emitter has functions of its own for these forms. Theorems about generated code are
stated with the ones below, which share nothing with the emitter's but the fragments that
they are made of, and the equations of this module lead from one to the other.
-/

namespace NameScope

/-- Both parts of the import are there. -/
def Import.Complete (source : Import) : Prop := source.package ≠ "" ∧ source.binding ≠ ""

instance (source : Import) : Decidable source.Complete :=
  inferInstanceAs (Decidable (_ ∧ _))

theorem Import.isUsable_iff (source : Import) : source.isUsable = true ↔ source.Complete := by
  unfold isUsable Complete
  simp

namespace Style

variable (style : Style) (name : Ident)

/-- What ends a declaration: a line break or nothing. -/
def lineEnd : Fragment := if style.lines then .text "\n" else ∅

/-- A variable with its code: `const name = code;`, or the same with `var`. -/
def spellCode (code : Fragment) : Fragment :=
  .concat [.text (if style.es5 then "var " else "const "), .ident name, .text " = ", code,
    .text ";"]

/-- An import: `import {binding as name} from "package.js";` among modules, and else
`const name = require("package").binding;`, or the same with `var`. -/
def spellImport (source : Import) : Fragment :=
  if style.esm then
    .concat [.text ("import \x7b" ++ source.binding ++ " as "), .ident name, .text "\x7d from ",
      .literal (source.package ++ ".js"), .text ";"]
  else
    .concat [.text (if style.es5 then "var " else "const "), .ident name, .text " = require(",
      .literal source.package, .text (")." ++ source.binding ++ ";")]

/-- A read from a store: `const name = store.stem[index];`, or the same with `var`. -/
def spellRead (store : Ident) (slot : Slot) : Fragment :=
  style.spellCode name (.ident store ++
    .text ("." ++ slot.stem ++ "[" ++ toString slot.index ++ "]"))

/-- The codes of pieces one after another, each with its end. -/
def spellBlock (pieces : List Piece) : Fragment :=
  .concat (pieces.map fun piece => piece.code ++ style.lineEnd)

theorem separator_eq_lineEnd : style.separator = style.lineEnd := rfl

theorem block_eq_spellBlock (pieces : List Piece) :
    style.block pieces = style.spellBlock pieces := rfl

theorem text_keyword :
    style.keyword.text ++ " " = if style.es5 then "var " else "const " := by
  unfold keyword
  cases style.es5 with
  | true => rfl
  | false => rfl

theorem declare_eq_spellCode (code : Fragment) :
    style.declare name code = style.spellCode name code := by
  unfold declare spellCode
  rw [text_keyword]
  simp only [Fragment.concat, Fragment.append_empty, Fragment.append_assoc]

theorem load_eq_spellImport (source : Import) :
    style.load name source = style.spellImport name source := by
  unfold load spellImport
  rw [text_keyword]
  split
  · simp only [Fragment.concat, Fragment.append_empty, Fragment.append_assoc]
  · simp only [Fragment.concat, Fragment.append_empty, Fragment.append_assoc]

theorem declare_eq_spellRead (store : Ident) (slot : Slot) :
    style.declare name (.ident store ++ slot.access) = style.spellRead name store slot :=
  style.declare_eq_spellCode name _

end Style

/-- The text of the block that came of an emission, if one did. -/
def Emission.rendered? {σ : Type} : EStateM.Result Stop (Emitting σ) Fragment → Option String
  | .ok block _ => some block.render
  | .error _ _ => none

theorem Emission.ok_of_rendered? {σ : Type} {result : EStateM.Result Stop (Emitting σ) Fragment}
    {text : String} (rendered : rendered? result = some text) :
    ∃ block after, result = .ok block after ∧ block.render = text := by
  cases result with
  | ok block after => exact ⟨block, after, rfl, Option.some.inj rendered⟩
  | error stop after => cases rendered

/-- The declaration that a name has by its own value: with the value's code, or by an import
that is complete. -/
def Ledger.spelled? (ledger : Ledger) (style : Style) (handle : Handle) : Option Fragment :=
  match ledger.binding? handle with
  | none => none
  | some binding =>
    match binding.value.kind with
    | .inline code? => code?.map (style.spellCode handle.ident)
    | .imported source =>
      if source.Complete then some (style.spellImport handle.ident source) else none

/-- The emitter declares just these names by itself, and declares them so. -/
theorem Emission.ready?_eq_spelled? (ledger : Ledger) (style : Style) (handle : Handle) :
    Emission.ready? ledger style handle = ledger.spelled? style handle := by
  unfold Emission.ready? Ledger.spelled? Value.origin
  cases ledger.binding? handle with
  | none => rfl
  | some binding =>
      cases kind : binding.value.kind with
      | inline code? =>
          cases code? with
          | none => simp only [kind, Option.map_none]
          | some code => simp only [kind, Option.map_some, Style.declare_eq_spellCode]
      | imported source =>
          by_cases usable : source.isUsable = true
          · have complete := source.isUsable_iff.mp usable
            simp only [kind, usable, complete, if_true, Style.load_eq_spellImport]
          · have incomplete := mt source.isUsable_iff.mpr usable
            simp only [kind, usable, incomplete, if_false, Bool.false_eq_true]

namespace Emission

variable {σ : Type} {ledger : Ledger} {style : Style} {supply : Supplier σ} {handle : Handle}

theorem code_of_spelled {fragment : Fragment}
    (spelled : ledger.spelled? style handle = some fragment) :
    code ledger style supply handle = pure fragment :=
  code_of_ready ((ready?_eq_spelled? ledger style handle).trans spelled)

/-- The supplier has to give the code of every other bound name. -/
theorem code_of_unspelled {binding : Binding} (bound : ledger.binding? handle = some binding)
    (unspelled : ledger.spelled? style handle = none) :
    code ledger style supply handle = supply handle >>= demand handle binding.value :=
  code_of_missing bound ((ready?_eq_spelled? ledger style handle).trans unspelled)

/-- The pieces of an emission that ends well are the declarations of their names, where there
are any. -/
theorem Lists.spelled {handles : List Handle} {before after : Emitting σ} {emitted : List Piece}
    (lists : Lists ledger style supply handles before emitted after) :
    ∀ piece ∈ emitted, ∀ code, ledger.spelled? style piece.name = some code →
      piece.code = code := by
  intro piece held code spelled
  exact lists.ready piece held code ((ready?_eq_spelled? ledger style piece.name).trans spelled)

end Emission

/-! ## Reads of slots -/

/-- The first of the names that is not bound. -/
def Ledger.firstUnbound? (ledger : Ledger) (handles : List Handle) : Option Handle :=
  handles.find? fun handle => (ledger.binding? handle).isNone

namespace Emission

variable {ledger : Ledger} {handle : Handle}

theorem slotRead_of_unbound (style : Style) (store : Ident)
    (unbound : ledger.binding? handle = none) :
    slotRead ledger style store handle = .error (.unbound handle.text) := by
  unfold slotRead
  rw [unbound]

theorem slotRead_of_bound (style : Style) (store : Ident) {binding : Binding}
    (bound : ledger.binding? handle = some binding) :
    slotRead ledger style store handle =
      .ok ⟨handle, style.spellRead handle.ident store binding.slot⟩ := by
  unfold slotRead
  rw [bound]
  simp only [Style.declare_eq_spellRead]

theorem firstUnbound?_eq_none {handles : List Handle}
    (bound : ∀ handle ∈ handles, ∃ binding, ledger.binding? handle = some binding) :
    ledger.firstUnbound? handles = none := by
  unfold Ledger.firstUnbound?
  rw [List.find?_eq_none]
  intro handle held
  obtain ⟨binding, here⟩ := bound handle held
  rw [here]
  simp

/-- The reads of slots of names fail at the first name that is not bound; if there is none,
the names are declared in order, each as a read of its slot. -/
theorem mapM_slotRead (ledger : Ledger) (style : Style) (store : Ident)
    (handles : List Handle) :
    (∀ handle, ledger.firstUnbound? handles = some handle →
      handles.mapM (slotRead ledger style store) = .error (.unbound handle.text)) ∧
    (ledger.firstUnbound? handles = none →
      ∃ pieces, handles.mapM (slotRead ledger style store) = .ok pieces ∧
        pieces.map Piece.name = handles ∧
        ∀ piece ∈ pieces, ∃ binding, ledger.binding? piece.name = some binding ∧
          piece.code = style.spellRead piece.name.ident store binding.slot) := by
  induction handles with
  | nil => exact ⟨nofun, fun _ => ⟨[], rfl, rfl, fun piece held => absurd held List.not_mem_nil⟩⟩
  | cons first rest ih =>
      unfold Ledger.firstUnbound? at ih ⊢
      rw [List.mapM_cons, List.find?_cons]
      cases bound : ledger.binding? first with
      | none =>
          rw [slotRead_of_unbound style store bound]
          refine ⟨?_, nofun⟩
          rintro handle ⟨⟩
          rfl
      | some binding =>
          rw [slotRead_of_bound style store bound]
          refine ⟨fun handle found => ?_, fun all => ?_⟩
          · rw [ih.1 handle found]
            rfl
          · obtain ⟨pieces, read, names, reads⟩ := ih.2 all
            rw [read]
            exact ⟨_ :: pieces, rfl, congrArg (first :: ·) names,
              List.forall_mem_cons.mpr ⟨⟨binding, bound, rfl⟩, reads⟩⟩

/-- Likewise for the block of a selection. -/
theorem slotReads_spec (ledger : Ledger) (style : Style) (store : Ident)
    (selection : Selection) :
    (∀ handle, ledger.firstUnbound? selection.toList = some handle →
      slotReads ledger style store selection = .error (.unbound handle.text)) ∧
    (ledger.firstUnbound? selection.toList = none →
      ∃ pieces, slotReads ledger style store selection = .ok (style.spellBlock pieces) ∧
        pieces.map Piece.name = selection.toList ∧
        ∀ piece ∈ pieces, ∃ binding, ledger.binding? piece.name = some binding ∧
          piece.code = style.spellRead piece.name.ident store binding.slot) := by
  obtain ⟨failing, reading⟩ := mapM_slotRead ledger style store selection.toList
  unfold slotReads
  refine ⟨fun handle found => ?_, fun all => ?_⟩
  · rw [failing handle found]
    rfl
  · obtain ⟨pieces, read, rest⟩ := reading all
    rw [read]
    exact ⟨pieces, rfl, rest⟩

end Emission

end NameScope
