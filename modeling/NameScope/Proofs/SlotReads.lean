import NameScope.Proofs.Addressing
import NameScope.Proofs.Agreement
import NameScope.Proofs.Grouping
import NameScope.Proofs.Spelling

/-!
# Reads of slots and declarations

There are two ways of putting the names of a registry into a block: each can be declared as
a read of its slot, or with its own code. The reads always come about, and they lead to the
references of the values although the table may have other writers
(`Session.reads_of_registry`). Declarations with code can fail, as values may lack it; when
they do not, and suppliers do not emit names themselves (`Supplier.Quiet`), they declare the
same names in the same order.
-/

namespace NameScope

/-! ## Suppliers that emit no names -/

/-- The supplier tracks no name that was not tracked. -/
def Supplier.Quiet {σ : Type} (supply : Supplier σ) : Prop :=
  ∀ handle st code? after, (supply handle).run st = .ok code? after → after.known ⊆ st.known

section Quiet

variable {σ : Type} {ledger : Ledger} {style : Style}

/-- The recipe asks for no emission. -/
def Recipe.Plain : Recipe σ → Prop
  | .decline _ | .fail _ _ | .finish _ => True
  | .add _ rest => rest.Plain
  | .emit _ _ _ => False

theorem Recipe.Plain.tracker_eq {recipe : Recipe σ} (plain : recipe.Plain)
    {emit : Errand → EmitM (Noted σ) Fragment} {code : Fragment} {code? : Option Fragment}
    {st after : Emitting (Noted σ)} (run : (recipe.follow emit code).run st = .ok code? after) :
    after.tracker = st.tracker := by
  induction recipe generalizing code with
  | decline state => cases run; rfl
  | fail fault state => cases run
  | finish state => cases run; rfl
  | add more rest ih => exact ih plain run
  | emit errand state resume ih => exact absurd plain id

/-- Suppliers that do not emit are quiet. -/
theorem quiet_of_plain {recipes : Recipes σ}
    (plain : ∀ handle tracker state, (recipes handle tracker state).Plain) (depth : Nat) :
    (recipes.supplier ledger depth).Quiet := by
  intro handle st code? after run
  cases depth with
  | zero => cases run
  | succ depth =>
      rw [Recipes.run_supplier] at run
      have same := (plain handle _ _).tracker_eq run
      unfold Emitting.known
      rw [same]

namespace Emission

theorem known_of_run_code {supply : Supplier σ} (quiet : supply.Quiet) {handle : Handle}
    {st after : Emitting σ} {fragment : Fragment}
    (run : (code ledger style supply handle).run st = .ok fragment after) :
    after.known ⊆ st.known := by
  rcases ok_code_cases run with ⟨-, rfl⟩ | ⟨-, -, supplied⟩
  · exact subset_rfl
  · exact quiet handle st _ after supplied

/-- With a quiet supplier all names that are not tracked at first have pieces. -/
theorem Lists.names_of_quiet {supply : Supplier σ} (quiet : supply.Quiet)
    {handles : List Handle} {before after : Emitting σ} {emitted : List Piece}
    (lists : Lists ledger style supply handles before emitted after) (nodup : handles.Nodup)
    (untracked : ∀ handle ∈ handles, handle ∉ before.known) :
    emitted.map Piece.name = handles := by
  induction lists with
  | nil => rfl
  | skip tracked lists ih =>
      exact absurd (Tracker.tracks_iff.mp tracked) (untracked _ List.mem_cons_self)
  | @emit handle rest st middle after fragment later fresh coded lists ih =>
      rw [List.nodup_cons] at nodup
      have known : (middle.finish handle).known ⊆ insert handle st.known := by
        rw [Emitting.known_finish, ← Emitting.known_begin (Tracker.tracks_eq_false_iff.mp fresh)]
        exact known_of_run_code quiet coded
      refine congrArg (handle :: ·) (ih nodup.2 fun other held tracked => ?_)
      rcases known tracked with rfl | early
      · exact nodup.1 held
      · exact untracked other (List.mem_cons_of_mem _ held) early

end Emission

end Quiet

/-! ## Reads of slots -/

/-- The piece declares its name as a read from `store`, at an index under the name's stem
where the table holds the reference of the name's value. -/
def Piece.Reads (ledger : Ledger) (table : Nat) (style : Style) (store : Ident)
    (piece : Piece) : Prop :=
  ∃ binding ref index, ledger.binding? piece.name = some binding ∧
    binding.value.ref? = some ref ∧
    (ledger.table table).get? piece.name.stem index = some ref ∧
    piece.code = style.spellRead piece.name.ident store ⟨piece.name.stem, index⟩

namespace Session

/-- **Reads of a registry's names.** After any run, take a registry, which may share its
table with others.

The block that reads the slots of all its names comes about, whatever the store is called.
It declares the names that the registry has bound, each once and in their order, and every
declaration reads the place of the table that holds the reference of its name. A block of
declarations with code, which starts without tracked names and whose supplier is quiet,
declares the same names in the same order if it comes about.

The reads of any other selection fail at its first name that is not bound; if there is none,
they declare the selected names. -/
theorem reads_of_registry (operations : List Operation) (number : Nat) (registry : Registry)
    (here : (run {} operations).2.registries[number]? = some registry) :
    let ledger := (run {} operations).2.ledger
    let style := registry.style
    (∀ store, ∃ pieces,
      Emission.slotReads ledger style store registry.selection = .ok (style.spellBlock pieces) ∧
      pieces.map Piece.name = registry.selection.toList ∧
      (∀ piece ∈ pieces, piece.Reads ledger registry.table style store)) ∧
    registry.selection.toList.Nodup ∧
    (∀ handle, handle ∈ registry.selection.toList ↔
      ∃ stem key, registry.find? stem key = some handle) ∧
    (∀ (σ : Type) (supply : Supplier σ), supply.Quiet → ∀ (state : σ) block after,
      (Emission.declarations ledger style supply registry.selection).run { state } =
        .ok block after →
      ∃ pieces,
        (Emission.pieces ledger style supply registry.selection.toList).run { state } =
          .ok pieces after ∧
        block = style.spellBlock pieces ∧ pieces.map Piece.name = registry.selection.toList ∧
        ∀ piece ∈ pieces, ∀ code, ledger.spelled? style piece.name = some code →
          piece.code = code) ∧
    ∀ store (selection : Selection),
      (∀ handle, ledger.firstUnbound? selection.toList = some handle →
        Emission.slotReads ledger style store selection = .error (.unbound handle.text)) ∧
      (ledger.firstUnbound? selection.toList = none → ∃ pieces,
        Emission.slotReads ledger style store selection = .ok (style.spellBlock pieces) ∧
        pieces.map Piece.name = selection.toList ∧
        ∀ piece ∈ pieces, ∃ binding, ledger.binding? piece.name = some binding ∧
          piece.code = style.spellRead piece.name.ident store binding.slot) := by
  intro ledger style
  have among := List.mem_of_getElem? here
  have grouped : registry.Grouped ledger := grouped_run operations registry among
  have nodup := registry.selection.nodup_toList
  refine ⟨?_, nodup, ?_, ?_, ?_⟩
  · intro store
    obtain ⟨pieces, block, names, reads⟩ :=
      (Emission.slotReads_spec ledger style store registry.selection).2
        (Emission.firstUnbound?_eq_none fun handle held =>
          grouped.bound (Registry.mem_toList_selection.mp held))
    refine ⟨pieces, block, names, fun piece held => ?_⟩
    have listed : piece.name ∈ registry.selection.toList := names ▸ List.mem_map_of_mem held
    obtain ⟨binding, bound, code⟩ := reads piece held
    obtain ⟨binding', ref, bound', stem, present, entry⟩ :=
      (addressed_run operations).addresses _ _ _ ⟨rfl, registry, among, rfl, listed⟩
    obtain rfl : binding = binding' := Option.some.inj (bound.symm.trans bound')
    refine ⟨binding, ref, binding.slot.index, bound, present, stem ▸ entry, ?_⟩
    rw [code, ← stem]
  · intro handle
    rw [Registry.mem_toList_selection, Registry.mem_handles_iff]
  · intro σ supply quiet state block after run
    obtain ⟨pieces, emitted, made⟩ := Emission.pieces_of_run_declarations run
    have lists := Emission.lists_of_run_pieces emitted
    refine ⟨pieces, emitted, made, lists.names_of_quiet quiet nodup ?_, lists.spelled⟩
    intro handle held tracked
    exact tracked rfl
  · exact fun store selection => Emission.slotReads_spec ledger style store selection

/-- Two registries write to one table. The second holds a name of the first one besides its
own, which has no code but what a supplier gives, and it has given out a name that is not
bound. -/
theorem reads_of_registry_of_shared_table :
    let value (id : Nat) : Value := (Value.inline (some ⟨id, .unit⟩)).withCode (.text "1")
    let operations : List Operation := [.openRegistry 0 {} {}, .openRegistry 0 {} {},
      .registerNew 0 "p" (value 0), .newName 0 "q", .registerName 1 1 (value 1),
      .registerNew 1 "p" (.inline (some ⟨2, .unit⟩)), .newName 1 "r"]
    let session := (run {} operations).2
    let unbound : Handle := ⟨3, ⟨"r0"⟩, "r"⟩
    let recipes : Recipes Unit := fun handle _ _ => .add (.ident handle.ident) (.finish ())
    let supply := recipes.supplier session.ledger 1
    ∃ registry pieces block after, session.registries[1]? = some registry ∧
      Emission.slotReads session.ledger registry.style ⟨"s"⟩ registry.selection =
        .ok (registry.style.spellBlock pieces) ∧
      (registry.style.spellBlock pieces).render = "const q0 = s.q[0];const p0 = s.p[1];" ∧
      (∀ piece ∈ pieces, piece.Reads session.ledger registry.table registry.style ⟨"s"⟩) ∧
      (Emission.declarations session.ledger registry.style supply registry.selection).run
        { state := { state := () } } = .ok block after ∧
      block.render = "const q0 = 1;p0" ∧
      (∃ pieces', block = registry.style.spellBlock pieces' ∧
        pieces'.map Piece.name = pieces.map Piece.name) ∧
      Emission.slotReads session.ledger registry.style ⟨"s"⟩
        (.ofList (registry.selection.toList ++ [unbound])) = .error (.unbound "r0") := by
  intro value operations session unbound recipes supply
  let registry : Registry := session.registries[1]?.getD default
  have opened : session.registries[1]? = some registry := by decide +kernel
  obtain ⟨reads, -, -, declares, selecting⟩ := reads_of_registry operations 1 registry opened
  obtain ⟨pieces, read, names, reads⟩ := reads ⟨"s"⟩
  have rendered : (Emission.slotReads session.ledger registry.style ⟨"s"⟩
      registry.selection).map Fragment.render =
        .ok "const q0 = s.q[0];const p0 = s.p[1];" := by
    decide +kernel
  rw [read] at rendered
  have failing : Emission.slotReads session.ledger registry.style ⟨"s"⟩
      (.ofList (registry.selection.toList ++ [unbound])) = .error (.unbound unbound.text) :=
    (selecting ⟨"s"⟩ _).1 unbound (by decide +kernel)
  have plain : ∀ handle tracker state, (recipes handle tracker state).Plain :=
    fun _ _ _ => trivial
  have rendered' : Emission.rendered? ((Emission.declarations session.ledger registry.style
      supply registry.selection).run { state := { state := () } }) = some "const q0 = 1;p0" := by
    decide +kernel
  obtain ⟨block, after, run, rendered'⟩ := Emission.ok_of_rendered? rendered'
  obtain ⟨pieces', -, made, names', -⟩ :=
    declares _ supply (quiet_of_plain plain 1) _ block after run
  exact ⟨registry, pieces, block, after, opened, read, Except.ok.inj rendered, reads, run,
    rendered', ⟨pieces', made, names'.trans names.symm⟩, failing⟩

end Session

end NameScope
