import NameScope.Proofs.Composition

/-!
# Every name is declared once

`Emission.Call.runAll` runs emissions one after the other with one tracker, which
is how a program shares what it has declared among several blocks. The blocks are
put together from declarations, those of inner emissions included, and the journal
lists the names that are declared in them (`Emission.Call.Declares`). Whatever the
calls select and whatever their suppliers emit in turn, with the tracker that
they were handed, no name is listed twice; and if no call fails, the listed
names are those that some call or some errand selected.
-/

namespace NameScope.Emission

/-- An emission that is asked for from outside, with or without a supplier. -/
structure Call (σ : Type) where
  ledger : Ledger
  style : Style
  selection : Selection
  recipes? : Option (Recipes σ)
  depth : Nat

namespace Call

variable {σ : Type}

def supplier (call : Call σ) : Supplier (Noted σ) :=
  match call.recipes? with
  | none => .none
  | some recipes => recipes.supplier call.ledger call.depth

def run (call : Call σ) : EmitM (Noted σ) Fragment :=
  declarations call.ledger call.style call.supplier call.selection

/-- Run calls one after the other, failed ones included. -/
def runAll : List (Call σ) → Emitting (Noted σ) →
    List (Except Stop Fragment) × Emitting (Noted σ)
  | [], st => ([], st)
  | call :: rest, st =>
    match call.run st with
    | .ok block st =>
      let (results, st) := runAll rest st
      (.ok block :: results, st)
    | .error stop st =>
      let (results, st) := runAll rest st
      (.error stop :: results, st)

/-- A call that succeeds hands its state on. -/
theorem runAll_cons_of_ok {call : Call σ} {st later : Emitting (Noted σ)} {block : Fragment}
    (ran : call.run st = .ok block later) (rest : List (Call σ)) :
    runAll (call :: rest) st = (.ok block :: (runAll rest later).1, (runAll rest later).2) := by
  simp only [runAll, ran]

/-- Suppliers emit with the tracker that they were handed. -/
def Handed (call : Call σ) : Prop :=
  ∀ recipes, call.recipes? = some recipes →
    ∀ handle tracker state, (recipes handle tracker state).Handed

/-- The calls, one after the other, come to the results. Where they begin, the names in `seen`
are tracked. The block of a call that ends well consists of the pieces laid for it, and the
names that are listed for it are those declared in the block, by these pieces or inside them.
A call that fails leaves no block; it may have declared names before. -/
inductive Declares : Set Handle → List (Call σ) → List (Except Stop Fragment) →
    List (List Piece) → List Handle → Prop
  | nil {seen : Set Handle} : Declares seen [] [] [] []
  | ok {seen : Set Handle} {call : Call σ} {rest : List (Call σ)}
      {results : List (Except Stop Fragment)} {pieces : List Piece} {laid : List (List Piece)}
      {done later : List Handle} :
      Lays call.ledger call.recipes? true call.style seen call.selection.toList done pieces →
      Declares (seen ∪ {found | found ∈ done}) rest results laid later →
      Declares seen (call :: rest) (.ok (call.style.spellBlock pieces) :: results)
        (pieces :: laid) (done ++ later)
  | error {seen seen' : Set Handle} {call : Call σ} {rest : List (Call σ)} {stop : Stop}
      {results : List (Except Stop Fragment)} {laid : List (List Piece)}
      {done later : List Handle} : seen ∪ {found | found ∈ done} ⊆ seen' →
      Declares seen' rest results laid later →
      Declares seen (call :: rest) (.error stop :: results) ([] :: laid) (done ++ later)

theorem Declares.length {seen : Set Handle} {calls : List (Call σ)}
    {results : List (Except Stop Fragment)} {laid : List (List Piece)} {done : List Handle}
    (declares : Declares seen calls results laid done) : results.length = calls.length := by
  induction declares with
  | nil => rfl
  | ok lays declares ih => exact congrArg (· + 1) ih
  | error included declares ih => exact congrArg (· + 1) ih

theorem emits_supplier {call : Call σ} (handed : call.Handed) (handle : Handle) :
    Emits [] (call.supplier handle) := by
  unfold supplier
  cases served : call.recipes? with
  | none => exact emits_none handle
  | some recipes => exact NameScope.emits_supplier (handed recipes served) call.depth handle

theorem answers_supplier {call : Call σ} (handed : call.Handed) (handle : Handle) :
    Composes (Answers call.ledger call.recipes? true handle) (call.supplier handle) := by
  unfold supplier
  cases served : call.recipes? with
  | none => exact answers_none true handle
  | some recipes => exact Emission.answers_supplier (handed recipes served) call.depth handle

theorem emits_call {call : Call σ} (handed : call.Handed) :
    Emits call.selection.toList call.run :=
  emits_declarations (emits_supplier handed) call.selection

/-- An emission completes the names of the pieces that it puts together, in their
order, and besides these only names that suppliers selected. -/
theorem completed_of_run_pieces {ledger : Ledger} {style : Style} {supply : Supplier (Noted σ)}
    (supplied : ∀ handle, Emits [] (supply handle)) (handles : List Handle)
    {before after : Emitting (Noted σ)} {emitted : List Piece}
    (run : (pieces ledger style supply handles).run before = .ok emitted after) :
    ∃ done notes, after.journal = before.journal ++ done ∧
      after.state.notes = before.state.notes ++ notes ∧
      (emitted.map Piece.name).Sublist done ∧
      ∀ handle ∈ done, handle ∈ emitted.map Piece.name ∨ Note.Selected notes handle := by
  have lists := lists_of_run_pieces run
  clear run
  induction lists with
  | nil =>
      refine ⟨[], [], by simp, by simp, List.Sublist.refl _, ?_⟩
      intro handle held
      exact absurd held List.not_mem_nil
  | skip tracked lists ih => exact ih
  | @emit handle rest before middle after fragment later untracked coded lists ih =>
      -- what suppliers completed meanwhile stands in front of the name itself
      have inside := emits_code ledger style supplied handle (before.begin handle)
      rw [coded] at inside
      obtain ⟨⟨-, deeper, journal, -, among⟩, -, notes, noted, covered⟩ := inside
      obtain ⟨done, more, journal', noted', included, rest⟩ := ih
      refine ⟨deeper ++ handle :: done, notes ++ more, ?_, ?_, ?_, ?_⟩
      · rw [journal']
        show middle.journal ++ [handle] ++ done = _
        rw [journal]
        simp [Emitting.begin]
      · rw [noted', ← List.append_assoc]
        exact congrArg (· ++ more) noted
      · exact (included.cons_cons handle).trans (List.sublist_append_right deeper _)
      · intro other held
        rw [Note.selected_append, List.map_cons, List.mem_cons]
        rcases List.mem_append.mp held with early | held
        · obtain ⟨new, completed⟩ := (among other).mp early
          have tracked' := (covered other).mp (by simp [completed])
          rcases tracked' with old | none | selected
          · exact absurd new old
          · exact absurd none List.not_mem_nil
          · exact .inr (.inl selected)
        · rcases List.mem_cons.mp held with here | late
          · exact .inl (.inl here)
          · rcases rest other late with among | selected
            · exact .inl (.inr among)
            · exact .inr (.inr selected)

/-- What a sequence of calls does to the tracker they share. -/
theorem lawful_runAll {calls : List (Call σ)} (handed : ∀ call ∈ calls, call.Handed)
    (before : Emitting (Noted σ)) :
    before.Advances (runAll calls before).2 ∧
      ((∀ result ∈ (runAll calls before).1, ∃ block, result = .ok block) →
        before.LeavesOpen (runAll calls before).2 [] ∧
        Emitting.Covers (calls.flatMap (·.selection.toList)) before (runAll calls before).2) := by
  induction calls generalizing before with
  | nil => exact ⟨.refl before, fun _ => ⟨.refl before, .refl before⟩⟩
  | cons call rest ih =>
      have first := emits_call (handed call List.mem_cons_self) before
      have later := ih (fun call among => handed call (List.mem_cons_of_mem _ among))
      unfold runAll
      rw [EStateM.run] at first
      cases run : call.run before with
      | ok block middle =>
          rw [run] at first
          obtain ⟨advances, closed, covers⟩ := first
          obtain ⟨advances', further⟩ := later middle
          refine ⟨advances.trans advances', ?_⟩
          intro good
          obtain ⟨closed', covers'⟩ :=
            further (fun result among => good result (List.mem_cons_of_mem _ among))
          exact ⟨.trans advances advances' closed closed', covers.trans covers'⟩
      | error stop middle =>
          rw [run] at first
          refine ⟨first.advances.trans (later middle).1, ?_⟩
          -- a call has failed, so not all have ended well
          intro good
          obtain ⟨block, wrong⟩ := good (.error stop) List.mem_cons_self
          exact absurd wrong (by simp)

/-- A call that ends well puts its block together from pieces. Their names are completed in
the order of the pieces, and the other names that are completed were selected by the supplier. -/
theorem lays_of_run {call : Call σ} (handed : call.Handed) {before after : Emitting (Noted σ)}
    {block : Fragment} (ran : call.run.run before = .ok block after) :
    ∃ pieces done notes, block = call.style.spellBlock pieces ∧
      Lays call.ledger call.recipes? true call.style before.known call.selection.toList done
        pieces ∧
      after.journal = before.journal ++ done ∧
      after.known = before.known ∪ {found | found ∈ done} ∧
      after.state.notes = before.state.notes ++ notes ∧
      (pieces.map Piece.name).Sublist done ∧
      ∀ handle ∈ done, handle ∈ pieces.map Piece.name ∨ Note.Selected notes handle := by
  obtain ⟨emitted, listed, made⟩ := pieces_of_run_declarations ran
  obtain ⟨done, journal, known, lays⟩ :=
    composes_pieces (answers_supplier handed) _ _ _ _ listed
  obtain ⟨done', notes, journal', noted, included, others⟩ :=
    completed_of_run_pieces (emits_supplier handed) _ listed
  obtain rfl : done = done' := List.append_cancel_left (journal.symm.trans journal')
  exact ⟨emitted, done, notes, made.trans (call.style.block_eq_spellBlock emitted), lays, journal,
    known, noted, included, others⟩

/-- The calls declare the names that they put into the journal. The pieces of their blocks
stand in the order in which their names are completed. If no call fails, the other names that
are completed were selected by suppliers. -/
theorem declares_runAll {calls : List (Call σ)} (handed : ∀ call ∈ calls, call.Handed)
    (before : Emitting (Noted σ)) :
    ∃ laid done, Declares before.known calls (runAll calls before).1 laid done ∧
      (runAll calls before).2.journal = before.journal ++ done ∧
      (laid.flatten.map Piece.name).Sublist done ∧
      ((∀ result ∈ (runAll calls before).1, ∃ block, result = .ok block) →
        ∃ notes, (runAll calls before).2.state.notes = before.state.notes ++ notes ∧
          ∀ handle ∈ done, handle ∈ laid.flatten.map Piece.name ∨ Note.Selected notes handle) := by
  induction calls generalizing before with
  | nil =>
      refine ⟨[], [], .nil, (List.append_nil _).symm, List.Sublist.refl _, ?_⟩
      intro good
      exact ⟨[], (List.append_nil _).symm, fun handle held => absurd held List.not_mem_nil⟩
  | cons call rest ih =>
      have ours := handed call List.mem_cons_self
      have later := ih (fun call among => handed call (List.mem_cons_of_mem _ among))
      have first := emits_call ours before
      unfold runAll
      rw [EStateM.run] at first
      cases run : call.run before with
      | ok block middle =>
          obtain ⟨pieces, done, notes, rfl, lays, journal, known, noted, included, others⟩ :=
            lays_of_run ours run
          obtain ⟨laid, more, declares, journal', included', further⟩ := later middle
          rw [known] at declares
          refine ⟨pieces :: laid, done ++ more, .ok lays declares, ?_, ?_, ?_⟩
          · show (runAll rest middle).2.journal = _
            rw [journal', journal, List.append_assoc]
          · rw [List.flatten_cons, List.map_append]
            exact included.append included'
          · intro good
            obtain ⟨notes', noted', others'⟩ :=
              further (fun result among => good result (List.mem_cons_of_mem _ among))
            refine ⟨notes ++ notes', ?_, ?_⟩
            · show (runAll rest middle).2.state.notes = _
              rw [noted', noted, List.append_assoc]
            · intro handle held
              rw [Note.selected_append, List.flatten_cons, List.map_append, List.mem_append]
              rcases List.mem_append.mp held with early | late
              · exact (others handle early).imp .inl .inl
              · exact (others' handle late).imp .inr .inr
      | error stop middle =>
          rw [run] at first
          have advances := first.advances
          obtain ⟨done, journal, -, among⟩ := advances.journaled
          obtain ⟨laid, more, declares, journal', included', -⟩ := later middle
          have tracked : before.known ∪ {found | found ∈ done} ⊆ middle.known := by
            rintro handle (old | new)
            · show middle.tracker.progress? handle ≠ none
              rw [advances.kept handle old]
              exact old
            · show middle.tracker.progress? handle ≠ none
              rw [((among handle).mp new).2]
              simp
          refine ⟨[] :: laid, done ++ more, .error tracked declares, ?_, ?_, ?_⟩
          · show (runAll rest middle).2.journal = _
            rw [journal', journal, List.append_assoc]
          · exact included'.trans (List.sublist_append_right done more)
          · intro good
            obtain ⟨block, wrong⟩ := good (.error stop) List.mem_cons_self
            exact absurd wrong (by simp)

theorem known_of_empty (noted : Noted σ) :
    ({ state := noted } : Emitting (Noted σ)).known = ∅ :=
  Set.eq_empty_of_forall_notMem fun _ tracked => tracked rfl

/-- With a tracker that is empty at first, the journal lists the completed names, each once. -/
theorem journal_runAll {calls : List (Call σ)} (handed : ∀ call ∈ calls, call.Handed)
    (noted : Noted σ) :
    let after := (runAll calls { state := noted }).2
    after.journal.Nodup ∧
      ∀ handle, handle ∈ after.journal ↔ after.tracker.progress? handle = some .completed := by
  obtain ⟨done, journal, nodup, among⟩ := (lawful_runAll handed { state := noted }).1.journaled
  simp only [journal, List.nil_append]
  exact ⟨nodup, fun handle => (among handle).trans (and_iff_right rfl)⟩

/-- If all calls end well, they complete what they select and what their suppliers' errands
do, and the tracker holds nothing else. -/
theorem completed_runAll {calls : List (Call σ)} (handed : ∀ call ∈ calls, call.Handed)
    (noted : Noted σ)
    (good : ∀ result ∈ (runAll calls { state := noted }).1, ∃ block, result = .ok block) :
    let after := (runAll calls { state := noted }).2
    ∃ notes, after.state.notes = noted.notes ++ notes ∧
      (∀ handle, handle ∈ after.journal ↔
        (∃ call ∈ calls, handle ∈ call.selection.toList) ∨ Note.Selected notes handle) ∧
      (∀ handle, after.tracker.progress? handle =
        if handle ∈ after.journal then some .completed else none) ∧
      after.tracker.size = after.journal.length := by
  obtain ⟨advances, further⟩ := lawful_runAll handed { state := noted }
  obtain ⟨closed, notes, more, tracked⟩ := further good
  generalize (runAll calls { state := noted }).2 = after at advances closed more tracked
  have untracked : ∀ handle, (∅ : Tracker).progress? handle = none := fun _ => rfl
  obtain ⟨done, journal, nodup, among⟩ := advances.journaled
  rw [List.nil_append] at journal
  subst journal
  -- nothing is left open, so what is tracked is completed
  have completed : ∀ handle, handle ∈ after.journal ↔
      after.tracker.progress? handle ≠ none := by
    intro handle
    rw [among, and_iff_right (untracked handle), closed.completed_iff (untracked handle)]
  refine ⟨notes, more, ?_, ?_, ?_⟩
  · intro handle
    rw [completed, tracked, List.mem_flatMap]
    simp only [untracked, ne_eq, not_true, false_or]
  · intro handle
    split
    · rename_i held
      exact ((among handle).mp held).2
    · rename_i absent
      by_contra held
      exact absent ((completed handle).mpr held)
  · apply Tracker.size_eq_length nodup
    intro handle
    rw [completed, Tracker.tracks_iff]

/-- **Every name is declared once.** Calls share a tracker that is empty at first. Their blocks
are put together from declarations, to any depth of suppliers that emit, and the journal lists
the names that are declared in them, in order. It lists no name twice, whether calls fail or
not, and it lists just the names that are completed in the tracker.

If all calls end well, every listed name has its piece in a block or was selected by a
supplier's errand; the names listed are those that a call selected or an errand did, and the
tracker holds these names and no others, each of them completed. -/
theorem declared_exactly_once (calls : List (Call σ)) (handed : ∀ call ∈ calls, call.Handed)
    (state : σ) :
    let results := (runAll calls { state := { state } }).1
    let after := (runAll calls { state := { state } }).2
    after.journal.Nodup ∧
    (∀ handle, handle ∈ after.journal ↔ after.tracker.progress? handle = some .completed) ∧
    results.length = calls.length ∧
    (∃ laid, Declares ∅ calls results laid after.journal ∧
      (laid.flatten.map Piece.name).Sublist after.journal ∧
      ((∀ result ∈ results, ∃ block, result = .ok block) → ∀ handle ∈ after.journal,
        handle ∈ laid.flatten.map Piece.name ∨ Note.Selected after.state.notes handle)) ∧
    ((∀ result ∈ results, ∃ block, result = .ok block) →
      (∀ handle, handle ∈ after.journal ↔
        (∃ call ∈ calls, handle ∈ call.selection.toList) ∨
          Note.Selected after.state.notes handle) ∧
      (∀ handle, after.tracker.progress? handle =
        if handle ∈ after.journal then some .completed else none) ∧
      after.tracker.size = after.journal.length) := by
  intro results after
  obtain ⟨nodup, listed⟩ := journal_runAll handed { state }
  obtain ⟨laid, done, declares, journal, included, others⟩ :=
    declares_runAll handed { state := { state } }
  rw [known_of_empty] at declares
  rw [List.nil_append] at journal
  subst journal
  refine ⟨nodup, listed, declares.length, ⟨laid, declares, included, fun good => ?_⟩,
    fun good => ?_⟩
  · obtain ⟨notes, noted, others⟩ := others good
    rw [List.nil_append] at noted
    subst noted
    exact others
  · obtain ⟨notes, noted, completed⟩ := completed_runAll handed { state } good
    rw [List.nil_append] at noted
    subst noted
    exact completed

/-- Two names that need each other and a third one with code; after a call that selects the
first of them comes one, in another style, that selects the second and an import. -/
theorem declared_exactly_once_of_mutual_needs :
    let first : Handle := ⟨0, ⟨"a0"⟩, "a"⟩
    let second : Handle := ⟨1, ⟨"b0"⟩, "b"⟩
    let leaf : Handle := ⟨2, ⟨"c0"⟩, "c"⟩
    let loaded : Handle := ⟨3, ⟨"d0"⟩, "d"⟩
    let ledger := (((Ledger.bind {} first ⟨.inline none, ⟨"a", 0⟩⟩).bind second
      ⟨.inline none, ⟨"b", 0⟩⟩).bind leaf
        ⟨(Value.inline none).withCode (.text "1"), ⟨"c", 0⟩⟩).bind loaded
          ⟨.imported none ⟨"m", "x"⟩, ⟨"d", 0⟩⟩
    let recipes : Recipes Unit := fun handle _ _ =>
      .emit { style := {}, selection := .ofList [if handle = first then second else first, leaf] }
        () fun _ _ _ => .add (.ident handle.ident ++ .text "();") (.finish ())
    let calls : List (Call Unit) :=
      [⟨ledger, {}, .ofList [first], some recipes, 2⟩,
        ⟨ledger, { esm := true, lines := true }, .ofList [second, loaded], none, 0⟩]
    let outcome := runAll calls { state := { state := () } }
    (∀ call ∈ calls, call.Handed) ∧
      outcome.1.map (Except.map Fragment.render) =
        [.ok "const c0 = 1;b0();a0();", .ok "import \x7bx as d0\x7d from \"m.js\";\n"] ∧
      outcome.2.journal = [leaf, second, first, loaded] ∧ outcome.2.journal.Nodup ∧
      (∃ laid, Declares ∅ calls outcome.1 laid outcome.2.journal) ∧
      outcome.2.tracker.size = 4 := by
  intro first second leaf loaded ledger recipes calls outcome
  have handed : ∀ call ∈ calls, call.Handed := by
    intro call among recipes' served handle tracker state
    have ours : recipes' = recipes := by
      rcases List.mem_cons.mp among with rfl | among
      · exact (Option.some.inj served).symm
      · rw [List.mem_singleton.mp among] at served
        exact absurd served (by simp)
    rw [ours]
    exact ⟨rfl, fun _ _ _ => trivial⟩
  have rendered : outcome.1.map (Except.map Fragment.render) =
      [.ok "const c0 = 1;b0();a0();", .ok "import \x7bx as d0\x7d from \"m.js\";\n"] := by
    decide +kernel
  have good : ∀ result ∈ outcome.1, ∃ block, result = .ok block := by
    intro result among
    have text := List.mem_map_of_mem (f := Except.map Fragment.render) among
    rw [rendered] at text
    cases result with
    | ok block => exact ⟨block, rfl⟩
    | error stop => simp [Except.map] at text
  have journal : outcome.2.journal = [leaf, second, first, loaded] := by decide +kernel
  have once := declared_exactly_once calls handed ()
  -- from here on the runs need not be evaluated again
  rw [show runAll calls { state := { state := () } } = outcome from rfl] at once
  clear_value outcome
  obtain ⟨nodup, -, -, ⟨laid, declares, -⟩, completed⟩ := once
  obtain ⟨-, -, size⟩ := completed good
  rw [journal] at size
  exact ⟨handed, rendered, journal, nodup, ⟨laid, declares⟩, size⟩

end Call

end NameScope.Emission
