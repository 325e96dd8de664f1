import Mathlib.Tactic.Tauto
import NameScope.Proofs.PostOrder
import NameScope.Proofs.Spelling
import NameScope.Supply.Recipe

/-!
# Dependencies are declared first

A supplier that emits what a name needs before it adds the name's own code turns an
emission into a depth-first search (`Dependencies.pieces_of_postOrder`).
`Dependencies.declarations_in_post_order` says what comes of it: the emission of any
finite graph succeeds, cyclic or not, and its block is made of the fragments of the
names that can be reached, in depth-first post-order.
-/

namespace NameScope

/-- What each name needs, and the code that is its own. -/
structure Dependencies where
  needs : Handle → Selection
  own : Handle → Fragment

namespace Dependencies

variable (dependencies : Dependencies) (ledger : Ledger) (style : Style)

/-- Emit what the name needs, with the tracker at hand and the same supplier, and
then add the name's own code. -/
def recipes : Recipes Unit := fun handle _ _ =>
  .emit { style, selection := dependencies.needs handle } () fun _ _ _ =>
    .add (dependencies.own handle) (.finish ())

/-- The names that are emitted for the sake of a name: none if its value has code or a
complete import. -/
def next (handle : Handle) : List Handle :=
  match ledger.spelled? style handle with
  | some _ => []
  | none => (dependencies.needs handle).toList

/-- The fragment of a name, without what is emitted for its sake: the declaration with its
value's code or import, or else its own code. -/
def fragment (handle : Handle) : Fragment :=
  (ledger.spelled? style handle).getD (dependencies.own handle)

/-- The fragments of names one after another, each with its end. -/
def block (handles : List Handle) : Fragment :=
  .concat (handles.map fun handle => dependencies.fragment ledger style handle ++ style.lineEnd)

variable {dependencies ledger style}

/-- The state in which the supplier of a name goes on its errand. -/
def setOut (dependencies : Dependencies) (style : Style) (handle : Handle)
    (st : Emitting (Noted Unit)) : Emitting (Noted Unit) :=
  let asked := st.state.note (.asked handle (st.tracker.progress? handle) st.tracker.size)
  { st with state := asked.note (.emitted { style, selection := dependencies.needs handle }) }

/-- If what a name needs can be emitted, its own code is put behind it. -/
theorem run_supplier {depth : Nat} {handle : Handle} {st after : Emitting (Noted Unit)}
    {needed : Fragment}
    (emitted : (Emission.declarations ledger style
        ((dependencies.recipes style).supplier ledger depth) (dependencies.needs handle)).run
      (dependencies.setOut style handle st) = .ok needed after) :
    ((dependencies.recipes style).supplier ledger (depth + 1) handle).run st =
      .ok (some (needed ++ dependencies.own handle)) after := by
  have errand : (Errand.run ledger ((dependencies.recipes style).supplier ledger depth)
      { style, selection := dependencies.needs handle }).run (dependencies.setOut style handle st) =
        .ok needed after := emitted
  rw [Recipes.run_supplier]
  exact Recipe.run_follow_emit_of_ok errand

theorem block_append (before : List Handle) (handle : Handle) (after : List Handle) :
    dependencies.block ledger style (before ++ handle :: after) =
      dependencies.block ledger style before ++ dependencies.fragment ledger style handle ++
        style.lineEnd ++ dependencies.block ledger style after := by
  unfold block
  rw [List.map_append, List.map_cons, Fragment.concat_append, Fragment.concat]
  simp only [Fragment.append_assoc]

/-- The names of `order` have been completed since, in this order, and no others
have been started. -/
structure Completes (before after : Emitting (Noted Unit)) (order : List Handle) : Prop where
  journal : after.journal = before.journal ++ order
  tracked : ∀ handle, after.tracker.progress? handle ≠ none ↔
    before.tracker.progress? handle ≠ none ∨ handle ∈ order

section Search

variable {nodes : Finset Handle} {seen : Set Handle} {below : List Handle} {handle : Handle}

/-- What is completed below a name comes before the name itself. -/
theorem Completes.visited {st after : Emitting (Noted Unit)}
    (new : st.tracker.progress? handle = none)
    (inside : Completes (st.begin handle) after below) :
    Completes st (after.finish handle) (below ++ [handle]) := by
  have still : after.tracker.progress? handle ≠ none :=
    (inside.tracked handle).mpr (.inl ((Emitting.tracked_begin new handle).mpr (.inl rfl)))
  refine ⟨?_, ?_⟩
  · show after.journal ++ [handle] = st.journal ++ (below ++ [handle])
    rw [inside.journal, ← List.append_assoc]
    rfl
  · intro other
    rw [Emitting.tracked_finish still, inside.tracked, Emitting.tracked_begin new,
      List.mem_append, List.mem_singleton]
    tauto

theorem Completes.trans {first second third : Emitting (Noted Unit)} {order more : List Handle}
    (before : Completes first second order) (after : Completes second third more) :
    Completes first third (order ++ more) := by
  refine ⟨by rw [after.journal, before.journal, List.append_assoc], ?_⟩
  intro other
  rw [after.tracked, before.tracked, List.mem_append, or_assoc]

/-- The code of a name, if what it needs can be emitted. -/
theorem run_code (depth : Nat) (st : Emitting (Noted Unit))
    (bound : ledger.binding? handle ≠ none) (search : PostOrder (dependencies.next ledger style)
      (insert handle seen) (dependencies.next ledger style handle) below)
    (needed : ledger.spelled? style handle = none → ∃ deeper, depth = deeper + 1 ∧
      ∃ pieces after, (Emission.pieces ledger style
          ((dependencies.recipes style).supplier ledger deeper)
          (dependencies.needs handle).toList).run (dependencies.setOut style handle st) =
            .ok pieces after ∧
        style.spellBlock pieces = dependencies.block ledger style below ∧
        Completes st after below) :
    ∃ after, (Emission.code ledger style ((dependencies.recipes style).supplier ledger depth)
        handle).run st =
          .ok (dependencies.block ledger style below ++ dependencies.fragment ledger style handle)
            after ∧ Completes st after below := by
  obtain ⟨binding, bound⟩ := Option.ne_none_iff_exists'.mp bound
  unfold fragment
  cases spelled : ledger.spelled? style handle with
  | some fragment =>
      unfold next at search
      rw [spelled] at search
      cases search
      rw [Emission.code_of_spelled spelled]
      exact ⟨st, rfl, by simp, by simp⟩
  | none =>
      obtain ⟨deeper, rfl, pieces, after, emitted, block, completes⟩ := needed spelled
      refine ⟨after, ?_, completes⟩
      have declared : (Emission.declarations ledger style
          ((dependencies.recipes style).supplier ledger deeper) (dependencies.needs handle)).run
          (dependencies.setOut style handle st) = .ok (style.spellBlock pieces) after := by
        rw [Emission.run_declarations, emitted, ← Style.block_eq_spellBlock]
      rw [Emission.code_of_unspelled bound spelled, EStateM.run_bind, run_supplier declared, block]
      rfl

/-- **An emission searches depth first.** From a tracker that knows exactly what has
been seen, an emission whose suppliers may go deep enough puts out the fragments of
the search, in its order. -/
theorem pieces_of_postOrder (bound : ∀ handle ∈ nodes, ledger.binding? handle ≠ none)
    (closed : ∀ handle ∈ nodes, ∀ needed ∈ dependencies.next ledger style handle, needed ∈ nodes)
    {roots order : List Handle}
    (search : PostOrder (dependencies.next ledger style) seen roots order)
    (among : ∀ root ∈ roots, root ∈ nodes) {depth : Nat} (enough : unseenCount nodes seen ≤ depth)
    (st : Emitting (Noted Unit))
    (tracked : ∀ handle, handle ∈ seen ↔ st.tracker.progress? handle ≠ none) :
    ∃ pieces after, (Emission.pieces ledger style
        ((dependencies.recipes style).supplier ledger depth) roots).run st = .ok pieces after ∧
      style.spellBlock pieces = dependencies.block ledger style order ∧
      Completes st after order := by
  induction search generalizing depth st with
  | nil seen => exact ⟨[], st, rfl, rfl, by simp, by simp⟩
  | @skip seen handle rest order known search ih =>
      obtain ⟨pieces, after, emitted, block, completes⟩ :=
        ih (fun root inRest => among root (List.mem_cons_of_mem _ inRest)) enough st tracked
      refine ⟨pieces, after, ?_, block, completes⟩
      have passed : st.tracker.tracks handle = true :=
        Tracker.tracks_iff.mpr ((tracked handle).mp known)
      rw [Emission.run_pieces_of_tracked passed, emitted]
  | @visit seen handle rest below later new inside behind ihInside ihBehind =>
      have here : handle ∈ nodes := among handle List.mem_cons_self
      have untracked : st.tracker.progress? handle = none :=
        not_not.mp (fun held => new ((tracked handle).mpr held))
      have begun : ∀ other, other ∈ insert handle seen ↔
          (st.begin handle).tracker.progress? other ≠ none := by
        intro other
        rw [Emitting.tracked_begin untracked, Set.mem_insert_iff, tracked]
      have fewer := unseenCount_insert here new
      -- first what the name needs, then its own code
      obtain ⟨middle, coded, completes⟩ := run_code depth (st.begin handle)
        (bound handle here) inside (fun missing => by
          obtain ⟨deeper, rfl⟩ : ∃ deeper, depth = deeper + 1 := ⟨depth - 1, by omega⟩
          have needs : dependencies.next ledger style handle =
              (dependencies.needs handle).toList := by
            unfold next
            rw [missing]
          have room : unseenCount nodes (insert handle seen) ≤ deeper := by omega
          have emitted := ihInside (closed handle here) room
            (dependencies.setOut style handle (st.begin handle)) begun
          rw [needs] at emitted
          obtain ⟨pieces, after, emitted, block, completes⟩ := emitted
          exact ⟨deeper, rfl, pieces, after, emitted, block, completes.journal, completes.tracked⟩)
      have visited := completes.visited untracked
      -- then the rest, with all of this seen
      obtain ⟨pieces, after, emitted, block, completes'⟩ := ihBehind
        (fun root inRest => among root (List.mem_cons_of_mem _ inRest))
        ((unseenCount_mono Set.subset_union_left).trans (fewer.le.trans enough))
        (middle.finish handle) (fun other => by
          rw [visited.tracked, ← tracked]
          simp only [Set.mem_union, Set.mem_insert_iff, Set.mem_ofPred_eq, List.mem_append,
            List.mem_singleton]
          tauto)
      refine ⟨_, after, Emission.run_pieces_of_coded
        (Tracker.tracks_eq_false_iff.mpr untracked) coded emitted, ?_, ?_⟩
      · rw [block_append, ← block]
        unfold Style.spellBlock
        simp only [List.map_cons, Fragment.concat, Fragment.append_assoc]
      · have both := visited.trans completes'
        rw [List.append_assoc] at both
        exact both

end Search

/-- **Dependencies are declared first.** Let a finite set of bound names hold the
selection, and with each name what is emitted for its sake. The emission from an
empty tracker succeeds, and its block consists of the fragments of the names that
can be reached, each once and with its end, in depth-first post-order.
So a name comes behind all that it needs and that does not need it in turn; without
cycles, behind all that it needs. -/
theorem declarations_in_post_order (dependencies : Dependencies) (ledger : Ledger) (style : Style)
    (selection : Selection) (nodes : Finset Handle)
    (bound : ∀ handle ∈ nodes, ledger.binding? handle ≠ none)
    (selected : ∀ handle ∈ selection.toList, handle ∈ nodes)
    (closed : ∀ handle ∈ nodes, ∀ needed ∈ dependencies.next ledger style handle, needed ∈ nodes)
    (depth : Nat) (enough : nodes.card ≤ depth) :
    let next := dependencies.next ledger style
    ∃ order after,
      PostOrder next ∅ selection.toList order ∧
      (Emission.declarations ledger style ((dependencies.recipes style).supplier ledger depth)
        selection).run { state := { state := () } } =
          .ok (dependencies.block ledger style order) after ∧
      after.journal = order ∧
      order.Nodup ∧
      (∀ handle, handle ∈ order ↔ ∃ root ∈ selection.toList, LeadsTo next root handle) ∧
      (∀ handle ∈ order, ∀ needed ∈ next handle, ¬ LeadsTo next needed handle →
        [needed, handle].Sublist order) ∧
      ((∀ handle ∈ order, ¬ Relation.TransGen (StepsTo next) handle handle) →
        ∀ handle ∈ order, ∀ needed ∈ next handle, [needed, handle].Sublist order) := by
  intro next
  have untracked : ∀ handle, handle ∈ (∅ : Set Handle) ↔
      (∅ : Tracker).progress? handle ≠ none := by
    intro handle
    constructor
    · intro known
      exact absurd known (Set.notMem_empty handle)
    · intro held
      exact absurd rfl held
  obtain ⟨order, search⟩ := exists_postOrder closed selected ∅
  obtain ⟨pieces, after, emitted, block, completes⟩ := pieces_of_postOrder bound closed search
    selected ((unseenCount_empty nodes).le.trans enough) { state := { state := () } } untracked
  refine ⟨order, after, search, ?_, completes.journal, search.nodup, fun handle => search.mem_iff,
    fun handle held needed step => search.sublist held step, ?_⟩
  · unfold Emission.declarations
    rw [EStateM.run_bind, emitted, ← block]
    rfl
  · intro acyclic handle held needed step
    apply search.sublist held step
    -- a path back from what is needed would close a cycle
    intro leads
    exact acyclic handle held (Relation.TransGen.head' step leads)

/-- Two names that need each other, and a third with code that one of them needs. -/
theorem declarations_in_post_order_of_cycle :
    let first : Handle := ⟨0, ⟨"a0"⟩, "a"⟩
    let second : Handle := ⟨1, ⟨"b0"⟩, "b"⟩
    let leaf : Handle := ⟨2, ⟨"c0"⟩, "c"⟩
    let ledger := ((Ledger.bind {} first ⟨.inline none, ⟨"a", 0⟩⟩).bind second
      ⟨.inline none, ⟨"b", 0⟩⟩).bind leaf ⟨(Value.inline none).withCode (.text "1"), ⟨"c", 0⟩⟩
    let dependencies : Dependencies :=
      { needs := fun handle => .ofList (if handle = first then [second, leaf] else [first])
        own := fun handle => .ident handle.ident }
    let next := dependencies.next ledger {}
    (∀ handle ∈ [first, second, leaf], ledger.binding? handle ≠ none) ∧
    (∀ handle ∈ [first, second, leaf], ∀ needed ∈ next handle,
      needed ∈ [first, second, leaf]) ∧
    ∃ order after, PostOrder next ∅ [first] order ∧
      (Emission.declarations ledger {} ((dependencies.recipes {}).supplier ledger 3)
        (.ofList [first])).run { state := { state := () } } =
          .ok (dependencies.block ledger {} order) after ∧
      (dependencies.block ledger {} order).render = "b0const c0 = 1;a0" ∧
      order = [second, leaf, first] ∧ [leaf, first].Sublist order := by
  intro first second leaf ledger dependencies next
  have bound : ∀ handle ∈ [first, second, leaf], ledger.binding? handle ≠ none := by
    decide +kernel
  have closed : ∀ handle ∈ [first, second, leaf], ∀ needed ∈ next handle,
      needed ∈ [first, second, leaf] := by
    decide +kernel
  refine ⟨bound, closed, ?_⟩
  obtain ⟨order, after, search, emitted, journal, nodup, reached, ordered, -⟩ :=
    declarations_in_post_order dependencies ledger {} (.ofList [first])
      [first, second, leaf].toFinset (by simpa using bound) (by decide +kernel)
      (by simpa using closed) 3 (by decide +kernel)
  have evaluated : (match (Emission.declarations ledger {} ((dependencies.recipes {}).supplier
      ledger 3) (.ofList [first])).run { state := { state := () } } with
    | .ok block after => some (block.render, after.journal)
    | .error _ _ => none) = some ("b0const c0 = 1;a0", [second, leaf, first]) := by
    decide +kernel
  rw [emitted] at evaluated
  obtain ⟨rendered, completed⟩ : (dependencies.block ledger {} order).render = _ ∧
      after.journal = _ := by
    simpa using evaluated
  have visited : order = [second, leaf, first] := journal.symm.trans completed
  exact ⟨order, after, search, emitted, rendered, visited, visited ▸ by decide +kernel⟩

end Dependencies

end NameScope
