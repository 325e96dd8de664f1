import Mathlib.Tactic.ByContra
import Mathlib.Tactic.Tauto
import NameScope.Proofs.Emission
import NameScope.Supply.Recipe

/-!
# What an emission leaves in the tracker

Three relations between the states before and after a piece of work describe it,
however deep suppliers emit inside each other:

* `Emitting.Advances`: the progress of a tracked name does not change, and the
  journal grows by the names that were not tracked before and are completed now;
* `Emitting.LeavesOpen`: which names were not tracked before and are started now;
* `Emitting.Covers`: the names that are tracked now were tracked before or have been
  selected in between, by the work itself or by an errand that is noted.

`Emits` says that a computation makes all three hold. `emits_declarations` proves
it of emissions and `emits_supplier` of suppliers that follow recipes and use the
tracker that they were handed.
-/

namespace NameScope

/-- The name is in the selection of a noted errand. -/
def Note.Selected (notes : List Note) (handle : Handle) : Prop :=
  ∃ errand, Note.emitted errand ∈ notes ∧ handle ∈ errand.selection.toList

theorem Note.selected_append {notes more : List Note} {handle : Handle} :
    Selected (notes ++ more) handle ↔ Selected notes handle ∨ Selected more handle := by
  unfold Selected
  simp only [List.mem_append, or_and_right, exists_or]

namespace Emitting

variable {σ : Type}

/-- Tracked names keep their progress, and the journal grows by the names that
have been both started and completed, each once. -/
structure Advances (before after : Emitting σ) : Prop where
  kept : ∀ handle, before.tracker.progress? handle ≠ none →
    after.tracker.progress? handle = before.tracker.progress? handle
  journaled : ∃ done, after.journal = before.journal ++ done ∧ done.Nodup ∧
    ∀ handle, handle ∈ done ↔
      before.tracker.progress? handle = none ∧ after.tracker.progress? handle = some .completed

/-- Of the names that were not tracked before, exactly these are started now. -/
def LeavesOpen (before after : Emitting σ) (handles : List Handle) : Prop :=
  ∀ handle, handle ∈ handles ↔
    before.tracker.progress? handle = none ∧ after.tracker.progress? handle = some .started

variable {before middle after : Emitting σ} {handles : List Handle}

theorem Advances.refl (st : Emitting σ) : st.Advances st := by
  refine ⟨fun _ _ => rfl, [], by simp, List.nodup_nil, ?_⟩
  intro handle
  constructor
  · intro held
    exact absurd held List.not_mem_nil
  · intro both
    obtain ⟨untracked, completed⟩ := both
    rw [untracked] at completed
    exact absurd completed (by simp)

theorem LeavesOpen.refl (st : Emitting σ) : st.LeavesOpen st [] := by
  intro handle
  constructor
  · intro held
    exact absurd held List.not_mem_nil
  · intro both
    obtain ⟨untracked, started⟩ := both
    rw [untracked] at started
    exact absurd started (by simp)

/-- A name that is not tracked later was not tracked earlier. -/
theorem Advances.untracked (advances : before.Advances after) {handle : Handle}
    (later : after.tracker.progress? handle = none) :
    before.tracker.progress? handle = none := by
  by_contra tracked
  rw [advances.kept handle tracked] at later
  exact tracked later

theorem Advances.trans (first : before.Advances middle) (second : middle.Advances after) :
    before.Advances after := by
  refine ⟨?_, ?_⟩
  · intro handle tracked
    have still := first.kept handle tracked
    rw [← still]
    exact second.kept handle (still ▸ tracked)
  · obtain ⟨done, journal, nodup, among⟩ := first.journaled
    obtain ⟨later, journal', nodup', among'⟩ := second.journaled
    refine ⟨done ++ later, by rw [journal', journal, List.append_assoc], ?_, ?_⟩
    · -- what was completed first is tracked from then on, so it is not completed again
      refine List.nodup_append.mpr ⟨nodup, nodup', ?_⟩
      intro handle early other late same
      have completed := ((among handle).mp early).2
      have untracked := ((among' other).mp late).1
      rw [same, untracked] at completed
      exact absurd completed (by simp)
    · intro handle
      rw [List.mem_append, among, among']
      constructor
      · intro either
        rcases either with ⟨untracked, completed⟩ | ⟨untracked, completed⟩
        · exact ⟨untracked, (second.kept handle (by simp [completed])).trans completed⟩
        · exact ⟨first.untracked untracked, completed⟩
      · intro both
        obtain ⟨untracked, completed⟩ := both
        by_cases between : middle.tracker.progress? handle = none
        · exact .inr ⟨between, completed⟩
        · exact .inl ⟨untracked, (second.kept handle between).symm.trans completed⟩

/-- What work leaves open stays open in later work. -/
theorem LeavesOpen.trans {more : List Handle} (first : before.Advances middle)
    (second : middle.Advances after) (opened : before.LeavesOpen middle handles)
    (opened' : middle.LeavesOpen after more) : before.LeavesOpen after (handles ++ more) := by
  intro handle
  rw [List.mem_append, opened, opened']
  constructor
  · intro either
    rcases either with ⟨untracked, started⟩ | ⟨untracked, started⟩
    · exact ⟨untracked, (second.kept handle (by simp [started])).trans started⟩
    · exact ⟨first.untracked untracked, started⟩
  · intro both
    obtain ⟨untracked, started⟩ := both
    -- a name that is open at the end was opened by the one work or by the other
    by_cases between : middle.tracker.progress? handle = none
    · exact .inr ⟨between, started⟩
    · exact .inl ⟨untracked, (second.kept handle between).symm.trans started⟩

/-- When nothing is left open, a name that was not tracked before is completed as
soon as it is tracked. -/
theorem LeavesOpen.completed_iff (closed : before.LeavesOpen after []) {handle : Handle}
    (untracked : before.tracker.progress? handle = none) :
    after.tracker.progress? handle = some .completed ↔ after.tracker.progress? handle ≠ none := by
  cases progress : after.tracker.progress? handle with
  | none => simp
  | some progress' =>
      cases progress' with
      | completed => simp
      | started =>
          exact absurd ((closed handle).mpr ⟨untracked, progress⟩) List.not_mem_nil

/-- The tracked names are those of before, the given ones, and those that were
selected by errands noted in between. -/
def Covers (names : List Handle) (before after : Emitting (Noted σ)) : Prop :=
  ∃ notes, after.state.notes = before.state.notes ++ notes ∧
    ∀ handle, after.tracker.progress? handle ≠ none ↔
      before.tracker.progress? handle ≠ none ∨ handle ∈ names ∨ Note.Selected notes handle

theorem Covers.refl (st : Emitting (Noted σ)) : Covers [] st st := by
  refine ⟨[], by simp, ?_⟩
  intro handle
  simp [Note.Selected]

theorem Covers.trans {names more : List Handle} {before middle after : Emitting (Noted σ)}
    (first : Covers names before middle) (second : Covers more middle after) :
    Covers (names ++ more) before after := by
  obtain ⟨notes, noted, tracked⟩ := first
  obtain ⟨notes', noted', tracked'⟩ := second
  refine ⟨notes ++ notes', by rw [noted', noted, List.append_assoc], ?_⟩
  intro handle
  rw [tracked', tracked, List.mem_append, Note.selected_append]
  tauto

/-- What may come of work that starts at `before` and selects `names`: the tracker
advances; if the work ends well nothing is left open, and if it fails the names
that were being produced are. -/
def Lawful {α : Type} (names : List Handle) (before : Emitting (Noted σ)) :
    EStateM.Result Stop (Emitting (Noted σ)) α → Prop
  | .ok _ after => before.Advances after ∧ before.LeavesOpen after [] ∧ Covers names before after
  | .error (.failed _ during) after => before.Advances after ∧ before.LeavesOpen after during
  | .error .endless after => before.Advances after

/-! ### One name -/

section Name

variable {handle : Handle}

theorem advances_begin (untracked : before.tracker.progress? handle = none) :
    before.Advances (before.begin handle) := by
  have begun := progress?_begin untracked
  refine ⟨?_, [], (List.append_nil _).symm, List.nodup_nil, ?_⟩
  · intro other tracked
    rw [begun, if_neg]
    intro same
    exact tracked (same ▸ untracked)
  · intro other
    rw [begun]
    by_cases same : other = handle
    · simp [same]
    · simp only [same, if_false, List.not_mem_nil, false_iff, not_and]
      intro none completed
      rw [none] at completed
      exact absurd completed (by simp)

theorem leavesOpen_begin (untracked : before.tracker.progress? handle = none) :
    before.LeavesOpen (before.begin handle) [handle] := by
  intro other
  rw [progress?_begin untracked, List.mem_singleton]
  constructor
  · rintro rfl
    exact ⟨untracked, if_pos rfl⟩
  · rintro ⟨none, started⟩
    by_contra apart
    rw [if_neg apart, none] at started
    exact absurd started (by simp)

theorem covers_begin {before : Emitting (Noted σ)}
    (untracked : before.tracker.progress? handle = none) :
    Covers [handle] before (before.begin handle) := by
  refine ⟨[], (List.append_nil _).symm, ?_⟩
  intro other
  rw [tracked_begin untracked, List.mem_singleton]
  simp [Note.Selected, or_comm]

/-- Completing the one name that is open puts it among the completed ones. -/
theorem Advances.finish (advances : before.Advances after)
    (opened : before.LeavesOpen after [handle]) : before.Advances (after.finish handle) := by
  obtain ⟨untracked, started⟩ := (opened handle).mp (List.mem_singleton.mpr rfl)
  have finished : ∀ other, (after.finish handle).tracker.progress? other =
      if other = handle then some .completed else after.tracker.progress? other :=
    progress?_finish (by simp [started])
  obtain ⟨done, journal, nodup, among⟩ := advances.journaled
  have fresh : handle ∉ done := by
    intro held
    have completed := ((among handle).mp held).2
    rw [started] at completed
    exact absurd completed (by simp)
  refine ⟨?_, done ++ [handle], ?_, ?_, ?_⟩
  · intro other tracked
    rw [finished, if_neg]
    · exact advances.kept other tracked
    · intro same
      exact tracked (same ▸ untracked)
  · show after.journal ++ [handle] = _
    rw [journal, List.append_assoc]
  · refine List.nodup_append.mpr ⟨nodup, by simp, ?_⟩
    intro other held single among same
    rw [List.mem_singleton] at among
    exact fresh (among ▸ same ▸ held)
  · intro other
    rw [finished, List.mem_append, List.mem_singleton, among]
    by_cases same : other = handle
    · simp [same, untracked]
    · simp [same]

theorem LeavesOpen.finish (opened : before.LeavesOpen after [handle]) :
    before.LeavesOpen (after.finish handle) [] := by
  obtain ⟨-, started⟩ := (opened handle).mp (List.mem_singleton.mpr rfl)
  intro other
  rw [progress?_finish (by simp [started])]
  have only := opened other
  rw [List.mem_singleton] at only
  by_cases same : other = handle
  · simp [same]
  · rw [if_neg same, ← only]
    simp [same]

theorem Covers.finish {names : List Handle} {before after : Emitting (Noted σ)}
    (covers : Covers names before after) (tracked : after.tracker.progress? handle ≠ none) :
    Covers names before (after.finish handle) := by
  obtain ⟨notes, noted, among⟩ := covers
  refine ⟨notes, noted, ?_⟩
  intro other
  rw [← among, tracked_finish tracked]

end Name

variable {α β : Type}

theorem Lawful.advances {names : List Handle} {before after : Emitting (Noted σ)} {stop : Stop}
    (lawful : Lawful (α := α) names before (.error stop after)) : before.Advances after := by
  cases stop with
  | failed fault during => exact lawful.1
  | endless => exact lawful

/-- Work that fails is lawful whatever follows it. -/
theorem Lawful.error {names more : List Handle} {before after : Emitting (Noted σ)} {stop : Stop}
    (lawful : Lawful (α := α) names before (.error stop after)) :
    Lawful (α := β) more before (.error stop after) := by
  cases stop with
  | failed fault during => exact lawful
  | endless => exact lawful

/-- Work after work that ended well. -/
theorem Lawful.followed {names more : List Handle} {before middle : Emitting (Noted σ)} {a : α}
    (first : Lawful names before (.ok a middle))
    {result : EStateM.Result Stop (Emitting (Noted σ)) β} (second : Lawful more middle result) :
    Lawful (names ++ more) before result := by
  obtain ⟨advances, closed, covers⟩ := first
  match result, second with
  | .ok b after, ⟨advances', closed', covers'⟩ =>
      exact ⟨advances.trans advances', .trans advances advances' closed closed',
        covers.trans covers'⟩
  | .error (.failed fault during) after, ⟨advances', opened⟩ =>
      exact ⟨advances.trans advances', .trans advances advances' closed opened⟩
  | .error .endless after, advances' =>
      exact advances.trans advances'

/-- Work that selects what has just been noted as selected. -/
theorem Lawful.noted {names : List Handle} {before : Emitting (Noted σ)} {state : Noted σ}
    {notes : List Note} (noted : state.notes = before.state.notes ++ notes)
    (selected : ∀ handle, handle ∈ names ↔ Note.Selected notes handle)
    {result : EStateM.Result Stop (Emitting (Noted σ)) α}
    (lawful : Lawful names { before with state } result) : Lawful [] before result := by
  match result, lawful with
  | .ok a after, ⟨advances, closed, more, noted', tracked⟩ =>
      refine ⟨⟨advances.kept, advances.journaled⟩, closed, notes ++ more, ?_, ?_⟩
      · rw [noted', noted, List.append_assoc]
      · intro handle
        rw [tracked, selected, Note.selected_append]
        simp only [List.not_mem_nil, false_or]
  | .error (.failed fault during) after, ⟨advances, opened⟩ =>
      exact ⟨⟨advances.kept, advances.journaled⟩, opened⟩
  | .error .endless after, advances =>
      exact ⟨advances.kept, advances.journaled⟩

end Emitting

/-! ## Lawful work -/

/-- The computation is lawful wherever it starts, and selects `names`. -/
def Emits {σ α : Type} (names : List Handle) (work : EmitM (Noted σ) α) : Prop :=
  ∀ before, Emitting.Lawful names before (work.run before)

section Work

variable {σ α β : Type} {names more : List Handle}

theorem emits_pure (a : α) : Emits [] (pure a : EmitM (Noted σ) α) := by
  intro before
  exact ⟨.refl before, .refl before, .refl before⟩

theorem emits_fail (fault : Fault) : Emits names (EmitM.fail fault : EmitM (Noted σ) α) := by
  intro before
  exact ⟨.refl before, .refl before⟩

theorem emits_bind {work : EmitM (Noted σ) α} {next : α → EmitM (Noted σ) β}
    (first : Emits names work) (second : ∀ a, Emits more (next a)) :
    Emits (names ++ more) (work >>= next) := by
  intro before
  have early := first before
  rw [EStateM.run_bind]
  cases run : work.run before with
  | ok a middle =>
      rw [run] at early
      exact early.followed (second a middle)
  | error stop middle =>
      rw [run] at early
      exact early.error

theorem emits_map {work : EmitM (Noted σ) α} (emits : Emits names work) (f : α → β) :
    Emits names (do return f (← work)) := by
  have ended := emits_bind emits (fun a => emits_pure (f a))
  rw [List.append_nil] at ended
  exact ended

theorem emits_get {next : Emitting (Noted σ) → EmitM (Noted σ) α}
    (each : ∀ st, Emits names (next st)) : Emits names (get >>= next) := by
  intro before
  rw [EStateM.run_bind, EStateM.run_get]
  exact each before before

/-- Work after a change of the supplier's state that notes `notes`, which select
the names that the work selects. -/
theorem emits_after_note {change : Noted σ → Noted σ} (notes : List Note)
    {work : EmitM (Noted σ) α} (noted : ∀ st, (change st).notes = st.notes ++ notes)
    (selected : ∀ handle, handle ∈ names ↔ Note.Selected notes handle) (emits : Emits names work) :
    Emits [] (do EmitM.modifyState change; work) := by
  intro before
  exact (emits { before with state := change before.state }).noted (noted before.state) selected

/-- Work after a change of the supplier's own state. -/
theorem emits_after_moveTo (state : σ) {work : EmitM (Noted σ) α} (emits : Emits [] work) :
    Emits [] (do EmitM.modifyState (Noted.moveTo state); work) :=
  emits_after_note [] (fun _ => (List.append_nil _).symm) (fun _ => by simp [Note.Selected]) emits

end Work

/-! ## Emissions -/

section Emissions

variable {σ : Type} {ledger : Ledger} {style : Style} {supply : Supplier (Noted σ)}

theorem emits_code (ledger : Ledger) (style : Style)
    (supplied : ∀ handle, Emits [] (supply handle)) (handle : Handle) :
    Emits [] (Emission.code ledger style supply handle) := by
  cases ready : Emission.ready? ledger style handle with
  | some fragment =>
      rw [Emission.code_of_ready ready]
      exact emits_pure fragment
  | none =>
      cases bound : ledger.binding? handle with
      | none =>
          rw [Emission.code_of_unbound bound]
          exact emits_fail _
      | some binding =>
          rw [Emission.code_of_missing bound ready]
          show Emits ([] ++ []) _
          refine emits_bind (supplied handle) (fun code? => ?_)
          cases code? with
          | none => exact emits_fail _
          | some code => exact emits_pure code

theorem emits_piece? (supplied : ∀ handle, Emits [] (supply handle)) (handle : Handle) :
    Emits [handle] (Emission.piece? ledger style supply handle) := by
  intro before
  by_cases tracked : before.tracker.tracks handle = true
  · rw [Emission.run_piece?_of_tracked tracked]
    rw [Tracker.tracks_iff] at tracked
    refine ⟨.refl before, .refl before, [], (List.append_nil _).symm, ?_⟩
    intro other
    rw [List.mem_singleton]
    constructor
    · exact .inl
    · intro either
      rcases either with held | rfl | ⟨errand, noted, -⟩
      · exact held
      · exact tracked
      · exact absurd noted List.not_mem_nil
  · rw [Bool.not_eq_true] at tracked
    rw [Emission.run_piece?_of_untracked tracked]
    rw [Tracker.tracks_eq_false_iff] at tracked
    have begun := Emitting.advances_begin tracked
    have opened := Emitting.leavesOpen_begin tracked
    have inside := emits_code ledger style supplied handle (before.begin handle)
    -- the name stays started until its code is there, whatever the supplier emits meanwhile
    match (Emission.code ledger style supply handle).run (before.begin handle), inside with
    | .ok code after, ⟨advances, closed, covers⟩ =>
        have still := opened.trans begun advances closed
        have started := ((still handle).mp (List.mem_singleton.mpr rfl)).2
        exact ⟨(begun.trans advances).finish still, still.finish,
          ((Emitting.covers_begin tracked).trans covers).finish (by simp [started])⟩
    | .error (.failed fault during) after, ⟨advances, open'⟩ =>
        exact ⟨begun.trans advances, opened.trans begun advances open'⟩
    | .error .endless after, advances =>
        exact begun.trans advances

theorem emits_pieces (supplied : ∀ handle, Emits [] (supply handle)) (handles : List Handle) :
    Emits handles (Emission.pieces ledger style supply handles) := by
  induction handles with
  | nil => exact emits_pure []
  | cons handle rest ih =>
      rw [Emission.pieces_cons]
      exact emits_bind (emits_piece? supplied handle) (fun piece => emits_map ih _)

theorem emits_declarations (supplied : ∀ handle, Emits [] (supply handle))
    (selection : Selection) :
    Emits selection.toList (Emission.declarations ledger style supply selection) :=
  emits_map (emits_pieces supplied selection.toList) style.block

end Emissions

/-! ## Suppliers -/

namespace Recipe

/-- Every emission that the recipe asks for uses the tracker that was handed to it. -/
def Handed {σ : Type} : Recipe σ → Prop
  | .decline _ | .fail _ _ | .finish _ => True
  | .add _ rest => rest.Handed
  | .emit errand _ resume =>
    errand.tracking = .handed ∧ ∀ block tracker state, (resume block tracker state).Handed

end Recipe

section Suppliers

variable {σ : Type} {ledger : Ledger}

theorem emits_none (handle : Handle) : Emits [] ((Supplier.none : Supplier (Noted σ)) handle) :=
  emits_pure none

theorem emits_run (ledger : Ledger) {supply : Supplier (Noted σ)}
    (supplied : ∀ handle, Emits [] (supply handle)) {errand : Errand}
    (handed : errand.tracking = .handed) :
    Emits errand.selection.toList (errand.run ledger supply) := by
  unfold Errand.run
  rw [handed]
  cases errand.supplied with
  | false => exact emits_declarations emits_none errand.selection
  | true => exact emits_declarations supplied errand.selection

theorem emits_follow {emit : Errand → EmitM (Noted σ) Fragment}
    (emits : ∀ errand : Errand, errand.tracking = .handed →
      Emits errand.selection.toList (emit errand))
    {recipe : Recipe σ} (handed : recipe.Handed) (code : Fragment) :
    Emits [] (recipe.follow emit code) := by
  induction recipe generalizing code with
  | decline state => exact emits_after_moveTo state (emits_pure none)
  | fail fault state => exact emits_after_moveTo state (emits_fail fault)
  | finish state => exact emits_after_moveTo state (emits_pure (some code))
  | add more rest ih => exact ih handed (code ++ more)
  | emit errand state resume ih =>
      obtain ⟨tracking, rest⟩ := handed
      -- the errand is noted before it is done, so its names are accounted for
      have done : Emits [] (do
          EmitM.modifyState fun noted => (noted.moveTo state).note (.emitted errand)
          emit errand) :=
        emits_after_note [.emitted errand] (fun _ => rfl)
          (fun handle => by simp [Note.Selected]) (emits errand tracking)
      have followed := emits_bind done (fun block =>
        emits_get (fun now => ih block now.tracker now.state.state
          (rest block now.tracker now.state.state) (code ++ block)))
      rw [bind_assoc] at followed
      exact followed

theorem emits_supplier {recipes : Recipes σ}
    (handed : ∀ handle tracker state, (recipes handle tracker state).Handed) (depth : Nat)
    (handle : Handle) : Emits [] (recipes.supplier ledger depth handle) := by
  induction depth generalizing handle with
  | zero =>
      intro before
      exact .refl before
  | succ depth ih =>
      unfold Recipes.supplier
      refine emits_get (fun st => ?_)
      have followed := emits_follow (fun _ tracking => emits_run ledger ih tracking)
        (handed handle st.tracker st.state.state) ∅
      exact emits_after_note _ (fun _ => rfl) (fun other => by simp [Note.Selected]) followed

end Suppliers

end NameScope
