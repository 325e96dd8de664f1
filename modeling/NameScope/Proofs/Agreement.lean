import NameScope.Bundle
import NameScope.Proofs.PostOrder
import NameScope.Proofs.SinglePass

/-!
# Emissions with different suppliers

`Agree` says of two computations that they come to the same, and to an end, wherever few
enough names are untracked, and that a relation holds between the states before and
after. The relation is any that is `Tame`, which is to say that emissions keep it if
their suppliers do. So whatever emits with two suppliers agrees if the suppliers `Serve`
its names alike: blocks of declarations (`agree_declarations`) and the code of bundles
(`agree_assemble`).
-/

namespace NameScope

namespace Emitting

variable {σ : Type}

/-- The number of the names of `nodes` that are not tracked. -/
noncomputable def unseen (nodes : Finset Handle) (st : Emitting σ) : Nat :=
  unseenCount nodes st.known

/-- A relation between the states before and after that emissions keep if their
suppliers do. -/
structure Tame (R : Emitting σ → Emitting σ → Prop) : Prop where
  refl : ∀ st, R st st
  trans : ∀ {before middle after}, R before middle → R middle after → R before after
  known : ∀ {before after}, R before after → before.known ⊆ after.known
  begin : ∀ {st handle}, st.tracker.progress? handle = none → R st (st.begin handle)
  finish : ∀ st handle, R st (st.finish handle)

theorem unseen_le_card (nodes : Finset Handle) (st : Emitting σ) :
    st.unseen nodes ≤ nodes.card :=
  (unseenCount_mono (Set.empty_subset st.known)).trans_eq (unseenCount_empty nodes)

end Emitting

/-! ## Computations that agree -/

/-- The computation has come to an end, for whatever reason, in such a state. -/
def Ends {σ α : Type} (P : Emitting σ → Prop) : EStateM.Result Stop (Emitting σ) α → Prop
  | .ok _ after => P after
  | .error (.failed _ _) after => P after
  | .error .endless _ => False

/-- Two computations come to the same end, with the states before and after in
relation, wherever at most `room` of the names of `nodes` are untracked. -/
def Agree {σ α : Type} (R : Emitting σ → Emitting σ → Prop) (nodes : Finset Handle) (room : Nat)
    (work work' : EmitM σ α) : Prop :=
  ∀ before, before.unseen nodes ≤ room →
    work.run before = work'.run before ∧ Ends (R before) (work.run before)

section Agree

variable {σ α β : Type} {R : Emitting σ → Emitting σ → Prop} {nodes : Finset Handle} {room : Nat}
  {before middle : Emitting σ}

theorem Ends.mono {P Q : Emitting σ → Prop} {result : EStateM.Result Stop (Emitting σ) α}
    (ends : Ends P result) (weaker : ∀ after, P after → Q after) : Ends Q result := by
  match result, ends with
  | .ok _ after, ends => exact weaker after ends
  | .error (.failed _ _) after, ends => exact weaker after ends

namespace Emitting

theorem Tame.unseen_le (tame : Tame R) (related : R before middle) (nodes : Finset Handle) :
    middle.unseen nodes ≤ before.unseen nodes :=
  unseenCount_mono (tame.known related)

/-- A name that is started leaves fewer names untracked. -/
theorem unseen_begin_lt {handle : Handle} (among : handle ∈ nodes)
    (untracked : before.tracker.progress? handle = none) :
    (before.begin handle).unseen nodes < before.unseen nodes := by
  have new : handle ∉ before.known := fun tracked => tracked untracked
  unfold unseen
  rw [known_begin untracked]
  exact unseenCount_insert among new

end Emitting

variable (tame : Emitting.Tame R)
include tame

theorem agree_pure (a : α) : Agree R nodes room (pure a) (pure a) :=
  fun before _ => ⟨rfl, tame.refl before⟩

theorem agree_stop (fault : Fault) (during : List Handle) :
    Agree (α := α) R nodes room (throw (.failed fault during)) (throw (.failed fault during)) :=
  fun before _ => ⟨rfl, tame.refl before⟩

theorem agree_bind {work work' : EmitM σ α} {next next' : α → EmitM σ β}
    (first : Agree R nodes room work work')
    (second : ∀ a, Agree R nodes room (next a) (next' a)) :
    Agree R nodes room (work >>= next) (work' >>= next') := by
  intro before enough
  obtain ⟨same, ends⟩ := first before enough
  rw [EStateM.run_bind, EStateM.run_bind, ← same]
  cases run : work.run before with
  | ok a middle =>
      rw [run] at ends
      -- names stay tracked, so there is room for what follows
      obtain ⟨same', ends'⟩ := second a middle ((tame.unseen_le ends nodes).trans enough)
      exact ⟨same', ends'.mono fun after => tame.trans ends⟩
  | error stop middle =>
      rw [run] at ends
      match stop, ends with
      | .failed fault during, ends => exact ⟨rfl, ends⟩

theorem agree_map {work work' : EmitM σ α} (agree : Agree R nodes room work work') (f : α → β) :
    Agree R nodes room (do return f (← work)) (do return f (← work')) :=
  agree_bind tame agree fun a => agree_pure tame (f a)

omit tame in
theorem agree_get {next next' : Emitting σ → EmitM σ α}
    (each : ∀ st, Agree R nodes room (next st) (next' st)) :
    Agree R nodes room (get >>= next) (get >>= next') :=
  fun before enough => each before before enough

end Agree

/-! ## Emissions -/

/-- Two suppliers come to the same when they are asked for the name, just after it has
been started, and leave a state in relation to the one before. -/
def Serves {σ : Type} (R : Emitting σ → Emitting σ → Prop) (ledger : Ledger)
    (nodes : Finset Handle) (room : Nat) (supply supply' : Supplier σ) (handle : Handle) : Prop :=
  ∀ before binding, before.tracker.progress? handle = none →
    ledger.binding? handle = some binding → binding.value.isReady = false →
    before.unseen nodes ≤ room →
    (supply handle).run (before.begin handle) = (supply' handle).run (before.begin handle) ∧
      Ends (R before) ((supply handle).run (before.begin handle))

section Emissions

variable {σ : Type} {R : Emitting σ → Emitting σ → Prop} {nodes : Finset Handle} {room : Nat}
  {ledger : Ledger} {style : Style} {supply supply' : Supplier σ} {handle : Handle}

variable (tame : Emitting.Tame R)
include tame

/-- A supplier that always declines may serve any name. -/
theorem serves_none (ledger : Ledger) (nodes : Finset Handle) (room : Nat) (handle : Handle) :
    Serves R ledger nodes room .none .none handle :=
  fun _ _ untracked _ _ _ => ⟨rfl, tame.begin untracked⟩

theorem run_code_of_serves (style : Style)
    (serves : Serves R ledger nodes room supply supply' handle) {before : Emitting σ}
    (untracked : before.tracker.progress? handle = none) (enough : before.unseen nodes ≤ room) :
    (Emission.code ledger style supply handle).run (before.begin handle) =
        (Emission.code ledger style supply' handle).run (before.begin handle) ∧
      Ends (R before) ((Emission.code ledger style supply handle).run (before.begin handle)) := by
  have begins := tame.begin untracked
  -- only a bound name whose value lacks something reaches the supplier
  cases ready : Emission.ready? ledger style handle with
  | some fragment =>
      rw [Emission.code_of_ready ready, Emission.code_of_ready ready]
      exact ⟨rfl, begins⟩
  | none =>
      cases bound : ledger.binding? handle with
      | none =>
          rw [Emission.code_of_unbound bound, Emission.code_of_unbound bound]
          exact ⟨rfl, begins⟩
      | some binding =>
          have lacking : binding.value.isReady = false := by
            by_contra ready'
            rw [Bool.not_eq_false] at ready'
            obtain ⟨fragment, spelled, -⟩ := Ledger.spelled?_of_isReady style bound ready'
            rw [Emission.ready?_eq_spelled?, spelled] at ready
            exact absurd ready (by simp)
          obtain ⟨same, ends⟩ := serves before binding untracked bound lacking enough
          rw [Emission.code_of_missing bound ready, Emission.code_of_missing bound ready,
            EStateM.run_bind, EStateM.run_bind, ← same]
          refine ⟨rfl, ?_⟩
          match (supply handle).run (before.begin handle), ends with
          | .ok none after, ends => exact ends
          | .ok (some code) after, ends => exact ends
          | .error (.failed fault during) after, ends => exact ends

theorem agree_piece? (style : Style) (serves : Serves R ledger nodes room supply supply' handle) :
    Agree R nodes room (Emission.piece? ledger style supply handle)
      (Emission.piece? ledger style supply' handle) := by
  intro before enough
  by_cases tracked : before.tracker.tracks handle = true
  · rw [Emission.run_piece?_of_tracked tracked, Emission.run_piece?_of_tracked tracked]
    exact ⟨rfl, tame.refl before⟩
  · rw [Bool.not_eq_true] at tracked
    rw [Emission.run_piece?_of_untracked tracked, Emission.run_piece?_of_untracked tracked]
    rw [Tracker.tracks_eq_false_iff] at tracked
    obtain ⟨same, ends⟩ := run_code_of_serves tame style serves tracked enough
    rw [← same]
    refine ⟨rfl, ?_⟩
    match (Emission.code ledger style supply handle).run (before.begin handle), ends with
    | .ok code after, ends => exact tame.trans ends (tame.finish after handle)
    | .error (.failed fault during) after, ends => exact ends

theorem agree_pieces (style : Style) {handles : List Handle}
    (serves : ∀ handle ∈ handles, Serves R ledger nodes room supply supply' handle) :
    Agree R nodes room (Emission.pieces ledger style supply handles)
      (Emission.pieces ledger style supply' handles) := by
  induction handles with
  | nil => exact agree_pure tame []
  | cons handle rest ih =>
      rw [Emission.pieces_cons, Emission.pieces_cons]
      refine agree_bind tame (agree_piece? tame style (serves handle List.mem_cons_self)) ?_
      intro piece
      exact agree_map tame (ih fun other held => serves other (List.mem_cons_of_mem _ held)) _

theorem agree_declarations (style : Style) {selection : Selection}
    (serves : ∀ handle ∈ selection.toList, Serves R ledger nodes room supply supply' handle) :
    Agree R nodes room (Emission.declarations ledger style supply selection)
      (Emission.declarations ledger style supply' selection) :=
  agree_map tame (agree_pieces tame style serves) style.block

theorem agree_exportBlock (style : Style) {item : Export}
    (serves : Serves R ledger nodes room supply supply' item.entry) :
    Agree R nodes room (Bundle.exportBlock ledger style supply item)
      (Bundle.exportBlock ledger style supply' item) := by
  unfold Bundle.exportBlock
  cases item.statement style with
  | error fault => exact agree_stop tame fault []
  | ok statement =>
      refine agree_map tame (agree_declarations tame style fun handle selected => ?_) _
      obtain rfl := List.mem_singleton.mp ((Selection.mem_toList_ofList _).mp selected)
      exact serves

theorem agree_exportBlocks (style : Style) {items : List Export}
    (serves : ∀ item ∈ items, Serves R ledger nodes room supply supply' item.entry) :
    Agree R nodes room (Bundle.exportBlocks ledger style supply items)
      (Bundle.exportBlocks ledger style supply' items) := by
  induction items with
  | nil => exact agree_pure tame ∅
  | cons item rest ih =>
      unfold Bundle.exportBlocks
      refine agree_bind tame (agree_exportBlock tame style (serves item List.mem_cons_self)) ?_
      intro block
      exact agree_map tame (ih fun other held => serves other (List.mem_cons_of_mem _ held)) _

omit tame in
/-- Bundles export their entries. -/
theorem Bundle.entry_of_exports {bundle : Bundle} {items : List Export}
    (exported : bundle.exports = .ok items) : ∀ item ∈ items, item.entry ∈ bundle.entries := by
  unfold Bundle.exports at exported
  unfold Bundle.entries
  intro item held
  cases standard : bundle.standard? with
  | none =>
      cases named : bundle.named with
      | nil =>
          simp only [standard, named] at exported
          exact absurd exported (by simp)
      | cons first rest =>
          simp only [standard, named] at exported
          rw [← Except.ok.inj exported] at held
          obtain ⟨entry, among, rfl⟩ := List.mem_map.mp held
          exact List.mem_append_right _ (List.mem_map_of_mem among)
  | some entry =>
      cases named : bundle.named with
      | nil =>
          simp only [standard, named] at exported
          rw [← Except.ok.inj exported] at held
          rw [List.mem_singleton.mp held]
          exact List.mem_append_left _ List.mem_cons_self
      | cons first rest =>
          simp only [standard, named] at exported
          exact absurd exported (by simp)

theorem agree_assemble (style : Style) {bundle : Bundle}
    (serves : ∀ handle ∈ bundle.entries, Serves R ledger nodes room supply supply' handle) :
    Agree R nodes room (Bundle.assemble ledger style supply bundle)
      (Bundle.assemble ledger style supply' bundle) := by
  unfold Bundle.assemble
  cases exported : bundle.exports with
  | error fault => exact agree_stop tame fault []
  | ok items =>
      refine agree_map tame (agree_exportBlocks tame style fun item held => ?_) _
      exact serves item.entry (Bundle.entry_of_exports exported item held)

end Emissions

end NameScope
