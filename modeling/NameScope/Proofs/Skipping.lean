import NameScope.Proofs.FirstOccurrence
import NameScope.Proofs.Reentrancy

/-!
# Names that are passed over

A supplier `Keeps` the tracker if no name that is tracked becomes untracked by its work,
whether it succeeds or fails. All suppliers that follow routines do (`keeps_supplier`). An
emission with such a supplier comes to the same when names are left out that are tracked at its
beginning (`run_pieces_filter`), and when repeated names are left out after their first
occurrence (`run_pieces_eraseDups`).
-/

namespace NameScope

open Emitting

variable {σ α β : Type}

namespace EmitM

/-- The state that a computation leaves behind, whatever its end. -/
def leaves (work : EmitM σ α) (st : Emitting σ) : Emitting σ :=
  match work.run st with
  | .ok _ after => after
  | .error _ after => after

/-- What is tracked stays tracked. -/
def Keeps (work : EmitM σ α) : Prop := ∀ st, st.known ⊆ (work.leaves st).known

theorem leaves_of_ok {work : EmitM σ α} {st after : Emitting σ} {a : α}
    (run : work.run st = .ok a after) : work.leaves st = after := by
  unfold leaves
  rw [run]

theorem leaves_of_error {work : EmitM σ α} {st after : Emitting σ} {stop : Stop}
    (run : work.run st = .error stop after) : work.leaves st = after := by
  unfold leaves
  rw [run]

theorem Keeps.of_ok {work : EmitM σ α} (keeps : work.Keeps) {st after : Emitting σ} {a : α}
    (run : work.run st = .ok a after) : st.known ⊆ after.known :=
  leaves_of_ok run ▸ keeps st

theorem keeps_pure (a : α) : Keeps (pure a : EmitM σ α) := fun _ => subset_rfl

theorem keeps_throw (stop : Stop) : Keeps (throw stop : EmitM σ α) := fun _ => subset_rfl

theorem keeps_modifyState (change : σ → σ) : Keeps (modifyState change) := fun _ => subset_rfl

theorem keeps_bind {work : EmitM σ α} {next : α → EmitM σ β} (first : work.Keeps)
    (second : ∀ a, (next a).Keeps) : Keeps (work >>= next) := by
  intro st
  unfold leaves
  rw [EStateM.run_bind]
  cases run : work.run st with
  | ok a middle => exact (first.of_ok run).trans (second a middle)
  | error stop middle =>
      have kept := first st
      rw [leaves_of_error run] at kept
      exact kept

/-- What follows may depend on the state. -/
theorem keeps_get {next : Emitting σ → EmitM σ α} (each : ∀ st, (next st).Keeps) :
    Keeps (get >>= next) :=
  fun st => each st st

theorem keeps_attempt {work : EmitM σ α} (keeps : work.Keeps) : Keeps (attempt work) := by
  intro st
  have kept := keeps st
  unfold leaves at kept ⊢
  rw [run_attempt]
  match work.run st, kept with
  | .ok a after, kept => exact kept
  | .error (.failed fault during) after, kept => exact kept
  | .error .endless after, kept => exact kept

/-- Work with a tracker of its own leaves the one at hand alone. -/
theorem keeps_apart (work : EmitM σ α) : Keeps (apart work) := by
  intro st
  unfold leaves
  rw [run_apart]
  match work.run { state := st.state } with
  | .ok a after => exact subset_rfl
  | .error (.failed fault during) after => exact subset_rfl
  | .error .endless after => exact subset_rfl

end EmitM

/-- The work of a supplier leaves all names tracked that are. -/
def Supplier.Keeps (supply : Supplier σ) : Prop := ∀ handle, (supply handle).Keeps

open EmitM

namespace Emission

variable {ledger : Ledger} {style : Style} {supply : Supplier σ} {handle : Handle}

section Keeps

variable (keeps : supply.Keeps)
include keeps

theorem keeps_code (ledger : Ledger) (style : Style) (handle : Handle) :
    (code ledger style supply handle).Keeps := by
  cases ready : ready? ledger style handle with
  | some fragment =>
      rw [code_of_ready ready]
      exact keeps_pure fragment
  | none =>
      cases bound : ledger.binding? handle with
      | none =>
          rw [code_of_unbound bound]
          exact keeps_throw _
      | some binding =>
          rw [code_of_missing bound ready]
          refine keeps_bind (keeps handle) fun code? => ?_
          cases code? with
          | none => exact keeps_throw _
          | some code => exact keeps_pure code

theorem keeps_piece? (ledger : Ledger) (style : Style) (handle : Handle) :
    (piece? ledger style supply handle).Keeps := by
  intro st
  unfold leaves
  by_cases tracked : st.tracker.tracks handle = true
  · rw [run_piece?_of_tracked tracked]
  · rw [Bool.not_eq_true] at tracked
    rw [run_piece?_of_untracked tracked]
    have begun : st.known ⊆ (st.begin handle).known := by
      rw [known_begin (Tracker.tracks_eq_false_iff.mp tracked)]
      exact Set.subset_insert _ _
    have kept := begun.trans (keeps_code keeps ledger style handle (st.begin handle))
    unfold leaves at kept
    cases coded : (code ledger style supply handle).run (st.begin handle) with
    | ok fragment after =>
        rw [coded] at kept
        exact kept.trans (known_finish after handle).symm.subset
    | error stop after =>
        rw [coded] at kept
        cases stop with
        | failed fault during => exact kept
        | endless => exact kept

theorem keeps_pieces (ledger : Ledger) (style : Style) (handles : List Handle) :
    (pieces ledger style supply handles).Keeps := by
  induction handles with
  | nil => exact keeps_pure []
  | cons handle rest ih =>
      rw [pieces_cons]
      exact keeps_bind (keeps_piece? keeps ledger style handle) fun piece? =>
        keeps_bind ih fun later => keeps_pure _

theorem keeps_declarations (ledger : Ledger) (style : Style) (selection : Selection) :
    (declarations ledger style supply selection).Keeps :=
  keeps_bind (keeps_pieces keeps ledger style selection.toList) fun _ => keeps_pure _

end Keeps

/-! ## Suppliers -/

theorem keeps_none : (Supplier.none : Supplier σ).Keeps := fun _ => keeps_pure _

/-- An errand keeps the tracker at hand, even if it uses another. -/
theorem keeps_errand {supply : Supplier σ} (keeps : supply.Keeps) (ledger : Ledger)
    (errand : Errand) : (errand.run ledger supply).Keeps := by
  have supplied : (if errand.supplied then supply else .none).Keeps := by
    split
    · exact keeps
    · exact keeps_none
  unfold Errand.run
  cases errand.tracking with
  | handed => exact keeps_declarations supplied ledger errand.style errand.selection
  | fresh => exact keeps_apart _

theorem keeps_follow {emit : Errand → EmitM (Noted σ) Fragment}
    (emits : ∀ errand, (emit errand).Keeps) (routine : Routine σ) :
    (routine.follow emit).Keeps := by
  induction routine with
  | answer code? state =>
      refine keeps_bind (keeps_modifyState _) fun _ => ?_
      cases code? with
      | ok code? => exact keeps_pure code?
      | error failure => exact keeps_throw _
  | emit errand state resume ih =>
      refine keeps_bind (keeps_modifyState _) fun _ => ?_
      refine keeps_bind (keeps_attempt (emits errand)) fun block => keeps_get fun now => ?_
      exact ih block now.tracker now.state.state

/-- **Suppliers that follow routines** emit, go on after failures, and keep states of their
own, but what is tracked stays tracked. -/
theorem keeps_supplier (ledger : Ledger) (routines : Routines σ) (depth : Nat) :
    Supplier.Keeps (routines.supplier ledger depth) := by
  induction depth with
  | zero => exact fun handle => keeps_throw .endless
  | succ depth ih =>
      intro handle
      refine keeps_get fun now => keeps_bind (keeps_modifyState _) fun _ => ?_
      exact keeps_follow (keeps_errand ih ledger) _

/-! ## Leaving names out -/

section Skip

variable (keeps : supply.Keeps)
include keeps

/-- **Tracked names** may be left out. -/
theorem run_pieces_filter (stays : Handle → Bool) {handles : List Handle} {st : Emitting σ}
    (tracked : ∀ handle ∈ handles, stays handle = false → handle ∈ st.known) :
    (pieces ledger style supply handles).run st =
      (pieces ledger style supply (handles.filter stays)).run st := by
  induction handles generalizing st with
  | nil => rfl
  | cons handle rest ih =>
      have later : ∀ middle : Emitting σ, st.known ⊆ middle.known →
          ∀ handle ∈ rest, stays handle = false → handle ∈ middle.known :=
        fun middle kept other held leaves =>
          kept (tracked other (List.mem_cons_of_mem _ held) leaves)
      by_cases leaves : stays handle = false
      · have known : st.tracker.tracks handle = true :=
          Tracker.tracks_iff.mpr (tracked handle List.mem_cons_self leaves)
        rw [List.filter_cons_of_neg (by rw [leaves]; simp), run_pieces_of_tracked known]
        exact ih (later st subset_rfl)
      · rw [Bool.not_eq_false] at leaves
        rw [List.filter_cons_of_pos leaves, pieces_cons, pieces_cons, EStateM.run_bind,
          EStateM.run_bind]
        cases run : (piece? ledger style supply handle).run st with
        | error stop middle => rfl
        | ok piece middle =>
            have kept := (keeps_piece? keeps ledger style handle).of_ok run
            simp only [EStateM.run_bind, ih (later middle kept)]

/-- A name that has been looked at is tracked. -/
theorem known_of_run_piece? {st middle : Emitting σ} {piece : Option Piece}
    (run : (piece? ledger style supply handle).run st = .ok piece middle) :
    handle ∈ middle.known := by
  by_cases tracked : st.tracker.tracks handle = true
  · exact (keeps_piece? keeps ledger style handle).of_ok run (Tracker.tracks_iff.mp tracked)
  · rw [Bool.not_eq_true] at tracked
    have begun : handle ∈ (st.begin handle).known := by
      rw [known_begin (Tracker.tracks_eq_false_iff.mp tracked)]
      exact Set.mem_insert _ _
    rw [run_piece?_of_untracked tracked] at run
    cases coded : (code ledger style supply handle).run (st.begin handle) with
    | ok fragment after =>
        rw [coded] at run
        obtain ⟨-, rfl⟩ := EStateM.Result.ok.inj run
        rw [known_finish]
        exact (keeps_code keeps ledger style handle).of_ok coded begun
    | error stop after =>
        rw [coded] at run
        cases stop <;> cases run

/-- **Repeated names** may be left out after their first occurrence. -/
theorem run_pieces_eraseDups (handles : List Handle) (st : Emitting σ) :
    (pieces ledger style supply handles).run st =
      (pieces ledger style supply handles.eraseDups).run st := by
  match handles with
  | [] => rfl
  | handle :: rest =>
      have shorter : (rest.filter fun other => !other == handle).length < rest.length + 1 :=
        Nat.lt_succ_of_le (List.length_filter_le _ _)
      rw [List.eraseDups_cons, pieces_cons, pieces_cons, EStateM.run_bind, EStateM.run_bind]
      cases run : (piece? ledger style supply handle).run st with
      | error stop middle => rfl
      | ok piece middle =>
          -- from here on the name is tracked, so its repetitions are passed over
          have known := known_of_run_piece? keeps run
          have skipped : ∀ other ∈ rest, (!other == handle) = false → other ∈ middle.known := by
            intro other _ same
            have same : other = handle := by simpa using same
            exact same ▸ known
          simp only [EStateM.run_bind, run_pieces_filter keeps _ skipped,
            run_pieces_eraseDups (rest.filter fun other => !other == handle) middle]
termination_by handles.length

end Skip

end Emission

end NameScope
