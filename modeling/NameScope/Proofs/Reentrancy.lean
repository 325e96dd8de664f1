import NameScope.Proofs.Agreement
import NameScope.Supply.Routine

/-!
# Suppliers that emit

A supplier may emit what a value depends on, and so be asked for code again before it
has answered. With finitely many names this comes to an end (`Routines.entered_in_turn`):
from a certain depth on, an emission has one result, which does not depend on the depth,
and the supplier has been asked once at most for any name, while more and more names are
tracked.

The measure is the number of names that are not tracked. `serves_supplier` is the
induction on it: two depths that are not below this number come to the same.
-/

namespace NameScope

/-! ## What a supplier was asked for -/

/-- A supplier was asked for a name: how far the name had come then, and how many names
were tracked. -/
structure Asking where
  name : Handle
  progress : Option Progress
  tracked : Nat
deriving DecidableEq

/-- The asking that is noted, if it is one. -/
def Note.asking? : Note → Option Asking
  | .asked name progress tracked => some ⟨name, progress, tracked⟩
  | .emitted _ => none

/-- What a supplier was asked for, oldest first. -/
def Note.askings (notes : List Note) : List Asking := notes.filterMap Note.asking?

theorem Note.askings_append (notes more : List Note) :
    askings (notes ++ more) = askings notes ++ askings more :=
  List.filterMap_append

/-- The supplier was asked in turn: for names only that are bound to a value without
code or a usable import, that have been started and that a tracker does not hold, for
each of them once, and with more names tracked every time. -/
structure Asking.InTurn (ledger : Ledger) (before : Tracker) (askings : List Asking) : Prop where
  lacking : ∀ asking ∈ askings, ∃ binding,
    ledger.binding? asking.name = some binding ∧ binding.value.isReady = false
  started : ∀ asking ∈ askings, asking.progress = some .started
  untracked : ∀ asking ∈ askings, before.progress? asking.name = none
  once : (askings.map Asking.name).Nodup
  rising : (askings.map Asking.tracked).Pairwise (· < ·)

theorem Asking.InTurn.nil (ledger : Ledger) (before : Tracker) : InTurn ledger before [] := by
  refine ⟨?_, ?_, ?_, List.nodup_nil, .nil⟩
  all_goals exact fun asking held => absurd held List.not_mem_nil

/-! ## The states before and after -/

namespace Emitting

variable {σ : Type}

/-- The supplier's state does not change. -/
def Rests (before after : Emitting σ) : Prop :=
  after.state = before.state ∧ before.known ⊆ after.known

theorem tame_rests : Tame (Rests (σ := σ)) where
  refl _ := ⟨rfl, subset_rfl⟩
  trans first second := ⟨second.1.trans first.1, first.2.trans second.2⟩
  known rests := rests.2
  begin untracked := ⟨rfl, (Set.subset_insert _ _).trans_eq (known_begin untracked).symm⟩
  finish st handle := ⟨rfl, (known_finish st handle).symm.subset⟩

/-- Names stay tracked, and the supplier was asked in turn, each time for a name that
has become tracked in between. -/
structure Guards (ledger : Ledger) (before after : Emitting (Noted σ)) : Prop where
  known : before.known ⊆ after.known
  size : before.tracker.size ≤ after.tracker.size
  asked : ∃ notes, after.state.notes = before.state.notes ++ notes ∧
    Asking.InTurn ledger before.tracker (Note.askings notes) ∧
    ∀ asking ∈ Note.askings notes, asking.name ∈ after.known ∧
      before.tracker.size < asking.tracked ∧ asking.tracked ≤ after.tracker.size

variable {ledger : Ledger} {before middle after : Emitting (Noted σ)} {handle : Handle}

/-- Names stay tracked, and the supplier is asked for nothing. -/
theorem Guards.of_unasked {notes : List Note} (known : before.known ⊆ after.known)
    (size : before.tracker.size ≤ after.tracker.size)
    (noted : after.state.notes = before.state.notes ++ notes)
    (unasked : Note.askings notes = []) : Guards ledger before after := by
  refine ⟨known, size, notes, noted, ?_⟩
  rw [unasked]
  exact ⟨.nil ledger before.tracker, fun asking held => absurd held List.not_mem_nil⟩

theorem Guards.trans (first : Guards ledger before middle) (second : Guards ledger middle after) :
    Guards ledger before after := by
  obtain ⟨notes, noted, inTurn, bounds⟩ := first.asked
  obtain ⟨notes', noted', inTurn', bounds'⟩ := second.asked
  refine ⟨first.known.trans second.known, first.size.trans second.size, notes ++ notes', ?_, ?_⟩
  · rw [noted', noted, List.append_assoc]
  rw [Note.askings_append]
  refine ⟨⟨List.forall_mem_append.mpr ⟨inTurn.lacking, inTurn'.lacking⟩,
    List.forall_mem_append.mpr ⟨inTurn.started, inTurn'.started⟩,
    List.forall_mem_append.mpr ⟨inTurn.untracked, ?_⟩, ?_, ?_⟩,
    List.forall_mem_append.mpr ⟨?_, ?_⟩⟩
  · intro asking late
    by_contra tracked
    exact first.known tracked (inTurn'.untracked asking late)
  · -- what was asked for first is tracked when the second part begins
    rw [List.map_append, List.nodup_append]
    refine ⟨inTurn.once, inTurn'.once, ?_⟩
    intro name early other late same
    obtain ⟨asking, held, rfl⟩ := List.mem_map.mp early
    obtain ⟨asking', held', rfl⟩ := List.mem_map.mp late
    exact (bounds asking held).1 (same ▸ inTurn'.untracked asking' held')
  · rw [List.map_append, List.pairwise_append]
    refine ⟨inTurn.rising, inTurn'.rising, ?_⟩
    intro tracked early tracked' late
    obtain ⟨asking, held, rfl⟩ := List.mem_map.mp early
    obtain ⟨asking', held', rfl⟩ := List.mem_map.mp late
    exact (bounds asking held).2.2.trans_lt (bounds' asking' held').2.1
  · intro asking early
    obtain ⟨now, more, most⟩ := bounds asking early
    exact ⟨second.known now, more, most.trans second.size⟩
  · intro asking late
    obtain ⟨now, more, most⟩ := bounds' asking late
    exact ⟨now, first.size.trans_lt more, most⟩

theorem tame_guards (ledger : Ledger) : Tame (Guards (σ := σ) ledger) where
  refl st := .of_unasked subset_rfl (Nat.le_refl _) (List.append_nil _).symm rfl
  trans first second := first.trans second
  known guards := guards.known
  begin untracked := by
    refine .of_unasked ?_ ?_ (List.append_nil _).symm rfl
    · rw [known_begin untracked]
      exact Set.subset_insert _ _
    · exact (Nat.le_succ _).trans_eq (Tracker.size_start untracked).symm
  finish st handle := by
    refine .of_unasked (known_finish st handle).symm.subset ?_ (List.append_nil _).symm rfl
    show st.tracker.states.keys.length ≤ (st.tracker.complete handle).states.keys.length
    rw [Tracker.keys_complete]

/-- The state in which a supplier follows the routine of a name that has just been
started. -/
def enter (st : Emitting (Noted σ)) (handle : Handle) : Emitting (Noted σ) :=
  let begun := st.begin handle
  { begun with
    state := begun.state.note
      (.asked handle (begun.tracker.progress? handle) begun.tracker.size) }

theorem guards_enter {binding : Binding} (untracked : before.tracker.progress? handle = none)
    (bound : ledger.binding? handle = some binding) (lacking : binding.value.isReady = false) :
    Guards ledger before (before.enter handle) := by
  have begun : (before.begin handle).tracker.progress? handle = some .started := by
    rw [progress?_begin untracked, if_pos rfl]
  have grown : (before.begin handle).tracker.size = before.tracker.size + 1 :=
    Tracker.size_start untracked
  -- one asking, which counts the name that has just been started
  have only : ∀ asking ∈ Note.askings [.asked handle
      ((before.begin handle).tracker.progress? handle) (before.begin handle).tracker.size],
      asking = ⟨handle, some .started, before.tracker.size + 1⟩ := by
    intro asking held
    rw [begun, grown] at held
    exact List.mem_singleton.mp held
  have begins := (tame_guards ledger).begin untracked
  refine ⟨begins.known, begins.size, _, rfl, ⟨?_, ?_, ?_, List.pairwise_singleton _ handle,
    List.pairwise_singleton _ _⟩, ?_⟩
  all_goals
    intro asking held
    rw [only asking held]
  · exact ⟨binding, bound, lacking⟩
  · exact untracked
  · refine ⟨?_, Nat.lt_succ_self _, grown.ge⟩
    show (before.begin handle).tracker.progress? handle ≠ none
    rw [begun]
    simp

end Emitting

/-! ## Routines -/

/-- The emission is of names of `nodes`, and one with a tracker of its own has no
supplier. -/
def Errand.Within (nodes : Finset Handle) (errand : Errand) : Prop :=
  (∀ handle ∈ errand.selection.toList, handle ∈ nodes) ∧
    (errand.tracking = .fresh → errand.supplied = false)

/-- All emissions that the routine may ask for are like that. -/
def Routine.Within {σ : Type} (nodes : Finset Handle) : Routine σ → Prop
  | .answer _ _ => True
  | .emit errand _ resume =>
    errand.Within nodes ∧ ∀ block tracker state, (resume block tracker state).Within nodes

section Routines

open Emitting

variable {σ α : Type} {nodes : Finset Handle} {room : Nat} {ledger : Ledger}

theorem EmitM.run_attempt (work : EmitM σ α) (st : Emitting σ) :
    (attempt work).run st = match work.run st with
      | .ok a st => .ok (.ok a) st
      | .error (.failed fault during) st => .ok (.error ⟨fault, during⟩) st
      | .error .endless st => .error .endless st := rfl

theorem agree_attempt {work work' : EmitM σ α} (agree : Agree R nodes room work work') :
    Agree R nodes room (EmitM.attempt work) (EmitM.attempt work') := by
  intro before enough
  obtain ⟨same, ends⟩ := agree before enough
  rw [EmitM.run_attempt, EmitM.run_attempt, ← same]
  refine ⟨rfl, ?_⟩
  match work.run before, ends with
  | .ok a after, ends => exact ends
  | .error (.failed fault during) after, ends => exact ends

/-- A change of the supplier's state that notes no asking. -/
theorem agree_modifyState {change : Noted σ → Noted σ} (notes : List Note)
    (noted : ∀ st, (change st).notes = st.notes ++ notes) (unasked : Note.askings notes = []) :
    Agree (Guards ledger) nodes room (EmitM.modifyState change) (EmitM.modifyState change) :=
  fun before _ => ⟨rfl, .of_unasked subset_rfl (Nat.le_refl _) (noted before.state) unasked⟩

theorem EmitM.run_apart (work : EmitM σ α) (st : Emitting σ) :
    (apart work).run st = match work.run { state := st.state } with
      | .ok a after => .ok a { st with state := after.state }
      | .error (.failed fault _) after => .error (.failed fault []) { st with state := after.state }
      | .error .endless after => .error .endless { st with state := after.state } := rfl

/-- An emission with a tracker of its own and without a supplier changes nothing. -/
theorem agree_apart (style : Style) (selection : Selection) :
    Agree (Guards ledger) nodes room
      (EmitM.apart (Emission.declarations (σ := Noted σ) ledger style .none selection))
      (EmitM.apart (Emission.declarations ledger style .none selection)) := by
  intro before _
  refine ⟨rfl, ?_⟩
  have agree : Agree (Rests (σ := Noted σ)) ∅ 0
      (Emission.declarations ledger style .none selection)
      (Emission.declarations ledger style .none selection) :=
    agree_declarations tame_rests style fun handle _ => serves_none tame_rests ledger ∅ 0 handle
  obtain ⟨-, ends⟩ := agree { state := before.state } (unseen_le_card ∅ _)
  -- the tracker is dropped afterwards, and without a supplier nothing is noted
  have unchanged : ∀ after : Emitting (Noted σ), Rests { state := before.state } after →
      Guards ledger before { before with state := after.state } := by
    intro after rests
    rw [rests.1]
    exact (tame_guards ledger).refl before
  rw [EmitM.run_apart]
  match (Emission.declarations ledger style .none selection).run { state := before.state },
    ends with
  | .ok block after, rests => exact unchanged after rests
  | .error (.failed fault during) after, rests => exact unchanged after rests

theorem agree_run {supply supply' : Supplier (Noted σ)}
    (serves : ∀ handle ∈ nodes, Serves (Guards ledger) ledger nodes room supply supply' handle)
    {errand : Errand} (within : errand.Within nodes) :
    Agree (Guards ledger) nodes room (errand.run ledger supply) (errand.run ledger supply') := by
  obtain ⟨selected, apart⟩ := within
  unfold Errand.run
  cases tracking : errand.tracking with
  | fresh =>
      rw [apart tracking]
      exact agree_apart errand.style errand.selection
  | handed =>
      refine agree_declarations (tame_guards ledger) errand.style fun handle held => ?_
      cases errand.supplied with
      | true => exact serves handle (selected handle held)
      | false => exact serves_none (tame_guards ledger) ledger nodes room handle

theorem agree_follow {emit emit' : Errand → EmitM (Noted σ) Fragment}
    (emits : ∀ errand : Errand, errand.Within nodes →
      Agree (Guards ledger) nodes room (emit errand) (emit' errand))
    {routine : Routine σ} (within : routine.Within nodes) :
    Agree (Guards ledger) nodes room (routine.follow emit) (routine.follow emit') := by
  have tame := tame_guards (σ := σ) ledger
  induction routine with
  | answer code? state =>
      refine agree_bind tame (agree_modifyState [] (fun st => (List.append_nil _).symm) rfl) ?_
      intro _
      cases code? with
      | ok code? => exact agree_pure tame code?
      | error failure => exact agree_stop tame failure.fault failure.during
  | emit errand state resume ih =>
      obtain ⟨now, later⟩ := within
      refine agree_bind tame (agree_modifyState [.emitted errand] (fun st => rfl) rfl) fun _ => ?_
      refine agree_bind tame (agree_attempt (emits errand now)) fun block => agree_get fun st => ?_
      exact ih block st.tracker st.state.state (later block st.tracker st.state.state)

/-- **The measure.** While the untracked names are no more than the depth, the depth does
not matter: a name that a supplier is asked for has been started, so fewer names are
untracked when it emits. -/
theorem serves_supplier {routines : Routines σ}
    (within : ∀ handle ∈ nodes, ∀ tracker state, (routines handle tracker state).Within nodes)
    {depth depth' : Nat} (deep : room ≤ depth) (deep' : room ≤ depth') :
    ∀ handle ∈ nodes, Serves (Guards ledger) ledger nodes room (routines.supplier ledger depth)
      (routines.supplier ledger depth') handle := by
  induction room generalizing depth depth' with
  | zero =>
      intro handle among before binding untracked bound lacking enough
      exact absurd (unseen_begin_lt among untracked) (by omega)
  | succ room ih =>
      obtain ⟨depth, rfl⟩ : ∃ inner, depth = inner + 1 := ⟨depth - 1, by omega⟩
      obtain ⟨depth', rfl⟩ : ∃ inner, depth' = inner + 1 := ⟨depth' - 1, by omega⟩
      intro handle among before binding untracked bound lacking enough
      have inner := ih (Nat.le_of_succ_le_succ deep) (Nat.le_of_succ_le_succ deep')
      have entered := guards_enter untracked bound lacking
      -- the name itself is tracked from here on
      have fewer : (before.enter handle).unseen nodes < before.unseen nodes :=
        unseen_begin_lt among untracked
      obtain ⟨same, ends⟩ := agree_follow (fun errand => agree_run inner)
        (within handle among (before.begin handle).tracker before.state.state)
        (before.enter handle) (Nat.le_of_lt_succ (fewer.trans_le enough))
      exact ⟨same, ends.mono fun after => entered.trans⟩

end Routines

/-! ## Recipes -/

section Recipes

variable {σ : Type}

theorem Routine.run_follow_emit (emit : Errand → EmitM (Noted σ) Fragment) (errand : Errand)
    (state : σ) (resume : Except Failure Fragment → Tracker → σ → Routine σ)
    (st : Emitting (Noted σ)) :
    (follow emit (.emit errand state resume)).run st =
      match (emit errand).run
        { st with state := (st.state.moveTo state).note (.emitted errand) } with
      | .ok block now =>
        (follow emit (resume (.ok block) now.tracker now.state.state)).run now
      | .error (.failed fault during) now =>
        (follow emit (resume (.error ⟨fault, during⟩) now.tracker now.state.state)).run now
      | .error .endless now => .error .endless now := by
  rw [follow]
  unfold EmitM.modifyState
  simp only [EStateM.run_bind, EStateM.run_modify, EStateM.run_get, EmitM.run_attempt]
  generalize (emit errand).run _ = result
  match result with
  | .ok block now => rfl
  | .error (.failed fault during) now => rfl
  | .error .endless now => rfl

theorem Recipe.follow_routine (emit : Errand → EmitM (Noted σ) Fragment) (recipe : Recipe σ)
    (code : Fragment) : (recipe.routine code).follow emit = recipe.follow emit code := by
  induction recipe generalizing code with
  | decline state => rfl
  | fail fault state => rfl
  | finish state => rfl
  | add more rest ih => exact ih (code ++ more)
  | emit errand state resume ih =>
      funext st
      show ((Recipe.emit errand state resume).routine code |>.follow emit).run st =
        ((Recipe.emit errand state resume).follow emit code).run st
      rw [routine, Routine.run_follow_emit, run_follow_emit]
      match (emit errand).run _ with
      | .ok block now =>
          exact congrFun (ih block now.tracker now.state.state (code ++ block)) now
      | .error (.failed fault during) now => rfl
      | .error .endless now => rfl

/-- **Recipes are routines** that hand every failure on. -/
theorem Recipes.supplier_routines (ledger : Ledger) (recipes : Recipes σ) (depth : Nat) :
    Routines.supplier ledger (fun handle tracker state => (recipes handle tracker state).routine ∅)
      depth = recipes.supplier ledger depth := by
  induction depth with
  | zero => rfl
  | succ depth ih =>
      funext handle
      unfold Routines.supplier Recipes.supplier
      rw [ih]
      simp only [Recipe.follow_routine]

end Recipes

/-! ## Whole runs -/

namespace Routines

variable {σ : Type} {nodes : Finset Handle} {ledger : Ledger}

/-- At every depth from `least` on, the work comes to one and the same end, and on the
way the supplier is asked in turn. -/
def Settles (ledger : Ledger) (least : Nat) (before : Emitting (Noted σ)) (tracker : Tracker)
    (work : Nat → EmitM (Noted σ) Fragment) : Prop :=
  ∃ result, (∀ depth, least ≤ depth → (work depth).run before = result) ∧
    Ends (fun after => ∃ notes, after.state.notes = before.state.notes ++ notes ∧
      Asking.InTurn ledger tracker (Note.askings notes)) result

theorem settles_of_agree {work : Nat → EmitM (Noted σ) Fragment}
    (agree : ∀ depth depth', nodes.card ≤ depth → nodes.card ≤ depth' →
      Agree (Emitting.Guards ledger) nodes nodes.card (work depth) (work depth'))
    (before : Emitting (Noted σ)) :
    Settles ledger nodes.card before before.tracker work := by
  refine ⟨(work nodes.card).run before, fun depth deep => ?_, ?_⟩
  · exact (agree depth nodes.card deep (Nat.le_refl _) before (before.unseen_le_card nodes)).1
  · have ends := (agree _ _ (Nat.le_refl _) (Nat.le_refl _) before (before.unseen_le_card nodes)).2
    apply ends.mono
    intro after guards
    obtain ⟨notes, noted, inTurn, -⟩ := guards.asked
    exact ⟨notes, noted, inTurn⟩

/-- Work that settles with an empty tracker does so with a tracker of its own. -/
theorem Settles.apart {least : Nat} {before : Emitting (Noted σ)}
    {work : Nat → EmitM (Noted σ) Fragment}
    (settles : Settles ledger least { state := before.state } ∅ work) :
    Settles ledger least before ∅ fun depth => EmitM.apart (work depth) := by
  obtain ⟨result, same, ends⟩ := settles
  refine ⟨(EmitM.apart (work least)).run before, fun depth deep => ?_, ?_⟩
  · rw [EmitM.run_apart, EmitM.run_apart, same depth deep, same least (Nat.le_refl _)]
  · rw [EmitM.run_apart, same least (Nat.le_refl _)]
    match result, ends with
    | .ok block after, ends => exact ends
    | .error (.failed fault during) after, ends => exact ends

/-- **Suppliers are entered in turn.** Take finitely many names and a supplier that
follows routines, which emit these names only, either with the tracker they were handed
or, without a supplier, with one of their own. Every block of declarations and every
bundle of these names, with this supplier or with none, then comes to an end, which does
not depend on the depth. The supplier is asked for bound names only that have neither
code nor a usable import and that the tracker did not hold at first; it is asked for each
of them once at most, when the name has been started, and between two askings the number
of tracked names grows. -/
theorem entered_in_turn (ledger : Ledger) (routines : Routines σ) (nodes : Finset Handle)
    (within : ∀ handle ∈ nodes, ∀ tracker state, (routines handle tracker state).Within nodes)
    (style : Style) (supplied : Bool) (before : Emitting (Noted σ)) :
    let supply (depth : Nat) := if supplied then routines.supplier ledger depth else .none
    (∀ selection : Selection, (∀ handle ∈ selection.toList, handle ∈ nodes) →
      Settles ledger nodes.card before before.tracker fun depth =>
        Emission.declarations ledger style (supply depth) selection) ∧
    ∀ bundle : Bundle, (∀ handle ∈ bundle.entries, handle ∈ nodes) →
      Settles ledger nodes.card before ∅ fun depth =>
        bundle.render ledger style (supply depth) := by
  intro supply
  have tame := Emitting.tame_guards (σ := σ) ledger
  have serves : ∀ depth depth', nodes.card ≤ depth → nodes.card ≤ depth' → ∀ handle ∈ nodes,
      Serves (Emitting.Guards ledger) ledger nodes nodes.card (supply depth) (supply depth')
        handle := by
    intro depth depth' deep deep' handle among
    cases supplied with
    | true => exact serves_supplier within deep deep' handle among
    | false => exact serves_none tame ledger nodes nodes.card handle
  refine ⟨fun selection selected => ?_, fun bundle exported => ?_⟩
  · apply settles_of_agree
    intro depth depth' deep deep'
    exact agree_declarations tame style fun handle held =>
      serves depth depth' deep deep' handle (selected handle held)
  · apply Settles.apart
    apply settles_of_agree
    intro depth depth' deep deep'
    exact agree_assemble tame style fun handle held =>
      serves depth depth' deep deep' handle (exported handle held)

/-- Two names that need each other, one of them also a name that is not bound, whose
failure is not handed on, and one that the tracker holds from the start. -/
theorem entered_in_turn_of_cycle :
    let first : Handle := ⟨0, ⟨"a0"⟩, "a"⟩
    let second : Handle := ⟨1, ⟨"b0"⟩, "b"⟩
    let unbound : Handle := ⟨2, ⟨"c0"⟩, "c"⟩
    let done : Handle := ⟨3, ⟨"d0"⟩, "d"⟩
    let ledger := ((Ledger.bind {} first ⟨.inline none, ⟨"a", 0⟩⟩).bind second
      ⟨.inline none, ⟨"b", 0⟩⟩).bind done ⟨.inline none, ⟨"d", 0⟩⟩
    let needs (handle : Handle) : Selection :=
      .ofList (if handle = first then [done, second] else [first, unbound])
    let routines : Routines Unit := fun handle _ _ =>
      .emit { style := {}, selection := needs handle } () fun _ _ _ =>
        .answer (.ok (some (.ident handle.ident))) ()
    let before : Emitting (Noted Unit) :=
      { tracker := (∅ : Tracker).start done, state := { state := () } }
    (∀ handle ∈ [first, second, unbound, done], ∀ tracker state,
      (routines handle tracker state).Within [first, second, unbound, done].toFinset) ∧
    ∃ block after, (∀ depth, 4 ≤ depth →
        (Emission.declarations ledger {} (routines.supplier ledger depth) (.ofList [first])).run
          before = .ok block after) ∧
      Note.askings after.state.notes =
        [⟨first, some .started, 2⟩, ⟨second, some .started, 3⟩] ∧
      Asking.InTurn ledger before.tracker (Note.askings after.state.notes) := by
  intro first second unbound done ledger needs routines before
  have within : ∀ handle ∈ [first, second, unbound, done], ∀ tracker state,
      (routines handle tracker state).Within [first, second, unbound, done].toFinset := by
    intro handle among tracker state
    have selected : ∀ handle ∈ [first, second, unbound, done], ∀ needed ∈ (needs handle).toList,
        needed ∈ [first, second, unbound, done].toFinset := by
      decide +kernel
    exact ⟨⟨selected handle among, nofun⟩, fun _ _ _ => trivial⟩
  apply And.intro within
  obtain ⟨declares, -⟩ := entered_in_turn ledger routines [first, second, unbound, done].toFinset
    (fun handle among => within handle (List.mem_toFinset.mp among)) {} true before
  obtain ⟨result, same, ends⟩ := declares (.ofList [first]) (by decide +kernel)
  have evaluated : (match (Emission.declarations ledger {} (routines.supplier ledger 4)
      (.ofList [first])).run before with
    | .ok _ after => Note.askings after.state.notes
    | .error _ _ => []) = [⟨first, some .started, 2⟩, ⟨second, some .started, 3⟩] := by
    decide +kernel
  simp only [if_true] at same
  rw [same 4 (by decide +kernel)] at evaluated
  cases result with
  | ok block after =>
      obtain ⟨notes, noted, inTurn⟩ := ends
      rw [List.nil_append] at noted
      exact ⟨block, after, same, evaluated, noted ▸ inTurn⟩
  | error stop after => exact absurd evaluated (by simp)

end Routines

end NameScope
