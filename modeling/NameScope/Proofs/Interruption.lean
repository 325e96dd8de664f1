import NameScope.Proofs.Depth
import NameScope.Proofs.Reentrancy

/-!
# Where an emission breaks off

An emission that fails has come to one name of its selection: the names in front of it are
done, and those behind it play no part. Either the fault is the name's own or its
supplier's, or it arose in an emission that the supplier had asked for, which broke off in
the same way. `Emission.Call.BreaksOff` describes this chain of names, which are the ones
whose pieces were being produced, and `Emission.Call.tracker_discipline` says what the
tracker holds afterwards, whether the emission failed or not.
-/

namespace NameScope

theorem Tracker.started_iff {tracker : Tracker} {handle : Handle} :
    tracker.progress? handle = some .started ↔
      tracker.progress? handle ≠ none ∧ tracker.progress? handle ≠ some .completed := by
  cases tracker.progress? handle with
  | none => simp
  | some progress => cases progress <;> simp

/-! ## How a recipe fails -/

namespace Emitting

variable {σ : Type}

/-- A supplier goes over to a state and notes that it sets out to emit. -/
def setOut (st : Emitting (Noted σ)) (errand : Errand) (state : σ) : Emitting (Noted σ) :=
  { st with state := (st.state.moveTo state).note (.emitted errand) }

end Emitting

namespace Recipe

variable {σ : Type} {emit : Errand → EmitM (Noted σ) Fragment}

/-- Whoever follows the recipe from one state comes to do an errand in another. -/
inductive Asks (emit : Errand → EmitM (Noted σ) Fragment) :
    Recipe σ → Emitting (Noted σ) → Errand → Emitting (Noted σ) → Prop
  | now {errand : Errand} {state : σ} {resume : Fragment → Tracker → σ → Recipe σ}
      {st : Emitting (Noted σ)} :
      Asks emit (.emit errand state resume) st errand (st.setOut errand state)
  | add {code : Fragment} {rest : Recipe σ} {st there : Emitting (Noted σ)} {errand : Errand} :
      Asks emit rest st errand there → Asks emit (.add code rest) st errand there
  | later {first errand : Errand} {state : σ} {resume : Fragment → Tracker → σ → Recipe σ}
      {st middle there : Emitting (Noted σ)} {block : Fragment} :
      (emit first).run (st.setOut first state) = .ok block middle →
      Asks emit (resume block middle.tracker middle.state.state) middle errand there →
      Asks emit (.emit first state resume) st errand there

theorem Asks.handed {recipe : Recipe σ} {st there : Emitting (Noted σ)} {errand : Errand}
    (asks : recipe.Asks emit st errand there) (handed : recipe.Handed) :
    errand.tracking = .handed := by
  induction asks with
  | now => exact handed.1
  | add asks ih => exact ih handed
  | later done asks ih => exact ih (handed.2 _ _ _)

/-- A recipe that fails while other names are being produced has failed in an errand. -/
theorem asks_of_failed {recipe : Recipe σ} {code : Fragment} {st after : Emitting (Noted σ)}
    {fault : Fault} {during : List Handle} (inside : during ≠ [])
    (failed : (recipe.follow emit code).run st = .error (.failed fault during) after) :
    ∃ errand there, recipe.Asks emit st errand there ∧
      (emit errand).run there = .error (.failed fault during) after := by
  induction recipe generalizing code st with
  | decline state => cases failed
  | fail other state =>
      cases failed
      exact absurd rfl inside
  | finish state => cases failed
  | add more rest ih =>
      obtain ⟨errand, there, asks, failed⟩ := ih failed
      exact ⟨errand, there, .add asks, failed⟩
  | emit errand state resume ih =>
      rw [run_follow_emit] at failed
      split at failed
      · rename_i block middle done
        obtain ⟨other, there, asks, failed⟩ := ih _ _ _ failed
        exact ⟨other, there, .later done asks, failed⟩
      · rename_i stop middle done
        obtain ⟨rfl, rfl⟩ : stop = .failed fault during ∧ middle = after := by simpa using failed
        exact ⟨errand, _, .now, done⟩

end Recipe

/-! ## How an emission fails -/

namespace Emission

section Failures

variable {σ : Type} {ledger : Ledger} {style : Style} {supply : Supplier σ} {handle : Handle}
  {st after : Emitting σ} {fault : Fault} {during : List Handle}

/-- The code of a name fails while other names are being produced only if its supplier does. -/
theorem supply_of_failed_code (inside : during ≠ [])
    (failed : (code ledger style supply handle).run st = .error (.failed fault during) after) :
    (supply handle).run st = .error (.failed fault during) after := by
  rcases failed_code_cases failed with ⟨-, -, rfl⟩ | ⟨binding, -, -, -, rfl⟩ | supplied
  · exact absurd rfl inside
  · exact absurd rfl inside
  · exact supplied

/-- An emission comes to a name: those in front of it are done, and it is not tracked. -/
structure Reaches (ledger : Ledger) (style : Style) (supply : Supplier σ) (before : Emitting σ)
    (earlier : List Handle) (handle : Handle) (middle : Emitting σ) : Prop where
  done : ∃ emitted, (pieces ledger style supply earlier).run before = .ok emitted middle
  untracked : middle.tracker.progress? handle = none

/-- An emission that fails has come to a name whose code fails. -/
theorem reaches_of_failed {handles : List Handle} {before : Emitting σ}
    (failed : (pieces ledger style supply handles).run before =
      .error (.failed fault during) after) :
    ∃ earlier handle later middle inner, handles = earlier ++ handle :: later ∧
      Reaches ledger style supply before earlier handle middle ∧
      (code ledger style supply handle).run (middle.begin handle) =
        .error (.failed fault inner) after ∧ during = handle :: inner := by
  induction handles generalizing before with
  | nil => cases failed
  | cons first rest ih =>
      by_cases tracked : before.tracker.tracks first = true
      · rw [run_pieces_of_tracked tracked] at failed
        obtain ⟨earlier, handle, later, middle, inner, rfl, ⟨⟨emitted, done⟩, untracked⟩, failed⟩ :=
          ih failed
        refine ⟨first :: earlier, handle, later, middle, inner, rfl, ⟨⟨emitted, ?_⟩, untracked⟩,
          failed⟩
        rw [run_pieces_of_tracked tracked]
        exact done
      · rw [Bool.not_eq_true] at tracked
        rw [run_pieces_of_untracked tracked] at failed
        split at failed
        · rename_i fragment next coded
          split at failed
          · cases failed
          · rename_i stop last others
            obtain ⟨rfl, rfl⟩ : stop = .failed fault during ∧ last = after := by
              simpa using failed
            obtain ⟨earlier, handle, later, middle, inner, rfl, ⟨⟨emitted, done⟩, untracked⟩,
              failed⟩ := ih others
            exact ⟨first :: earlier, handle, later, middle, inner, rfl,
              ⟨⟨_, run_pieces_of_coded tracked coded done⟩, untracked⟩, failed⟩
        · rename_i other inner last coded
          obtain ⟨⟨rfl, rfl⟩, rfl⟩ : (other = fault ∧ first :: inner = during) ∧ last = after := by
            simpa using failed
          exact ⟨[], first, rest, before, inner, rfl,
            ⟨⟨[], rfl⟩, Tracker.tracks_eq_false_iff.mp tracked⟩, coded, rfl⟩
        · cases failed

/-- Then it fails at this name, whatever comes behind it. -/
theorem Reaches.run_pieces {before middle : Emitting σ} {earlier : List Handle}
    (reaches : Reaches ledger style supply before earlier handle middle)
    (failed : (code ledger style supply handle).run (middle.begin handle) =
      .error (.failed fault during) after) (later : List Handle) :
    (pieces ledger style supply (earlier ++ handle :: later)).run before =
      .error (.failed fault (handle :: during)) after := by
  obtain ⟨⟨emitted, done⟩, untracked⟩ := reaches
  rw [pieces_append, EStateM.run_bind, done]
  simp only [EStateM.run_bind, pieces_cons]
  rw [run_piece?_of_untracked (Tracker.tracks_eq_false_iff.mpr untracked), failed]
  rfl

end Failures

/-- The names in front of the one at which an emission fails are tracked in the end. -/
theorem Reaches.tracked {σ : Type} {ledger : Ledger} {style : Style}
    {supply : Supplier (Noted σ)} (supplied : ∀ handle, Emits [] (supply handle))
    {before middle after : Emitting (Noted σ)} {earlier : List Handle} {handle : Handle}
    (reaches : Reaches ledger style supply before earlier handle middle) {stop : Stop}
    (failed : (code ledger style supply handle).run (middle.begin handle) = .error stop after) :
    ∀ other ∈ earlier, after.tracker.progress? other ≠ none := by
  intro other held
  obtain ⟨⟨emitted, done⟩, untracked⟩ := reaches
  have first : Emitting.Lawful earlier before ((pieces ledger style supply earlier).run before) :=
    emits_pieces supplied earlier before
  rw [done] at first
  obtain ⟨-, -, notes, -, covered⟩ := first
  have tracked := (covered other).mpr (.inr (.inl held))
  have second := emits_code ledger style supplied handle (middle.begin handle)
  rw [failed] at second
  rw [((Emitting.advances_begin untracked).trans second.advances).kept other tracked]
  exact tracked

namespace Call

variable {σ : Type}

/-- The call that a supplier makes by an errand with the tracker it was handed. -/
def nested (call : Call σ) (errand : Errand) : Call σ where
  ledger := call.ledger
  style := errand.style
  selection := errand.selection
  recipes? := if errand.supplied then call.recipes? else none
  depth := call.depth - 1

theorem run_nested {call : Call σ} {recipes : Recipes σ} {depth : Nat}
    (served : call.recipes? = some recipes) (deep : call.depth = depth + 1) {errand : Errand}
    (tracking : errand.tracking = .handed) :
    (call.nested errand).run = errand.run call.ledger (recipes.supplier call.ledger depth) := by
  unfold run nested Errand.run supplier
  rw [tracking, served, deep]
  cases errand.supplied with
  | true => rfl
  | false => rfl

theorem Handed.nested {call : Call σ} (handed : call.Handed) (errand : Errand) :
    (call.nested errand).Handed := by
  intro recipes served
  unfold Call.nested at served
  cases supplied : errand.supplied with
  | true =>
      rw [supplied] at served
      exact handed recipes served
  | false =>
      rw [supplied] at served
      cases served

/-- How a call that starts at one state breaks off with a fault at another, and the names
whose pieces are being produced then, outermost first. Either no name is but the one that
the call has come to, so that this name or its supplier is at fault; or its supplier has
come to do an errand, and the call of this errand breaks off. -/
inductive BreaksOff :
    Call σ → Emitting (Noted σ) → Fault → List Handle → Emitting (Noted σ) → Prop
  | own {call : Call σ} {before middle after : Emitting (Noted σ)} {fault : Fault}
      {earlier later : List Handle} {handle : Handle} :
      call.selection.toList = earlier ++ handle :: later →
      Reaches call.ledger call.style call.supplier before earlier handle middle →
      (code call.ledger call.style call.supplier handle).run (middle.begin handle) =
        .error (.failed fault []) after →
      BreaksOff call before fault [handle] after
  | nested {call : Call σ} {before middle there after : Emitting (Noted σ)} {fault : Fault}
      {earlier later inner : List Handle} {handle : Handle} {recipes : Recipes σ}
      {depth : Nat} {errand : Errand} :
      call.selection.toList = earlier ++ handle :: later →
      Reaches call.ledger call.style call.supplier before earlier handle middle →
      call.recipes? = some recipes → call.depth = depth + 1 →
      (recipes handle (middle.begin handle).tracker middle.state.state).Asks
        (Errand.run call.ledger (recipes.supplier call.ledger depth)) (middle.enter handle)
        errand there →
      BreaksOff (call.nested errand) there fault inner after →
      BreaksOff call before fault (handle :: inner) after

/-- Every call that fails breaks off in this way. -/
theorem breaksOff_of_failed {call : Call σ} (handed : call.Handed)
    {before after : Emitting (Noted σ)} {fault : Fault} {during : List Handle}
    (failed : call.run.run before = .error (.failed fault during) after) :
    call.BreaksOff before fault during after := by
  -- calls of errands are one less deep than the call whose supplier does them
  induction deep : call.depth using Nat.strong_induction_on generalizing call before during with
  | _ depth ih =>
      obtain ⟨earlier, handle, later, middle, inner, selected, reaches, coded, rfl⟩ :=
        reaches_of_failed (pieces_of_failed_declarations failed)
      by_cases inside : inner = []
      · subst inside
        exact .own selected reaches coded
      have supplied := supply_of_failed_code inside coded
      unfold supplier at supplied
      cases served : call.recipes? with
      | none =>
          rw [served] at supplied
          cases supplied
      | some recipes =>
          rw [served, deep] at supplied
          cases depth with
          | zero => cases supplied
          | succ depth =>
              have followed := supplied
              rw [Recipes.run_supplier] at followed
              obtain ⟨errand, there, asks, failed⟩ := Recipe.asks_of_failed inside followed
              have tracking := asks.handed (handed recipes served _ _ _)
              rw [← run_nested served deep tracking] at failed
              have shallower : (call.nested errand).depth = depth := by
                unfold nested
                rw [deep]
                rfl
              exact .nested selected reaches served deep asks
                (ih depth (Nat.lt_succ_self depth) (handed.nested errand) failed shallower)

/-- The state in which a call leaves the tracker and the supplier. -/
def after (call : Call σ) (before : Emitting (Noted σ)) : Emitting (Noted σ) :=
  match call.run.run before with
  | .ok _ st => st
  | .error _ st => st

theorem advances_after {call : Call σ} (handed : call.Handed) (before : Emitting (Noted σ)) :
    before.Advances (call.after before) := by
  have lawful := emits_call handed before
  unfold after
  cases run : call.run.run before with
  | ok block st =>
      rw [run] at lawful
      exact lawful.1
  | error stop st =>
      rw [run] at lawful
      exact lawful.advances

/-- **The tracker of a call.** Take any call whose supplier emits with the tracker that it
was handed, to any depth; its selection, its style and its supplier may be any otherwise, and
so may be the tracker that it starts with. However the call ends, no name leaves the tracker,
and the names that the tracker held before are as they were. (A call may come to no end only
if its depth is less than the number of bound names.)

When the call ends well, the tracker holds every selected name, and the names that it did not
hold before are completed. When it fails, it breaks off in a name of its selection, and the
names whose pieces were being produced, from this one on inwards, are just those that were
added and are not completed; they are started. The selected names in front of the first of
them are tracked, and the call itself has not come to those behind it: it ends in the same
way whatever they are. -/
theorem tracker_discipline (call : Call σ) (handed : call.Handed) (before : Emitting (Noted σ)) :
    (∀ handle progress, before.tracker.progress? handle = some progress →
      (call.after before).tracker.progress? handle = some progress) ∧
    (call.ledger.bindings.keys.length ≤ call.depth →
      ∀ after, call.run.run before ≠ .error .endless after) ∧
    (∀ block after, call.run.run before = .ok block after →
      (∀ handle ∈ call.selection.toList, after.tracker.progress? handle ≠ none) ∧
      ∀ handle, before.tracker.progress? handle = none →
        after.tracker.progress? handle ≠ none →
          after.tracker.progress? handle = some .completed) ∧
    ∀ fault during after, call.run.run before = .error (.failed fault during) after →
      call.BreaksOff before fault during after ∧
      (∀ handle, handle ∈ during ↔ before.tracker.progress? handle = none ∧
        after.tracker.progress? handle ≠ none ∧
        after.tracker.progress? handle ≠ some .completed) ∧
      (∀ handle ∈ during, after.tracker.progress? handle = some .started) ∧
      ∃ earlier first later inner, call.selection.toList = earlier ++ first :: later ∧
        during = first :: inner ∧
        (∀ handle ∈ earlier, after.tracker.progress? handle ≠ none) ∧
        ∀ others, (pieces call.ledger call.style call.supplier (earlier ++ first :: others)).run
          before = .error (.failed fault during) after := by
  have kept := (advances_after handed before).kept
  have lawful := emits_call handed before
  refine ⟨?_, fun deep after => not_endless handed deep before after, ?_, ?_⟩
  · intro handle progress held
    rw [← held]
    exact kept handle (by simp [held])
  · intro block after run
    rw [run] at lawful
    obtain ⟨-, closed, notes, -, covered⟩ := lawful
    refine ⟨fun handle held => (covered handle).mpr (.inr (.inl held)), ?_⟩
    intro handle untracked added
    exact (closed.completed_iff untracked).mpr added
  · intro fault during after failed
    rw [failed] at lawful
    obtain ⟨advances, opened⟩ := lawful
    obtain ⟨earlier, first, later, middle, inner, selected, reaches, coded, rfl⟩ :=
      reaches_of_failed (pieces_of_failed_declarations failed)
    refine ⟨breaksOff_of_failed handed failed, ?_, fun handle held => ((opened handle).mp held).2,
      earlier, first, later, inner, selected, rfl, reaches.tracked (emits_supplier handed) coded,
      fun others => reaches.run_pieces coded others⟩
    intro handle
    rw [opened, Tracker.started_iff]

/-- A supplier emits, for one name, another and one that is not bound. The tracker has a
name from outside that is being produced. -/
theorem tracker_discipline_of_unbound_need :
    let outer : Handle := ⟨0, ⟨"a0"⟩, "a"⟩
    let first : Handle := ⟨1, ⟨"b0"⟩, "b"⟩
    let second : Handle := ⟨2, ⟨"c0"⟩, "c"⟩
    let unbound : Handle := ⟨3, ⟨"d0"⟩, "d"⟩
    let last : Handle := ⟨4, ⟨"e0"⟩, "e"⟩
    let ledger := (Ledger.bind {} first ⟨.inline none, ⟨"b", 0⟩⟩).bind second
      ⟨.inline none, ⟨"c", 0⟩⟩
    let recipes : Recipes Unit := fun handle _ _ =>
      if handle = first then
        .emit { style := {}, selection := .ofList [outer, second, unbound] } () fun _ _ _ =>
          .finish ()
      else .add (.ident handle.ident) (.finish ())
    let call : Call Unit := ⟨ledger, {}, .ofList [outer, first, last], some recipes, 2⟩
    let before : Emitting (Noted Unit) :=
      { tracker := (∅ : Tracker).start outer, state := { state := () } }
    call.Handed ∧ ∃ after,
      call.run.run before = .error (.failed (.unbound "d0") [first, unbound]) after ∧
      [outer, first, second, unbound, last].map after.tracker.progress? =
        [some .started, some .started, some .completed, some .started, none] ∧
      call.BreaksOff before (.unbound "d0") [first, unbound] after := by
  intro outer first second unbound last ledger recipes call before
  have handed : call.Handed := by
    intro recipes' served handle tracker state
    rw [← Option.some.inj served]
    show (if handle = first then _ else _ : Recipe Unit).Handed
    split
    · exact ⟨rfl, fun _ _ _ => trivial⟩
    · exact trivial
  have evaluated : (match call.run.run before with
    | .ok _ _ => none
    | .error stop after =>
        some (stop, [outer, first, second, unbound, last].map after.tracker.progress?)) =
      some (.failed (.unbound "d0") [first, unbound],
        [some .started, some .started, some .completed, some .started, none]) := by
    decide +kernel
  refine ⟨handed, ?_⟩
  obtain ⟨-, -, -, failing⟩ := tracker_discipline call handed before
  cases run : call.run.run before with
  | ok block after =>
      rw [run] at evaluated
      cases evaluated
  | error stop after =>
      rw [run] at evaluated
      obtain ⟨rfl, progress⟩ := Prod.mk.inj (Option.some.inj evaluated)
      exact ⟨after, rfl, progress, (failing _ _ _ run).1⟩

end Call

end Emission

end NameScope
