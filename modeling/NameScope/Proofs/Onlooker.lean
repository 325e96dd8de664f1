import NameScope.Proofs.Restyling
import NameScope.Proofs.Skipping
import NameScope.Proofs.Spelling

/-!
# Suppliers that look on

An `Onlooker` is a supplier that may look at the tracker but does not touch it. With such a
supplier the course of an emission can be told in advance. The names that are not tracked at
the beginning are gone over in order; what each of them is declared as, or why it cannot be
declared, depends on the names before it only by what the onlooker has seen of them
(`Onlooker.form`). The first name that cannot be declared ends the emission
(`outcome_of_emission`).
-/

namespace NameScope

/-- A supplier that does not touch the tracker: what it answers, or the fault it fails for,
and its next state. -/
abbrev Onlooker (σ : Type) := Handle → Tracker → σ → Except Fault (Option Fragment) × σ

/-- Whether the name is bound, but to a value without code and without a complete import. -/
def Ledger.lacks (ledger : Ledger) (handle : Handle) : Bool :=
  match ledger.binding? handle with
  | none => false
  | some binding =>
    match binding.value.kind with
    | .inline code? => code?.isNone
    | .imported source => !decide source.Complete

namespace Onlooker

variable {σ : Type}

/-- The onlooker at work. -/
def supplier (onlooker : Onlooker σ) : Supplier σ := fun handle => do
  let now ← get
  let (answer, state) := onlooker handle now.tracker now.state
  set { now with state }
  match answer with
  | .ok code? => return code?
  | .error fault => EmitM.fail fault

section Course

variable (ledger : Ledger) (style : Style) (onlooker : Onlooker σ) (st : Emitting σ)

/-- What a bound name without code of its own is declared as: the code that the onlooker
gives, as it is. -/
def given (handle : Handle) (value : Value) : Except Fault Fragment :=
  match (onlooker handle (st.begin handle).tracker st.state).1 with
  | .ok (some code) => .ok code
  | .ok none => .error (.noCode handle.text value)
  | .error fault => .error fault

/-- What a name is declared as, or why it is not: a variable with its code, an `import`
statement or a `require` call, or else what the onlooker gives. -/
def form (handle : Handle) : Except Fault Fragment :=
  match ledger.binding? handle with
  | none => .error (.unbound handle.text)
  | some binding =>
    match binding.value.kind with
    | .inline (some code) => .ok (style.spellCode handle.ident code)
    | .inline none => onlooker.given st handle binding.value
    | .imported source =>
      if source.Complete then .ok (style.spellImport handle.ident source)
      else onlooker.given st handle binding.value

/-- The emission when a name has been started, and the onlooker asked if the name lacks
code. -/
def visit (handle : Handle) : Emitting σ :=
  if ledger.lacks handle then
    { st.begin handle with state := (onlooker handle (st.begin handle).tracker st.state).2 }
  else st.begin handle

/-- The emission when names have been completed. -/
def past (names : List Handle) : Emitting σ :=
  names.foldl (fun st handle => (visit ledger onlooker st handle).finish handle) st

end Course

variable {ledger : Ledger} {style : Style} {onlooker : Onlooker σ} {st : Emitting σ}
  {handle : Handle} {names : List Handle}

/-! ## What the tracker and the onlooker see -/

/-- Declining always is what happens without a supplier. -/
theorem supplier_declining :
    supplier (fun _ _ state => (.ok none, state)) = (Supplier.none : Supplier σ) := rfl

theorem tracker_visit : (visit ledger onlooker st handle).tracker = (st.begin handle).tracker := by
  unfold visit
  split <;> rfl

theorem progress?_visit (untracked : st.tracker.progress? handle = none) (other : Handle) :
    (visit ledger onlooker st handle).tracker.progress? other =
      if other = handle then some .started else st.tracker.progress? other := by
  rw [tracker_visit, Emitting.progress?_begin untracked]

theorem progress?_finish_visit (other : Handle) :
    ((visit ledger onlooker st handle).finish handle).tracker.progress? other =
      if other = handle then some .completed else st.tracker.progress? other := by
  have begun : ∀ other, (visit ledger onlooker st handle).tracker.progress? other =
      if other = handle then some ((st.tracker.progress? handle).getD .started)
      else st.tracker.progress? other := by
    rw [tracker_visit]
    exact st.tracker.progress?_start handle
  rw [Emitting.progress?_finish (by rw [begun, if_pos rfl]; simp), begun]
  split <;> rfl

/-- The names that are past are completed, and no others have changed. -/
theorem progress?_past (names : List Handle) (st : Emitting σ) (other : Handle) :
    (past ledger onlooker st names).tracker.progress? other =
      if other ∈ names then some .completed else st.tracker.progress? other := by
  induction names generalizing st with
  | nil => rw [if_neg List.not_mem_nil]; rfl
  | cons handle rest ih =>
      show (past ledger onlooker ((visit ledger onlooker st handle).finish handle)
        rest).tracker.progress? other = _
      rw [ih, progress?_finish_visit]
      by_cases later : other ∈ rest
      · simp [later]
      · by_cases here : other = handle
        · simp [here]
        · simp [later, here]

/-! ## The equations of an onlooker -/

theorem run_supplier (onlooker : Onlooker σ) (handle : Handle) (st : Emitting σ) :
    (onlooker.supplier handle).run st =
      match (onlooker handle st.tracker st.state).1 with
      | .ok code? => .ok code? { st with state := (onlooker handle st.tracker st.state).2 }
      | .error fault => .error (.failed fault [])
        { st with state := (onlooker handle st.tracker st.state).2 } := by
  unfold supplier
  rw [EStateM.run_bind, EStateM.run_get]
  simp only
  cases onlooker handle st.tracker st.state with
  | mk answer state =>
      cases answer with
      | ok code? => rfl
      | error fault => rfl

theorem keeps_supplier (onlooker : Onlooker σ) : onlooker.supplier.Keeps := by
  intro handle st
  unfold EmitM.leaves
  rw [run_supplier]
  cases (onlooker handle st.tracker st.state).1 with
  | ok code? => exact subset_rfl
  | error fault => exact subset_rfl

/-- A name that lacks code gets the code that the onlooker gives. -/
theorem run_demand_supplier (onlooker : Onlooker σ) (handle : Handle) (value : Value)
    (st : Emitting σ) :
    (onlooker.supplier handle >>= Emission.demand handle value).run (st.begin handle) =
      match onlooker.given st handle value with
      | .ok code => .ok code
        { st.begin handle with state := (onlooker handle (st.begin handle).tracker st.state).2 }
      | .error fault => .error (.failed fault [])
        { st.begin handle with
          state := (onlooker handle (st.begin handle).tracker st.state).2 } := by
  have begun : (st.begin handle).state = st.state := rfl
  unfold given
  rw [EStateM.run_bind, run_supplier, begun]
  cases (onlooker handle (st.begin handle).tracker st.state).1 with
  | ok code? =>
      cases code? with
      | none => rfl
      | some code => rfl
  | error fault => rfl

/-- **The code of a name** that has been started. -/
theorem run_code (ledger : Ledger) (style : Style) (onlooker : Onlooker σ) (st : Emitting σ)
    (handle : Handle) :
    (Emission.code ledger style onlooker.supplier handle).run (st.begin handle) =
      match form ledger style onlooker st handle with
      | .ok code => .ok code (visit ledger onlooker st handle)
      | .error fault => .error (.failed fault []) (visit ledger onlooker st handle) := by
  cases bound : ledger.binding? handle with
  | none =>
      rw [Emission.code_of_unbound bound]
      simp only [form, visit, Ledger.lacks, bound]
      rfl
  | some binding =>
      cases kind : binding.value.kind with
      | inline code? =>
          cases code? with
          | some code =>
              have spelled : ledger.spelled? style handle =
                  some (style.spellCode handle.ident code) := by
                simp [Ledger.spelled?, bound, kind]
              rw [Emission.code_of_spelled spelled]
              simp only [form, visit, Ledger.lacks, bound, kind]
              rfl
          | none =>
              have missing : ledger.spelled? style handle = none := by
                simp [Ledger.spelled?, bound, kind]
              rw [Emission.code_of_unspelled bound missing, run_demand_supplier]
              simp only [form, visit, Ledger.lacks, bound, kind]
              rfl
      | imported source =>
          by_cases complete : source.Complete
          · have spelled : ledger.spelled? style handle =
                some (style.spellImport handle.ident source) := by
              simp [Ledger.spelled?, bound, kind, complete]
            rw [Emission.code_of_spelled spelled]
            simp only [form, visit, Ledger.lacks, bound, kind, complete]
            rfl
          · have missing : ledger.spelled? style handle = none := by
              simp [Ledger.spelled?, bound, kind, complete]
            rw [Emission.code_of_unspelled bound missing, run_demand_supplier]
            simp only [form, visit, Ledger.lacks, bound, kind, complete]
            rfl

/-! ## The course of an emission -/

/-- **Names that can all be declared** are declared, each in its form. -/
theorem run_pieces_of_forms (nodup : names.Nodup)
    (untracked : ∀ handle ∈ names, st.tracker.progress? handle = none)
    (forms : ∀ earlier handle later, names = earlier ++ handle :: later →
      ∃ code, form ledger style onlooker (past ledger onlooker st earlier) handle = .ok code) :
    ∃ emitted,
      (Emission.pieces ledger style onlooker.supplier names).run st =
        .ok emitted (past ledger onlooker st names) ∧
      emitted.map Piece.name = names ∧
      ∀ earlier piece later, emitted = earlier ++ piece :: later →
        form ledger style onlooker (past ledger onlooker st (earlier.map Piece.name)) piece.name =
          .ok piece.code := by
  induction names generalizing st with
  | nil => exact ⟨[], rfl, rfl, fun earlier piece later split => by simp at split⟩
  | cons handle rest ih =>
      obtain ⟨absent, nodup⟩ := List.nodup_cons.mp nodup
      have fresh := untracked handle List.mem_cons_self
      obtain ⟨code, formed⟩ := forms [] handle rest rfl
      have coded := run_code ledger style onlooker st handle
      rw [show form ledger style onlooker st handle = .ok code from formed] at coded
      obtain ⟨emitted, run, named, formed'⟩ := @ih
        ((visit ledger onlooker st handle).finish handle) nodup
        (fun other held => by
          have apart : other ≠ handle := fun same => absent (same ▸ held)
          rw [progress?_finish_visit, if_neg apart]
          exact untracked other (List.mem_cons_of_mem _ held))
        (fun earlier other later split => forms (handle :: earlier) other later (by rw [split]; rfl))
      refine ⟨⟨handle, code⟩ :: emitted,
        Emission.run_pieces_of_coded (Tracker.tracks_eq_false_iff.mpr fresh) coded run,
        congrArg (handle :: ·) named, ?_⟩
      intro earlier piece later split
      cases earlier with
      | nil =>
          obtain ⟨rfl, -⟩ := List.cons.inj split
          exact formed
      | cons first earlier =>
          obtain ⟨rfl, rest⟩ := List.cons.inj split
          exact formed' earlier piece later rest

/-- **A name that cannot be declared** ends the emission. -/
theorem run_pieces_of_fault {earlier later : List Handle} {fault : Fault}
    (nodup : (earlier ++ handle :: later).Nodup)
    (untracked : ∀ other ∈ earlier ++ handle :: later, st.tracker.progress? other = none)
    (forms : ∀ before other after, earlier = before ++ other :: after →
      ∃ code, form ledger style onlooker (past ledger onlooker st before) other = .ok code)
    (formless : form ledger style onlooker (past ledger onlooker st earlier) handle =
      .error fault) :
    (Emission.pieces ledger style onlooker.supplier (earlier ++ handle :: later)).run st =
      .error (.failed fault [handle])
        (visit ledger onlooker (past ledger onlooker st earlier) handle) := by
  obtain ⟨nodup', -, apart⟩ := List.nodup_append.mp nodup
  obtain ⟨emitted, run, -, -⟩ := run_pieces_of_forms nodup'
    (fun other held => untracked other (List.mem_append_left _ held)) forms
  have absent : handle ∉ earlier := fun held => apart handle held handle List.mem_cons_self rfl
  have fresh : (past ledger onlooker st earlier).tracker.progress? handle = none := by
    rw [progress?_past, if_neg absent]
    exact untracked handle (List.mem_append_right _ List.mem_cons_self)
  have failed := run_code ledger style onlooker (past ledger onlooker st earlier) handle
  rw [formless] at failed
  have last : (Emission.pieces ledger style onlooker.supplier (handle :: later)).run
      (past ledger onlooker st earlier) = .error (.failed fault [handle])
        (visit ledger onlooker (past ledger onlooker st earlier) handle) := by
    rw [Emission.run_pieces_of_untracked (Tracker.tracks_eq_false_iff.mpr fresh), failed]
  rw [Emission.pieces_append, EStateM.run_bind, run]
  simp only [EStateM.run_bind, last]

/-! ## What an onlooker is asked -/

/-- The onlooker with a record of what it is asked. -/
def recorded (onlooker : Onlooker σ) : Onlooker (σ × List (Handle × Tracker)) :=
  fun handle tracker state =>
    ((onlooker handle tracker state.1).1, (onlooker handle tracker state.1).2,
      state.2 ++ [(handle, tracker)])

theorem supplier_recorded (onlooker : Onlooker σ) :
    onlooker.supplier.recorded = onlooker.recorded.supplier := by
  funext handle st
  refine (Supplier.run_recorded onlooker.supplier handle st).trans ?_
  refine Eq.trans ?_ (onlooker.recorded.run_supplier handle st).symm
  rw [run_supplier]
  unfold Onlooker.recorded Emitting.withState
  cases (onlooker handle st.tracker st.state.1).1 with
  | ok code? => rfl
  | error fault => rfl

variable {record : List (Handle × Tracker)}

theorem form_recorded :
    form ledger style onlooker.recorded (st.withState (st.state, record)) handle =
      form ledger style onlooker st handle := rfl

/-- What the onlooker is asked for the sake of a name. -/
def asking (ledger : Ledger) (st : Emitting σ) (handle : Handle) : List (Handle × Tracker) :=
  if ledger.lacks handle then [(handle, (st.begin handle).tracker)] else []

theorem visit_recorded :
    visit ledger onlooker.recorded (st.withState (st.state, record)) handle =
      (visit ledger onlooker st handle).withState
        ((visit ledger onlooker st handle).state, record ++ asking ledger st handle) := by
  unfold visit asking
  split
  · rfl
  · rw [List.append_nil]
    rfl

/-- The onlooker is asked for the names that lack code, and for no others. -/
theorem past_recorded (ledger : Ledger) (onlooker : Onlooker σ) (names : List Handle)
    (st : Emitting σ) (record : List (Handle × Tracker)) :
    ∃ calls : List (Handle × Tracker), calls.map Prod.fst = names.filter ledger.lacks ∧
      past ledger onlooker.recorded (st.withState (st.state, record)) names =
        (past ledger onlooker st names).withState
          ((past ledger onlooker st names).state, record ++ calls) := by
  induction names generalizing st record with
  | nil => exact ⟨[], rfl, by rw [List.append_nil]; rfl⟩
  | cons handle rest ih =>
      obtain ⟨calls, names, later⟩ := ih ((visit ledger onlooker st handle).finish handle)
        (record ++ asking ledger st handle)
      refine ⟨asking ledger st handle ++ calls, ?_, ?_⟩
      · rw [List.map_append, names]
        unfold asking
        by_cases lacking : ledger.lacks handle = true
        · simp [lacking]
        · simp [lacking]
      · rw [List.append_assoc] at later
        refine Eq.trans ?_ later
        show past ledger onlooker.recorded ((visit ledger onlooker.recorded
          (st.withState (st.state, record)) handle).finish handle) rest = _
        rw [visit_recorded]
        rfl

/-- The record has no part in what names are declared as. -/
theorem form_past_recorded (earlier : List Handle) (handle : Handle) (st : Emitting σ) :
    form ledger style onlooker.recorded
        (past ledger onlooker.recorded (st.withState (st.state, [])) earlier) handle =
      form ledger style onlooker (past ledger onlooker st earlier) handle := by
  obtain ⟨calls, -, same⟩ := past_recorded ledger onlooker earlier st []
  rw [same]
  exact form_recorded

/-! ## The outcome -/

/-- Either all names have a form, or there is a first one that has none. -/
theorem forms_or_fault {α ε β : Type} (form : List α → α → Except ε β) (names : List α) :
    (∀ earlier name later, names = earlier ++ name :: later → ∃ code, form earlier name = .ok code) ∨
    ∃ earlier name later fault, names = earlier ++ name :: later ∧
      (∀ first other rest, earlier = first ++ other :: rest → ∃ code, form first other = .ok code) ∧
      form earlier name = .error fault := by
  induction names generalizing form with
  | nil => exact .inl fun earlier name later split => by simp at split
  | cons name rest ih =>
      cases formed : form [] name with
      | error fault =>
          exact .inr ⟨[], name, rest, fault, rfl, fun first other rest split => by simp at split,
            formed⟩
      | ok code =>
          -- the first name has a form, so the question is about the rest
          have extend : ∀ names, (∀ earlier other later, names = earlier ++ other :: later →
              ∃ code, form (name :: earlier) other = .ok code) →
              ∀ earlier other later, name :: names = earlier ++ other :: later →
                ∃ code, form earlier other = .ok code := by
            intro names forms earlier other later split
            cases earlier with
            | nil =>
                obtain ⟨rfl, -⟩ := List.cons.inj split
                exact ⟨code, formed⟩
            | cons first earlier =>
                obtain ⟨rfl, rest⟩ := List.cons.inj split
                exact forms earlier other later rest
          rcases ih fun earlier => form (name :: earlier) with
            forms | ⟨earlier, other, later, fault, rfl, forms, formless⟩
          · exact .inl (extend rest forms)
          · exact .inr ⟨name :: earlier, other, later, fault, rfl, extend earlier forms, formless⟩

section Outcome

variable (ledger : Ledger) (style : Style) (onlooker : Onlooker σ) (selection : Selection)
  (before : Emitting σ)

/-- The names of the selection that are not tracked. -/
def remaining : List Handle :=
  selection.toList.filter fun handle => !before.tracker.tracks handle

theorem nodup_remaining : (remaining selection before).Nodup :=
  selection.nodup_toList.filter _

theorem untracked_of_mem_remaining {handle : Handle}
    (held : handle ∈ remaining selection before) : before.tracker.progress? handle = none := by
  have untracked := (List.mem_filter.mp held).2
  exact Tracker.tracks_eq_false_iff.mp (by simpa using untracked)

/-- An emission goes over the names that are not tracked. -/
theorem run_declarations_remaining :
    (Emission.declarations ledger style onlooker.supplier selection).run before =
      match (Emission.pieces ledger style onlooker.supplier (remaining selection before)).run
        before with
      | .ok emitted after => .ok (style.block emitted) after
      | .error stop after => .error stop after := by
  rw [Emission.run_declarations, Emission.run_pieces_filter onlooker.keeps_supplier
    (fun handle => !before.tracker.tracks handle)]
  · rfl
  · intro handle _ tracked
    exact Tracker.tracks_iff.mp (by simpa using tracked)

variable {ledger style} {earlier later : List Handle}

theorem run_declarations_of_forms
    (forms : ∀ earlier handle later, remaining selection before = earlier ++ handle :: later →
      ∃ code, form ledger style onlooker (past ledger onlooker before earlier) handle = .ok code) :
    ∃ emitted,
      (Emission.declarations ledger style onlooker.supplier selection).run before =
        .ok (style.block emitted) (past ledger onlooker before (remaining selection before)) ∧
      emitted.map Piece.name = remaining selection before ∧
      ∀ earlier piece later, emitted = earlier ++ piece :: later →
        form ledger style onlooker (past ledger onlooker before (earlier.map Piece.name))
          piece.name = .ok piece.code := by
  obtain ⟨emitted, run, names, formed⟩ := run_pieces_of_forms (nodup_remaining selection before)
    (fun handle held => untracked_of_mem_remaining selection before held) forms
  refine ⟨emitted, ?_, names, formed⟩
  rw [run_declarations_remaining, run]

theorem run_declarations_of_fault {fault : Fault}
    (names : remaining selection before = earlier ++ handle :: later)
    (forms : ∀ first other rest, earlier = first ++ other :: rest →
      ∃ code, form ledger style onlooker (past ledger onlooker before first) other = .ok code)
    (formless : form ledger style onlooker (past ledger onlooker before earlier) handle =
      .error fault) :
    (Emission.declarations ledger style onlooker.supplier selection).run before =
      .error (.failed fault [handle])
        (visit ledger onlooker (past ledger onlooker before earlier) handle) := by
  have nodup := nodup_remaining selection before
  have untracked := fun other (held : other ∈ remaining selection before) =>
    untracked_of_mem_remaining selection before held
  rw [names] at nodup untracked
  rw [run_declarations_remaining, names, run_pieces_of_fault nodup untracked forms formless]

/-- What the onlooker is asked if all names have a form. -/
theorem calls_of_forms
    (forms : ∀ earlier handle later, remaining selection before = earlier ++ handle :: later →
      ∃ code, form ledger style onlooker (past ledger onlooker before earlier) handle = .ok code) :
    (Emission.calls ledger style onlooker.supplier selection before).map Prod.fst =
      (remaining selection before).filter ledger.lacks := by
  obtain ⟨emitted, run, -, -⟩ := run_declarations_of_forms onlooker.recorded selection
    (before.withState (before.state, [])) (fun earlier handle later split => by
      rw [form_past_recorded]
      exact forms earlier handle later split)
  obtain ⟨calls, names, same⟩ :=
    past_recorded ledger onlooker (remaining selection before) before []
  unfold Emission.calls
  rw [supplier_recorded, run]
  show (past ledger onlooker.recorded (before.withState (before.state, []))
    (remaining selection before)).state.2.map Prod.fst = _
  rw [same]
  exact names

/-- What the onlooker is asked if a name has no form. -/
theorem calls_of_fault {fault : Fault}
    (names : remaining selection before = earlier ++ handle :: later)
    (forms : ∀ first other rest, earlier = first ++ other :: rest →
      ∃ code, form ledger style onlooker (past ledger onlooker before first) other = .ok code)
    (formless : form ledger style onlooker (past ledger onlooker before earlier) handle =
      .error fault) :
    (Emission.calls ledger style onlooker.supplier selection before).map Prod.fst =
      (earlier ++ [handle]).filter ledger.lacks := by
  have run := run_declarations_of_fault onlooker.recorded selection
    (before.withState (before.state, [])) names (fun first other rest split => by
      rw [form_past_recorded]
      exact forms first other rest split)
    ((form_past_recorded earlier handle before).trans formless)
  obtain ⟨calls, asked, same⟩ := past_recorded ledger onlooker earlier before []
  rw [same, visit_recorded] at run
  unfold Emission.calls
  rw [supplier_recorded, run]
  show ([] ++ calls ++ asking ledger (past ledger onlooker before earlier) handle).map
    Prod.fst = _
  rw [List.nil_append, List.map_append, asked, List.filter_append]
  unfold asking
  by_cases lacking : ledger.lacks handle = true
  · simp [lacking]
  · simp [lacking]

/-- **The outcome of an emission** with a supplier that does not touch the tracker. Let the names
remain that are selected and not tracked, in the order of the selection. If all of them have a
form, which may depend on what the supplier has seen of the earlier ones, the block consists of
their forms, each followed by a line break if the style calls for it, and all of them are
completed. Otherwise the
emission fails at the first name without a form, for the cause of it: then the earlier ones are
completed, the name is started, and nothing else is tracked that was not. The supplier is asked
for those names that are bound but lack code, in order, and for no others. -/
theorem outcome_of_emission (ledger : Ledger) (style : Style) (onlooker : Onlooker σ)
    (selection : Selection) (before : Emitting σ) :
    let names := selection.toList.filter fun handle => !before.tracker.tracks handle
    let form (earlier : List Handle) (handle : Handle) :=
      onlooker.form ledger style (past ledger onlooker before earlier) handle
    let run := (Emission.declarations ledger style onlooker.supplier selection).run before
    let asked := (Emission.calls ledger style onlooker.supplier selection before).map Prod.fst
    ((∀ earlier handle later, names = earlier ++ handle :: later →
        ∃ code, form earlier handle = .ok code) ∧
      ∃ emitted after,
        run = .ok (.concat (emitted.map fun piece => piece.code ++ style.lineEnd)) after ∧
        emitted.map Piece.name = names ∧
        (∀ earlier piece later, emitted = earlier ++ piece :: later →
          form (earlier.map Piece.name) piece.name = .ok piece.code) ∧
        (∀ handle, after.tracker.progress? handle =
          if handle ∈ names then some .completed else before.tracker.progress? handle) ∧
        asked = names.filter ledger.lacks) ∨
    ∃ earlier handle later fault, names = earlier ++ handle :: later ∧
      (∀ first other rest, earlier = first ++ other :: rest →
        ∃ code, form first other = .ok code) ∧
      form earlier handle = .error fault ∧
      ∃ after, run = .error (.failed fault [handle]) after ∧
        (∀ other, after.tracker.progress? other =
          if other = handle then some .started
          else if other ∈ earlier then some .completed
          else before.tracker.progress? other) ∧
        asked = (earlier ++ [handle]).filter ledger.lacks := by
  intro names form run asked
  rcases forms_or_fault form names with
    forms | ⟨earlier, handle, later, fault, split, forms, formless⟩
  · obtain ⟨emitted, declared, named, formed⟩ :=
      run_declarations_of_forms onlooker selection before forms
    exact .inl ⟨forms, emitted, _, declared, named, formed, progress?_past names before,
      calls_of_forms onlooker selection before forms⟩
  · refine .inr ⟨earlier, handle, later, fault, split, forms, formless, _,
      run_declarations_of_fault onlooker selection before split forms formless,
      fun other => ?_, calls_of_fault onlooker selection before split forms formless⟩
    have absent : handle ∉ earlier := fun held => by
      have nodup := nodup_remaining selection before
      rw [show remaining selection before = earlier ++ handle :: later from split] at nodup
      exact (List.nodup_append.mp nodup).2.2 handle held handle List.mem_cons_self rfl
    have fresh : (past ledger onlooker before earlier).tracker.progress? handle = none := by
      rw [progress?_past, if_neg absent]
      refine untracked_of_mem_remaining selection before ?_
      rw [show remaining selection before = earlier ++ handle :: later from split]
      exact List.mem_append_right _ List.mem_cons_self
    rw [progress?_visit fresh, progress?_past]

/-- A supplier that gives code once is asked for a name with an import that cannot be used, and
again for one without code. As long as the latter is not selected, the emission ends well, here
in two styles. -/
theorem outcome_of_emission_of_declined :
    let value (kind : Kind) : Value := ⟨none, none, kind⟩
    let done : Handle := ⟨0, ⟨"a0"⟩, "a"⟩
    let loaded : Handle := ⟨1, ⟨"b0"⟩, "b"⟩
    let coded : Handle := ⟨2, ⟨"c0"⟩, "c"⟩
    let unusable : Handle := ⟨3, ⟨"d0"⟩, "d"⟩
    let declined : Handle := ⟨4, ⟨"e0"⟩, "e"⟩
    let unbound : Handle := ⟨5, ⟨"f0"⟩, "f"⟩
    let ledger := (((Ledger.bind {} loaded ⟨value (.imported ⟨"m", "x"⟩), ⟨"b", 0⟩⟩).bind coded
      ⟨value (.inline (some (.text "1"))), ⟨"c", 0⟩⟩).bind unusable
        ⟨value (.imported ⟨"m", ""⟩), ⟨"d", 0⟩⟩).bind declined ⟨value (.inline none), ⟨"e", 0⟩⟩
    let onlooker : Onlooker Nat := fun handle _ count =>
      (.ok (if count = 0 then some (.ident handle.ident) else none), count + 1)
    let good := [done, loaded, coded, unusable]
    let handles := good ++ [declined, unbound]
    let before : Emitting Nat := { tracker := (∅ : Tracker).start done, state := 0 }
    let run (style : Style) (handles : List Handle) :=
      (Emission.declarations ledger style onlooker.supplier (.ofList handles)).run before
    (∃ block after, run {} good = .ok block after ∧
      block.render = "const b0 = require(\"m\").x;const c0 = 1;d0" ∧
      handles.map after.tracker.progress? = [some .started, some .completed, some .completed,
        some .completed, none, none]) ∧
    (∃ block after, run { es5 := true, esm := true, lines := true } good = .ok block after ∧
      block.render = "import \x7bx as b0\x7d from \"m.js\";\nvar c0 = 1;\nd0\n" ∧
      handles.map after.tracker.progress? = [some .started, some .completed, some .completed,
        some .completed, none, none]) ∧
    ∃ after, run {} handles =
        .error (.failed (.noCode "e0" (value (.inline none))) [declined]) after ∧
      handles.map after.tracker.progress? = [some .started, some .completed, some .completed,
        some .completed, some .started, none] ∧
      (Emission.calls ledger {} onlooker.supplier (.ofList handles) before).map Prod.fst =
        [unusable, declined] := by
  intro value done loaded coded unusable declined unbound ledger onlooker good handles before run
  -- the names that remain are completed in every style in which the emission ends well
  have completed (style : Style) {text : String}
      (rendered : Emission.rendered? (run style good) = some text) :
      ∃ block after, run style good = .ok block after ∧ block.render = text ∧
        handles.map after.tracker.progress? = [some .started, some .completed, some .completed,
          some .completed, none, none] := by
    obtain ⟨block, after, declared, text⟩ := Emission.ok_of_rendered? rendered
    rcases outcome_of_emission ledger style onlooker (.ofList good) before with
      ⟨-, emitted, last, same, -, -, progress, -⟩ |
        ⟨earlier, handle, later, fault, -, -, -, last, same, -⟩
    · obtain ⟨-, rfl⟩ := EStateM.Result.ok.inj (same.symm.trans declared)
      refine ⟨block, last, declared, text, ?_⟩
      rw [funext progress]
      decide +kernel
    · exact absurd (same.symm.trans declared) (by simp)
  refine ⟨completed {} (by decide +kernel), completed _ (by decide +kernel), ?_⟩
  have evaluated : (match run {} handles with
    | .ok _ _ => none
    | .error stop _ => some stop) =
      some (.failed (.noCode "e0" (value (.inline none))) [declined]) := by
    decide +kernel
  rcases outcome_of_emission ledger {} onlooker (.ofList handles) before with
    ⟨-, emitted, after, same, -⟩ |
      ⟨earlier, handle, later, fault, split, -, -, after, same, progress, asked⟩
  · rw [show run {} handles = _ from same] at evaluated
    cases evaluated
  · rw [show run {} handles = _ from same] at evaluated
    obtain ⟨rfl, rfl⟩ : fault = _ ∧ handle = declined := by simpa using evaluated
    -- what stands before the name that is declined
    have names : (Selection.ofList handles).toList.filter
        (fun handle => !before.tracker.tracks handle) =
          [loaded, coded, unusable] ++ declined :: [unbound] := by
      decide +kernel
    obtain ⟨rfl, -, -⟩ := (List.append_cons_inj_of_notMem (by decide) (by decide)).mp
      (names.symm.trans split)
    refine ⟨after, same, ?_, asked.trans (by decide +kernel)⟩
    rw [funext progress]
    decide +kernel

end Outcome

end Onlooker

end NameScope
