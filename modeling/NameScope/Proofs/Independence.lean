import NameScope.Proofs.Strands

/-!
# Stems do not see each other

The requests of one stem come to the same when all others are left out, and two neighbours of
different stems may change places (`Attributed.independent_stems`).
-/

namespace NameScope

namespace Titled

/-- A registry has groups only where names are bound, and names under their own stem. -/
structure Registry.Tidy (registry : Registry) : Prop where
  occupied : ∀ stem group, registry.bound.get? stem = some group → group.values ≠ []
  stems : ∀ stem, ∀ title ∈ (registry.group stem).values, title.stem = stem

/-- Everything in a session is in use and in its place. -/
structure Session.Tidy (session : Session) : Prop where
  registries : ∀ registry ∈ session.registries, registry.Tidy
  columns : ∀ number stem refs, (session.table number).columns.get? stem = some refs → refs ≠ []

theorem Registry.Tidy.advance {registry : Registry} (tidy : registry.Tidy) (stem : String) :
    (registry.advance stem).Tidy :=
  ⟨tidy.occupied, tidy.stems⟩

theorem Registry.Tidy.record {registry : Registry} (tidy : registry.Tidy) (key : Key)
    (title : Title) : (registry.record title.stem key title).Tidy := by
  refine ⟨fun stem group here => ?_, fun stem other among => ?_⟩
  · rw [Registry.bound_record] at here
    split at here
    · have held : title ∈ group.values :=
        OrderedMap.mem_values_iff.mpr ⟨key, by
          rw [← Option.some.inj here, OrderedMap.get?_insert, if_pos rfl]⟩
      exact List.ne_nil_of_mem held
    · exact tidy.occupied stem group here
  · rw [Registry.group_record] at among
    split at among
    · rename_i same
      obtain ⟨place, here⟩ := OrderedMap.mem_values_iff.mp among
      rw [OrderedMap.get?_insert] at here
      split at here
      · rw [← Option.some.inj here, same]
      · rw [same]
        exact tidy.stems title.stem other (OrderedMap.mem_values_iff.mpr ⟨place, here⟩)
    · exact tidy.stems stem other among

namespace Session

variable {session other : Session} {stem : String}

theorem tidy_empty : Tidy {} := by
  refine ⟨fun registry among => absurd among List.not_mem_nil, fun number stem refs here => ?_⟩
  exact absurd here (by simp)

theorem Tidy.issue (tidy : session.Tidy) (number : Nat) (title : Title) :
    (session.issue number title).Tidy := by
  refine ⟨fun registry among => ?_, tidy.columns⟩
  rcases mem_modify among with held | ⟨old, held, rfl⟩
  · exact tidy.registries registry held
  · exact (tidy.registries old held).advance _

theorem Tidy.enroll (tidy : session.Tidy) (number table : Nat) (title : Title) (key : Key)
    (ref : Ref) (value : Value) : (session.enroll number table title key ref value).Tidy := by
  refine ⟨fun registry among => ?_, fun other stem refs here => ?_⟩
  · rcases mem_modify among with held | ⟨old, held, rfl⟩
    · exact tidy.registries registry held
    · exact (tidy.registries old held).record key title
  · have here : (if other = table then _ else _ : Table).columns.get? stem = some refs := here
    split at here
    · have here : (OrderedMap.update _ _ _).get? stem = some refs := here
      rw [OrderedMap.get?_update] at here
      split at here
      · rw [← Option.some.inj here]
        simp
      · exact tidy.columns table stem refs here
    · exact tidy.columns other stem refs here

theorem Tidy.carryOut (tidy : session.Tidy) (number : Nat) (registry : Registry)
    (verdict : Verdict Title) : (session.carryOut number registry verdict).2.Tidy := by
  cases verdict with
  | reply answer => exact tidy
  | issue asked => exact tidy.issue number _
  | enter asked key ref value => exact (tidy.issue number _).enroll number _ _ key ref value
  | enroll title key ref value => exact tidy.enroll number _ title key ref value

theorem Tidy.perform (tidy : session.Tidy) (instruction : Instruction) :
    (session.perform instruction).2.Tidy := by
  cases instruction with
  | openRegistry table scope style =>
      refine ⟨fun registry among => ?_, tidy.columns⟩
      rcases List.mem_append.mp among with held | new
      · exact tidy.registries registry held
      · rw [List.mem_singleton.mp new]
        refine ⟨fun stem group here => absurd here (by simp), fun stem title held => ?_⟩
        exact absurd held List.not_mem_nil
  | ask number request =>
      cases here : session.registries[number]? with
      | none =>
          rw [perform_ask_of_none session here]
          exact tidy
      | some registry =>
          rw [perform_ask session here]
          exact tidy.carryOut number registry _

/-- What is answered for a stem has this stem. -/
theorem Tidy.stem_of_named (tidy : session.Tidy) {instruction : Instruction} {title : Title}
    (named : title ∈ (session.perform instruction).1.names) :
    instruction.stem? = some title.stem := by
  cases instruction with
  | openRegistry table scope style => exact absurd named List.not_mem_nil
  | ask number request =>
      refine congrArg some ?_
      cases here : session.registries[number]? with
      | none =>
          rw [perform_ask_of_none session here] at named
          exact absurd named List.not_mem_nil
      | some registry =>
          rw [perform_ask session here] at named
          have fits := Request.fits_judge (session.outlook registry) request
          generalize request.judge (session.outlook registry) = verdict at fits named
          cases verdict with
          | reply answer =>
              obtain ⟨key, found⟩ := fits title named
              have held : title ∈ (registry.group _).values :=
                OrderedMap.mem_values_iff.mpr ⟨key, found⟩
              exact ((tidy.registries registry (List.mem_of_getElem? here)).stems _ title held).symm
          | issue asked =>
              rw [List.mem_singleton.mp named]
              exact fits.1.symm
          | enter asked key ref value =>
              rw [List.mem_singleton.mp named]
              exact fits.1.symm
          | enroll given key ref value =>
              rw [List.mem_singleton.mp named]
              exact fits.1.symm

/-! ## Reports -/

theorem concerns_of_stem? {instruction : Instruction} {asked : String}
    (isAsked : instruction.stem? = some asked) :
    instruction.concerns stem = true ↔ asked = stem := by
  unfold Instruction.concerns
  rw [isAsked]
  exact decide_eq_true_iff

/-- What is reported for a stem is read off its strand. -/
theorem report_eq (strands : session.strand stem = other.strand stem) {instruction : Instruction}
    (concerned : instruction.concerns stem = true) {reply : Reply Title}
    (stems : ∀ title ∈ reply.names, title.stem = stem) :
    session.report instruction reply = other.report instruction reply := by
  have shown : reply.map session.showing = reply.map other.showing :=
    Reply.map_congr fun title named =>
      congrArg (Showing.mk title) (binding?_eq strands (stems title named))
  have columns : session.column instruction = other.column instruction := by
    cases instruction with
    | openRegistry table scope style => rfl
    | ask number request =>
        obtain rfl := concerns_ask_iff.mp concerned
        obtain ⟨here, here'⟩ | ⟨registry, registry', here, here'⟩ := getElem?_cases strands number
        · simp only [column, here, here']
        · have tables : registry.table = registry'.table :=
            congrArg Part.table (part_eq strands here here')
          simp only [column, here, here', tables]
          exact congrArg (fun strand : Strand => strand.column registry'.table) strands
  unfold report
  rw [shown, columns]

/-- **A step that concerns a stem** depends on its strand only, reports included. -/
theorem Tidy.step_of_concerned (tidy : session.Tidy)
    (strands : session.strand stem = other.strand stem) {instruction : Instruction}
    (concerned : instruction.concerns stem = true) :
    (session.step instruction).1 = (other.step instruction).1 ∧
      (session.step instruction).2.strand stem = (other.step instruction).2.strand stem := by
  obtain ⟨replies, later⟩ := perform_of_concerned strands concerned
  have stems : ∀ title ∈ (session.perform instruction).1.names, title.stem = stem :=
    fun title named => (concerns_of_stem? (tidy.stem_of_named named)).mp concerned
  have report := report_eq later concerned stems
  exact ⟨report.trans (congrArg _ replies), later⟩

/-! ## Runs -/

theorem Tidy.run (tidy : session.Tidy) (instructions : List Instruction) :
    (session.run instructions).2.Tidy := by
  induction instructions generalizing session with
  | nil => exact tidy
  | cons instruction rest ih => exact ih (tidy.perform instruction)

/-- **Leaving out** what does not concern a stem. -/
theorem Tidy.run_filter (tidy : session.Tidy) (strands : session.strand stem = other.strand stem)
    (instructions : List Instruction) :
    ((instructions.zip (session.run instructions).1).filter (·.1.concerns stem)).map Prod.snd =
        (other.run (instructions.filter (·.concerns stem))).1 ∧
      (session.run instructions).2.strand stem =
        (other.run (instructions.filter (·.concerns stem))).2.strand stem := by
  induction instructions generalizing session other with
  | nil => exact ⟨rfl, strands⟩
  | cons instruction rest ih =>
      rw [run_cons, List.zip_cons_cons]
      by_cases concerned : instruction.concerns stem = true
      · obtain ⟨report, later⟩ := tidy.step_of_concerned strands concerned
        obtain ⟨reports, last⟩ := ih (tidy.perform instruction) later
        rw [List.filter_cons_of_pos concerned, List.filter_cons_of_pos (by exact concerned),
          run_cons, List.map_cons]
        exact ⟨congrArg₂ _ report reports, last⟩
      · -- the run that leaves it out stays where it is, and the strand of the other one too
        have apart := eq_false_of_ne_true concerned
        rw [List.filter_cons_of_neg concerned, List.filter_cons_of_neg (by exact concerned)]
        exact ih (tidy.perform instruction) ((strand_perform_of_apart apart).trans strands)

/-- Sessions with the same under every stem. -/
def Alike (session other : Session) : Prop := ∀ stem, session.strand stem = other.strand stem

theorem exists_concerned (instruction : Instruction) :
    ∃ stem, instruction.concerns stem = true := by
  cases instruction with
  | openRegistry table scope style => exact ⟨"", rfl⟩
  | ask number request => exact ⟨_, concerns_ask_iff.mpr rfl⟩

theorem Alike.step (alike : session.Alike other) (tidy : session.Tidy)
    (instruction : Instruction) :
    (session.step instruction).1 = (other.step instruction).1 ∧
      (session.step instruction).2.Alike (other.step instruction).2 := by
  obtain ⟨stem, concerned⟩ := exists_concerned instruction
  refine ⟨(tidy.step_of_concerned (alike stem) concerned).1, fun stem => ?_⟩
  by_cases concerned : instruction.concerns stem = true
  · exact (tidy.step_of_concerned (alike stem) concerned).2
  · have apart := eq_false_of_ne_true concerned
    exact (strand_perform_of_apart apart).trans
      ((alike stem).trans (strand_perform_of_apart apart).symm)

theorem Alike.run (alike : session.Alike other) (tidy : session.Tidy)
    (instructions : List Instruction) :
    (session.run instructions).1 = (other.run instructions).1 ∧
      (session.run instructions).2.Alike (other.run instructions).2 := by
  induction instructions generalizing session other with
  | nil => exact ⟨rfl, alike⟩
  | cons instruction rest ih =>
      obtain ⟨report, later⟩ := alike.step tidy instruction
      obtain ⟨reports, last⟩ := ih later (tidy.perform instruction)
      exact ⟨congrArg₂ List.cons report reports, last⟩

/-- **Neighbours** of different stems may change places. -/
theorem Tidy.swap (tidy : session.Tidy) {first second : Instruction} {p q : String}
    (ofFirst : first.stem? = some p) (ofSecond : second.stem? = some q) (apart : p ≠ q) :
    ((session.step first).2.step second).1 = (session.step second).1 ∧
      (session.step first).1 = ((session.step second).2.step first).1 ∧
      ((session.step first).2.step second).2.Alike ((session.step second).2.step first).2 := by
  have firstConcerns : ∀ stem, first.concerns stem = true ↔ p = stem :=
    fun stem => concerns_of_stem? ofFirst
  have secondConcerns : ∀ stem, second.concerns stem = true ↔ q = stem :=
    fun stem => concerns_of_stem? ofSecond
  have leaves : ∀ {session : Session} {instruction : Instruction} {stem : String},
      ¬ instruction.concerns stem = true →
        (session.step instruction).2.strand stem = session.strand stem :=
    fun other => strand_perform_of_apart (eq_false_of_ne_true other)
  have keepsP : ∀ session : Session, (session.step second).2.strand p = session.strand p :=
    fun _ => leaves fun concerned => apart ((secondConcerns p).mp concerned).symm
  have keepsQ : ∀ session : Session, (session.step first).2.strand q = session.strand q :=
    fun _ => leaves fun concerned => apart ((firstConcerns q).mp concerned)
  -- each of the two finds its own strand as it would without the other
  obtain ⟨reportP, laterP⟩ := tidy.step_of_concerned (keepsP session).symm
    ((firstConcerns p).mpr rfl)
  obtain ⟨reportQ, laterQ⟩ := tidy.step_of_concerned (keepsQ session).symm
    ((secondConcerns q).mpr rfl)
  refine ⟨reportQ.symm, reportP, fun stem => ?_⟩
  by_cases isP : stem = p
  · subst isP
    exact (keepsP _).trans laterP
  · by_cases isQ : stem = q
    · subst isQ
      exact laterQ.symm.trans (keepsQ _).symm
    · have notFirst : ¬ first.concerns stem = true :=
        fun concerned => isP ((firstConcerns stem).mp concerned).symm
      have notSecond : ¬ second.concerns stem = true :=
        fun concerned => isQ ((secondConcerns stem).mp concerned).symm
      rw [leaves notSecond, leaves notFirst, leaves notFirst, leaves notSecond]

/-- A run with two neighbours in each order. -/
theorem Tidy.run_swap (tidy : session.Tidy) (before after : List Instruction)
    {first second : Instruction} {p q : String} (ofFirst : first.stem? = some p)
    (ofSecond : second.stem? = some q) (apart : p ≠ q) :
    ∃ reports x y later, reports.length = before.length ∧
      (session.run (before ++ first :: second :: after)).1 = reports ++ x :: y :: later ∧
      (session.run (before ++ second :: first :: after)).1 = reports ++ y :: x :: later ∧
      (session.run (before ++ first :: second :: after)).2.Alike
        (session.run (before ++ second :: first :: after)).2 := by
  have tidy' := tidy.run before
  have reports := session.length_run before
  simp only [run_append, run_cons]
  generalize session.run before = start at tidy' reports
  obtain ⟨ofSecond', ofFirst', alike⟩ := tidy'.swap ofFirst ofSecond apart
  obtain ⟨later, last⟩ := alike.run ((tidy'.perform first).perform second) after
  refine ⟨start.1, (start.2.step first).1, (start.2.step second).1,
    (((start.2.step first).2.step second).2.run after).1, reports, ?_, ?_, last⟩
  · rw [ofSecond']
  · rw [← ofFirst', later]

end Session

/-! ## Orders -/

/-- Two lookups that come to the same where a default is never found are the same. -/
theorem eq_of_getD_eq {α : Type} {found found' : Option α} {default : α}
    (proper : ∀ a, found = some a → a ≠ default) (proper' : ∀ a, found' = some a → a ≠ default)
    (same : found.getD default = found'.getD default) : found = found' := by
  cases found with
  | none =>
      cases found' with
      | none => rfl
      | some a => exact absurd same.symm (proper' a rfl)
  | some a =>
      cases found' with
      | none => exact absurd same (proper a rfl)
      | some b => exact congrArg some same

theorem Registry.Tidy.perm_bound {registry registry' : Registry} (tidy : registry.Tidy)
    (tidy' : registry'.Tidy) (parts : ∀ stem, registry.part stem = registry'.part stem) :
    registry.bound.entries.Perm registry'.bound.entries := by
  have proper : ∀ {registry : Registry}, registry.Tidy → ∀ stem group,
      registry.bound.get? stem = some group → group ≠ ∅ := by
    rintro registry tidy stem group here rfl
    exact tidy.occupied stem ∅ here rfl
  refine OrderedMap.perm_entries fun stem => ?_
  exact eq_of_getD_eq (proper tidy stem) (proper tidy' stem) (congrArg Part.group (parts stem))

namespace Session

variable {session other : Session}

/-- Only the order of the groups is left open. -/
theorem Alike.perm_values (alike : session.Alike other) (tidy : session.Tidy)
    (tidy' : other.Tidy) (number : Nat) : (session.values number).Perm (other.values number) := by
  unfold values
  obtain ⟨here, here'⟩ | ⟨registry, registry', here, here'⟩ := getElem?_cases (alike "") number
  · rw [here, here']
  · rw [here, here']
    have bound := (tidy.registries registry (List.mem_of_getElem? here)).perm_bound
      (tidy'.registries registry' (List.mem_of_getElem? here'))
      fun stem => part_eq (alike stem) here here'
    exact bound.map _

/-- Only the order of the columns is left open. -/
theorem Alike.perm_columns (alike : session.Alike other) (tidy : session.Tidy)
    (tidy' : other.Tidy) (number : Nat) :
    (session.table number).columns.entries.Perm (other.table number).columns.entries := by
  refine OrderedMap.perm_entries fun stem => ?_
  exact eq_of_getD_eq (tidy.columns number stem) (tidy'.columns number stem)
    (congrArg (fun strand : Strand => strand.column number) (alike stem))

end Session

end Titled

namespace Attributed

/-- **Stems do not see each other.** However a session goes, whatever is asked for under a stem
is answered, and leaves behind under this stem, the same as when the requests of all other stems
are left out. Names stand for themselves by their titles, which no two of them share. Two
neighbours of different stems may change places: they are answered the same, as is everything
after them, and no more than the order of groups and of columns differs in the end. -/
theorem independent_stems (instructions : List Instruction) (stem : String) :
    let full := run {} instructions
    let alone := run {} (instructions.filter (·.concerns stem))
    full.2.titles.Nodup ∧
    ((instructions.zip full.1).filter (·.1.concerns stem)).map Prod.snd = alone.1 ∧
    full.2.titled.strand stem = alone.2.titled.strand stem ∧
    ∀ before after first second p q, instructions = before ++ first :: second :: after →
      first.stem? = some p → second.stem? = some q → p ≠ q →
        let swapped := run {} (before ++ second :: first :: after)
        (∃ reports x y later, reports.length = before.length ∧
          full.1 = reports ++ x :: y :: later ∧ swapped.1 = reports ++ y :: x :: later) ∧
        (∀ other, full.2.titled.strand other = swapped.2.titled.strand other) ∧
        (∀ number, (full.2.values number).Perm (swapped.2.values number)) ∧
        ∀ number, (full.2.session.ledger.table number).columns.entries.Perm
          (swapped.2.session.ledger.table number).columns.entries := by
  intro full alone
  obtain ⟨coherent, reports, titled⟩ := run_titled instructions
  obtain ⟨-, reports', titled'⟩ := run_titled (instructions.filter (·.concerns stem))
  obtain ⟨kept, strands⟩ := Titled.Session.tidy_empty.run_filter rfl instructions
  refine ⟨coherent.distinct, ?_, ?_, ?_⟩
  · rw [reports, reports']
    exact kept
  · rw [titled, titled']
    exact strands
  · rintro before after first second p q rfl ofFirst ofSecond apart swapped
    obtain ⟨coherent', reports', titled'⟩ := run_titled (before ++ second :: first :: after)
    obtain ⟨start, x, y, later, places, inOrder, inTurn, alike⟩ :=
      Titled.Session.tidy_empty.run_swap before after ofFirst ofSecond apart
    have tidy := Titled.Session.tidy_empty.run (before ++ first :: second :: after)
    have tidy' := Titled.Session.tidy_empty.run (before ++ second :: first :: after)
    rw [← titled] at alike tidy
    rw [← titled'] at alike tidy'
    refine ⟨⟨start, x, y, later, places, reports.trans inOrder, reports'.trans inTurn⟩, alike, ?_,
      alike.perm_columns tidy tidy'⟩
    intro number
    rw [coherent.values_eq, coherent'.values_eq]
    exact alike.perm_values tidy tidy' number

/-- A value goes under "y" and the next one to a name of another registry under "x"; then "x" is
refused. With the two changed about, the groups change places, and nothing else does. -/
theorem independent_stems_of_crossing :
    let inline (id : Nat) : Value := .inline (some ⟨id, .unit⟩)
    let before : List Instruction := [.openRegistry 0 {} {},
      .openRegistry 0 { allowed := some ["y"] } {}, .ask 0 (.newName "x")]
    let first : Instruction := .ask 1 (.registerNew "y" (inline 0))
    let second : Instruction := .ask 1 (.registerName ⟨0, ⟨"x0"⟩, "x"⟩ (inline 1))
    let after : List Instruction := [.ask 1 (.newName "x")]
    let full := run {} (before ++ first :: second :: after)
    let swapped := run {} (before ++ second :: first :: after)
    full.1[5]? = some ⟨.failed (.stemRefused "x"), [⟨1, .unit⟩]⟩ ∧
    full.2.values 1 = [("y", [⟨1, ⟨"y0"⟩, "y"⟩]), ("x", [⟨0, ⟨"x0"⟩, "x"⟩])] ∧
    swapped.2.values 1 = [("x", [⟨0, ⟨"x0"⟩, "x"⟩]), ("y", [⟨1, ⟨"y0"⟩, "y"⟩])] ∧
    (∃ reports x y later, reports.length = 3 ∧
      full.1 = reports ++ x :: y :: later ∧ swapped.1 = reports ++ y :: x :: later) ∧
    (∀ other, full.2.titled.strand other = swapped.2.titled.strand other) := by
  intro inline before first second after full swapped
  obtain ⟨-, -, -, changed⟩ := independent_stems (before ++ first :: second :: after) "x"
  obtain ⟨reports, strands, -⟩ :=
    changed before after first second "y" "x" rfl rfl rfl (by decide)
  exact ⟨by decide +kernel, by decide +kernel, by decide +kernel, reports, strands⟩

end Attributed

end NameScope
