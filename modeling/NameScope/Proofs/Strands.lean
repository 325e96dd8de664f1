import NameScope.Proofs.Attribution

/-!
# Strands

What a session holds under one stem is a `Titled.Strand`: the counters, groups, names and
columns of this stem. What is asked for under a stem comes to what its strand says and changes
this strand only (`Titled.Session.perform_of_concerned`,
`Titled.Session.strand_perform_of_apart`).
-/

namespace NameScope

/-- The stem that an instruction is about, if it is about one. -/
def Instruction.stem? : Instruction → Option String
  | .openRegistry _ _ _ => none
  | .ask _ request => some (request.stem Title.stem)

/-- Whether an instruction matters to a stem: it asks for something under this stem, or opens
a registry. -/
def Instruction.concerns (stem : String) (instruction : Instruction) : Bool :=
  instruction.stem?.all (· = stem)

namespace Titled

/-- What a registry has under one stem. -/
structure Part where
  scope : Scope
  /-- The next number, if a name was given out. -/
  next? : Option Nat
  group : OrderedMap Key Title
  table : Nat
  style : Style

/-- What a session has under one stem. -/
@[ext] structure Strand where
  registries : List Part
  titles : List Title
  binding? : Title → Option Binding
  column : Nat → List Ref

/-- The part of a registry under a stem. -/
def Registry.part (registry : Registry) (stem : String) : Part where
  scope := registry.allocator.scope
  next? := registry.allocator.counters.get? stem
  group := registry.group stem
  table := registry.table
  style := registry.style

/-- The strand of a session under a stem. -/
def Session.strand (session : Session) (stem : String) : Strand where
  registries := session.registries.map (·.part stem)
  titles := session.titles.filter (·.stem = stem)
  binding? title := if title.stem = stem then session.binding? title else none
  column number := (session.table number).column stem

/-- A strand after a name has been given out. -/
def Strand.issue (strand : Strand) (number : Nat) (title : Title) : Strand :=
  { strand with
    registries := strand.registries.modify number fun part =>
      { part with next? := some (part.next?.getD 0 + 1) }
    titles := strand.titles ++ [title] }

/-- A strand after a name has been bound. -/
def Strand.enroll (strand : Strand) (number table : Nat) (title : Title) (key : Key) (ref : Ref)
    (value : Value) : Strand :=
  { strand with
    registries := strand.registries.modify number fun part =>
      { part with group := part.group.insert key title }
    binding? := fun other =>
      if other = title then some ⟨value, ⟨title.stem, (strand.column table).length⟩⟩
      else strand.binding? other
    column := fun other =>
      if other = table then strand.column table ++ [ref] else strand.column other }

/-! ## One stem -/

section Strands

variable (registry : Registry) (session : Session)

theorem part_advance (asked stem : String) :
    (registry.advance asked).part stem =
      if stem = asked then
        { registry.part stem with next? := some ((registry.part stem).next?.getD 0 + 1) }
      else registry.part stem := by
  unfold Registry.advance Registry.part Allocator.advance
  simp only [OrderedMap.get?_update]
  by_cases same : stem = asked
  · subst same
    simp only [if_true]
    rfl
  · simp only [if_neg same]
    rfl

theorem part_record (asked stem : String) (key : Key) (title : Title) :
    (registry.record asked key title).part stem =
      if stem = asked then
        { registry.part stem with group := (registry.part stem).group.insert key title }
      else registry.part stem := by
  unfold Registry.part
  rw [Registry.group_record]
  by_cases same : stem = asked
  · subst same
    simp only [if_true]
    rfl
  · simp only [if_neg same]
    rfl

theorem strand_issue (number : Nat) (title : Title) :
    (session.issue number title).strand title.stem =
      (session.strand title.stem).issue number title := by
  apply Strand.ext
  · refine map_modify (fun registry => ?_) _ _
    rw [part_advance, if_pos rfl]
  · show (session.titles ++ [title]).filter _ = session.titles.filter _ ++ [title]
    rw [List.filter_append, List.filter_singleton]
    simp
  · rfl
  · rfl

theorem strand_issue_of_ne (number : Nat) {title : Title} {stem : String}
    (apart : title.stem ≠ stem) :
    (session.issue number title).strand stem = session.strand stem := by
  apply Strand.ext
  · show (session.registries.modify _ _).map _ = session.registries.map _
    refine map_modify_of_same (fun registry => ?_) _ _
    rw [part_advance, if_neg (Ne.symm apart)]
  · show (session.titles ++ [title]).filter _ = session.titles.filter _
    rw [List.filter_append, List.filter_singleton]
    simp [apart]
  · rfl
  · rfl

theorem strand_enroll (number table : Nat) (title : Title) (key : Key) (ref : Ref)
    (value : Value) :
    (session.enroll number table title key ref value).strand title.stem =
      (session.strand title.stem).enroll number table title key ref value := by
  apply Strand.ext
  · refine map_modify (fun registry => ?_) _ _
    rw [part_record, if_pos rfl]
  · rfl
  · funext other
    show (if _ then if _ then _ else _ else none) = if _ then _ else if _ then _ else none
    by_cases same : other = title
    · simp [same]
      rfl
    · simp [same]
  · funext other
    show (if other = table then _ else _ : Table).column _ = if other = table then _ else _
    split
    · rw [Table.column_push, if_pos rfl]
      rfl
    · rfl

theorem strand_enroll_of_ne (number table : Nat) {title : Title} (key : Key) (ref : Ref)
    (value : Value) {stem : String} (apart : title.stem ≠ stem) :
    (session.enroll number table title key ref value).strand stem = session.strand stem := by
  apply Strand.ext
  · show (session.registries.modify _ _).map _ = session.registries.map _
    refine map_modify_of_same (fun registry => ?_) _ _
    rw [part_record, if_neg (Ne.symm apart)]
  · rfl
  · funext other
    show (if _ then if _ then _ else _ else none) = if _ then _ else none
    by_cases same : other = title
    · simp [same, apart]
    · simp [same]
  · funext other
    show (if other = table then _ else _ : Table).column _ = (session.table other).column _
    split
    · rename_i ours
      rw [Table.column_push, if_neg (Ne.symm apart), ours]
    · rfl

end Strands

namespace Session

variable {session other : Session} {stem : String}

/-- Strands that are equal have equal parts. -/
theorem part_eq (strands : session.strand stem = other.strand stem) {number : Nat}
    {registry registry' : Registry} (here : session.registries[number]? = some registry)
    (here' : other.registries[number]? = some registry') :
    registry.part stem = registry'.part stem := by
  have parts := congrArg (fun strand : Strand => strand.registries[number]?) strands
  simp only [strand, List.getElem?_map, here, here', Option.map_some] at parts
  exact Option.some.inj parts

/-- A registry is in both sessions or in none. -/
theorem getElem?_cases (strands : session.strand stem = other.strand stem) (number : Nat) :
    (session.registries[number]? = none ∧ other.registries[number]? = none) ∨
      ∃ registry registry', session.registries[number]? = some registry ∧
        other.registries[number]? = some registry' := by
  have parts := congrArg (fun strand : Strand => strand.registries[number]?) strands
  simp only [strand, List.getElem?_map] at parts
  cases here : session.registries[number]? with
  | none =>
      rw [here] at parts
      exact .inl ⟨rfl, Option.map_eq_none_iff.mp parts.symm⟩
  | some registry =>
      rw [here] at parts
      obtain ⟨registry', here', -⟩ := Option.map_eq_some_iff.mp parts.symm
      exact .inr ⟨registry, registry', rfl, here'⟩

theorem binding?_eq (strands : session.strand stem = other.strand stem) {title : Title}
    (ours : title.stem = stem) : session.binding? title = other.binding? title := by
  have bindings := congrArg (fun strand : Strand => strand.binding? title) strands
  simpa [strand, ours] using bindings

theorem mem_titles_iff (strands : session.strand stem = other.strand stem) {title : Title}
    (ours : title.stem = stem) : title ∈ session.titles ↔ title ∈ other.titles := by
  have titles := congrArg (fun strand : Strand => title ∈ strand.titles) strands
  simpa [strand, ours] using titles

/-- **A verdict** depends on the strand of the request's stem only. -/
theorem judge_eq {request : Request Title}
    (strands : session.strand (request.stem Title.stem) = other.strand (request.stem Title.stem))
    {number : Nat} {registry registry' : Registry}
    (here : session.registries[number]? = some registry)
    (here' : other.registries[number]? = some registry') :
    request.judge (session.outlook registry) = request.judge (other.outlook registry') := by
  have parts := part_eq strands here here'
  have agree : Outlook.Agree id (session.outlook registry) (other.outlook registry') request := by
    refine ⟨?_, fun key => ?_, fun title value isName => ⟨?_, rfl, rfl⟩⟩
    · exact congrArg (fun part : Part => part.next?.isSome || part.scope.permits _) parts.symm
    · rw [Option.map_id]
      exact congrArg (fun part : Part => part.group.get? key) parts.symm
    · subst isName
      show (if _ then _ else _) = if _ then _ else _
      simp only [mem_titles_iff strands rfl, binding?_eq strands rfl, id_eq]
  have judged := Request.judge_map agree
  rw [Request.map_id, Verdict.map_id] at judged
  exact judged.symm

theorem strand_issue_congr {title : Title}
    (strands : session.strand title.stem = other.strand title.stem) (number : Nat) :
    (session.issue number title).strand title.stem =
      (other.issue number title).strand title.stem := by
  rw [strand_issue, strand_issue, strands]

theorem strand_enroll_congr {title : Title}
    (strands : session.strand title.stem = other.strand title.stem) (number table : Nat)
    (key : Key) (ref : Ref) (value : Value) :
    (session.enroll number table title key ref value).strand title.stem =
      (other.enroll number table title key ref value).strand title.stem := by
  rw [strand_enroll, strand_enroll, strands]

/-- What a verdict does to the strand of its stem depends on this strand only. -/
theorem carryOut_eq (strands : session.strand stem = other.strand stem) {number : Nat}
    {registry registry' : Registry} (here : session.registries[number]? = some registry)
    (here' : other.registries[number]? = some registry') {verdict : Verdict Title}
    {outlook : Outlook Title} (stems : outlook.stem = Title.stem)
    (fits : verdict.Fits outlook stem) :
    (session.carryOut number registry verdict).1 = (other.carryOut number registry' verdict).1 ∧
      (session.carryOut number registry verdict).2.strand stem =
        (other.carryOut number registry' verdict).2.strand stem := by
  have parts := part_eq strands here here'
  have tables : registry.table = registry'.table := congrArg Part.table parts
  have titles : registry.nextTitle number stem = registry'.nextTitle number stem :=
    congrArg (fun part : Part => Title.mk number
      (Allocator.identAt stem (part.next?.getD 0)) stem) parts
  cases verdict with
  | reply answer => exact ⟨rfl, strands⟩
  | issue asked =>
      obtain ⟨rfl, -⟩ := fits
      refine ⟨congrArg Reply.name titles, ?_⟩
      simp only [carryOut, titles]
      exact strand_issue_congr strands number
  | enter asked key ref value =>
      obtain ⟨rfl, -⟩ := fits
      refine ⟨congrArg Reply.name titles, ?_⟩
      simp only [carryOut, titles, tables]
      exact strand_enroll_congr (strand_issue_congr strands number) number _ key ref value
  | enroll title key ref value =>
      obtain ⟨ours, -⟩ := fits
      rw [stems] at ours
      subst ours
      refine ⟨rfl, ?_⟩
      simp only [carryOut, tables]
      exact strand_enroll_congr strands number _ key ref value

/-- A verdict for one stem leaves the strands of all others alone. -/
theorem strand_carryOut_of_ne (number : Nat) (registry : Registry) {verdict : Verdict Title}
    {outlook : Outlook Title} (stems : outlook.stem = Title.stem) {asked : String}
    (fits : verdict.Fits outlook asked) (apart : asked ≠ stem) :
    (session.carryOut number registry verdict).2.strand stem = session.strand stem := by
  cases verdict with
  | reply answer => rfl
  | issue asked =>
      obtain ⟨rfl, -⟩ := fits
      exact strand_issue_of_ne session number apart
  | enter asked key ref value =>
      obtain ⟨rfl, -⟩ := fits
      exact (strand_enroll_of_ne _ number _ key ref value apart).trans
        (strand_issue_of_ne session number apart)
  | enroll title key ref value =>
      obtain ⟨ours, -⟩ := fits
      rw [stems] at ours
      exact strand_enroll_of_ne session number _ key ref value (ours ▸ apart)

/-! ### Instructions -/

theorem concerns_ask_iff {number : Nat} {request : Request Title} :
    (Instruction.ask number request).concerns stem = true ↔ request.stem Title.stem = stem :=
  decide_eq_true_iff

/-- **What concerns a stem** depends on its strand only. -/
theorem perform_of_concerned (strands : session.strand stem = other.strand stem)
    {instruction : Instruction} (concerned : instruction.concerns stem = true) :
    (session.perform instruction).1 = (other.perform instruction).1 ∧
      (session.perform instruction).2.strand stem =
        (other.perform instruction).2.strand stem := by
  cases instruction with
  | openRegistry table scope style =>
      have parts := congrArg Strand.registries strands
      refine ⟨?_, ?_⟩
      · have counts := congrArg List.length parts
        simp only [strand, List.length_map] at counts
        exact congrArg Reply.opened counts
      · apply Strand.ext
        · show (session.registries ++ [_]).map _ = (other.registries ++ [_]).map _
          rw [List.map_append, List.map_append]
          exact congrArg (· ++ _) parts
        · have titles := congrArg Strand.titles strands
          exact titles
        · have bindings := congrArg Strand.binding? strands
          exact bindings
        · have columns := congrArg Strand.column strands
          exact columns
  | ask number request =>
      obtain rfl := concerns_ask_iff.mp concerned
      obtain ⟨here, here'⟩ | ⟨registry, registry', here, here'⟩ := getElem?_cases strands number
      · rw [perform_ask_of_none session here, perform_ask_of_none other here']
        exact ⟨rfl, strands⟩
      · rw [perform_ask session here, perform_ask other here', judge_eq strands here here']
        exact carryOut_eq strands here here' rfl (Request.fits_judge _ request)

/-- **What does not concern a stem** leaves its strand alone. -/
theorem strand_perform_of_apart {instruction : Instruction}
    (apart : instruction.concerns stem = false) :
    (session.perform instruction).2.strand stem = session.strand stem := by
  cases instruction with
  | openRegistry table scope style =>
      exact absurd apart (by simp [Instruction.concerns, Instruction.stem?])
  | ask number request =>
      have ne : request.stem Title.stem ≠ stem := decide_eq_false_iff_not.mp apart
      cases here : session.registries[number]? with
      | none => rw [perform_ask_of_none session here]
      | some registry =>
          rw [perform_ask session here]
          exact strand_carryOut_of_ne number registry rfl (Request.fits_judge _ _) ne

end Session

end Titled

end NameScope
