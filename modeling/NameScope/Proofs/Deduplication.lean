import NameScope.Proofs.Outcome

/-!
# A key keeps its name

The first registration that succeeds under a stem with a key decides the name of the
key for as long as the registry exists. `Session.entries` lists the registrations of a
run that succeed, and `Session.find?_run` says that a lookup finds the first of them
that fits, whatever else happens in between. A registration with a key that is known
answers the name it has and changes nothing (`Session.perform_of_found`).
-/

namespace NameScope

/-- A registration looks up the key that the value shows. -/
theorem Value.dedupKey?_of_ref {value : Value} {ref : Ref} (present : value.ref? = some ref) :
    value.dedupKey? = some (value.key?.getD (.ref ref)) := by
  unfold dedupKey?
  rw [present]
  cases value.key? with
  | none => rfl
  | some key => rfl

namespace Session

/-- A registration that succeeded: where and under what, and the name it answered. -/
structure Entry where
  registry : Nat
  stem : String
  key : Key
  name : Handle
deriving DecidableEq

/-- Whether the value was registered there, under this stem and key. -/
def Entry.fits (entry : Entry) (number : Nat) (stem : String) (key : Key) : Bool :=
  entry.registry = number && entry.stem = stem && entry.key = key

/-- The registration that an operation makes, if it makes one and succeeds. -/
def entry? (session : Session) (operation : Operation) : Option Entry := do
  let submission ← session.submission? operation
  let name ← (session.perform operation).1.name?
  let key ← submission.value.dedupKey?
  return ⟨submission.registry, submission.target.effectiveStem, key, name⟩

/-- The registrations that succeed in the course of operations, oldest first. -/
def entries (session : Session) : List Operation → List Entry
  | [] => []
  | operation :: rest =>
    (session.entry? operation).toList ++ (session.perform operation).2.entries rest

/-- The name that a registry finds under a stem for a key. -/
def find? (session : Session) (number : Nat) (stem : String) (key : Key) : Option Handle :=
  session.registries[number]?.bind (·.find? stem key)

variable {session : Session} {number : Nat} {registry : Registry}

theorem find?_of_some (here : session.registries[number]? = some registry) (stem : String)
    (key : Key) : session.find? number stem key = registry.find? stem key := by
  unfold find?
  rw [here]
  rfl

theorem find?_put (here : session.registries[number]? = some registry) (desk : Desk)
    (other : Nat) (stem : String) (key : Key) :
    (session.put number desk).find? other stem key =
      if other = number then desk.registry.find? stem key else session.find? other stem key := by
  unfold find?
  rw [getElem?_put here]
  split <;> rfl

/-- A registry that has just been opened finds nothing. -/
theorem find?_opened (scope : Scope) (table : Nat) (style : Style) (stem : String) (key : Key) :
    find? { session with
      registries := session.registries ++ [{ allocator := { scope }, table, style }] }
      number stem key = session.find? number stem key := by
  unfold find?
  rw [getElem?_opened]
  split
  · rename_i new
    rw [new, List.getElem?_eq_none (Nat.le_refl _)]
    rfl
  · rfl

/-- Binding a name makes it the one that is found for its key, where none was. -/
theorem find?_put_enroll (here : session.registries[number]? = some registry) {desk : Desk}
    (same : desk.registry.bound = registry.bound) {handle : Handle} {key : Key} (ref : Ref)
    (value : Value) (vacant : registry.find? handle.stem key = none)
    (other : Nat) (stem : String) (question : Key) :
    (session.put number (desk.enroll handle key ref value)).find? other stem question =
      (session.find? other stem question).or
        (if number = other ∧ handle.stem = stem ∧ key = question then some handle else none) := by
  have before : ∀ stem key, desk.registry.find? stem key = registry.find? stem key := by
    intro stem key
    unfold Registry.find? Registry.group
    rw [same]
  rw [find?_put here]
  -- the registry that binds the name, or one that is left alone
  by_cases ours : other = number
  · rw [if_pos ours, ours]
    show (desk.registry.record handle.stem key handle).find? stem question = _
    rw [Registry.find?_record, before, find?_of_some here]
    by_cases asked : stem = handle.stem ∧ question = key
    · obtain ⟨rfl, rfl⟩ := asked
      rw [vacant]
      simp
    · have unasked : ¬ (handle.stem = stem ∧ key = question) := fun both =>
        asked ⟨both.1.symm, both.2.symm⟩
      simp [asked, unasked]
  · simp [ours, Ne.symm ours]

/-- What a registration enters, if it answers a name. -/
theorem entry?_of_submission {operation : Operation} {submission : Submission} {ref : Ref}
    {handle : Handle} (submitted : session.submission? operation = some submission)
    (present : submission.value.ref? = some ref)
    (answered : (session.perform operation).1 = .name handle) :
    session.entry? operation = some ⟨submission.registry, submission.target.effectiveStem,
      submission.value.key?.getD (.ref ref), handle⟩ := by
  unfold entry?
  rw [submitted, answered]
  show submission.value.dedupKey?.bind _ = _
  rw [Value.dedupKey?_of_ref present]
  rfl

theorem entry?_of_nameless {operation : Operation}
    (nameless : (session.perform operation).1.name? = none) : session.entry? operation = none := by
  unfold entry?
  rw [nameless]
  cases session.submission? operation with
  | none => rfl
  | some submission => rfl

theorem entry?_of_unsubmitted {operation : Operation}
    (unsubmitted : session.submission? operation = none) : session.entry? operation = none := by
  unfold entry?
  rw [unsubmitted]
  rfl

/-- The name that an entry gives, if it is asked for. -/
private theorem find?_fits (entry : Entry) (number : Nat) (stem : String) (key : Key) :
    ((some entry).toList.find? (·.fits number stem key)).map Entry.name =
      if entry.registry = number ∧ entry.stem = stem ∧ entry.key = key then some entry.name
      else none := by
  unfold Entry.fits
  by_cases fits : entry.registry = number ∧ entry.stem = stem ∧ entry.key = key
  · simp [fits]
  · rw [if_neg fits]
    simp only [Option.toList_some, Option.map_eq_none_iff, List.find?_eq_none,
      List.mem_singleton, forall_eq]
    simpa [and_assoc] using fits

/-- **One operation.** A lookup that found a name goes on to find it, and one that
found none finds what the operation has registered. -/
theorem find?_perform (sound : session.ledger.Sound) (operation : Operation) (number : Nat)
    (stem : String) (key : Key) :
    (session.perform operation).2.find? number stem key =
      (session.find? number stem key).or
        (((session.entry? operation).toList.find? (·.fits number stem key)).map Entry.name) := by
  have cases := perform_cases sound operation
  have entered := @entry?_of_submission session operation
  have nameless := @entry?_of_nameless session operation
  have unsubmitted := @entry?_of_unsubmitted session operation
  generalize session.entry? operation = entry at entered nameless unsubmitted ⊢
  generalize (session.perform operation).1 = outcome at cases entered nameless
  generalize (session.perform operation).2 = later at cases ⊢
  cases cases with
  | aside allocators tables none =>
      rw [nameless none]
      exact (Option.or_none).symm
  | opened scope table style =>
      rw [nameless rfl, find?_opened]
      exact (Option.or_none).symm
  | @issued place registry fresh isNew here admitted =>
      rw [unsubmitted (isNew ▸ rfl), find?_put here]
      split
      · rename_i same
        subst same
        rw [find?_of_some here]
        exact (Option.or_none).symm
      · exact (Option.or_none).symm
  | @found submission registry ref handle submitted here present known =>
      -- the entry repeats what the lookup finds already
      rw [entered submitted present rfl, find?_fits]
      split
      · rename_i asked
        obtain ⟨rfl, rfl, rfl⟩ := asked
        rw [find?_of_some here, known]
        rfl
      · exact (Option.or_none).symm
  | fresh submitted here present vacant admitted =>
      rw [entered submitted present rfl, find?_fits, find?_put_enroll here rfl _ _ vacant]
      rfl
  | named submitted here present vacant unbound =>
      rw [entered submitted present rfl, find?_fits, find?_put_enroll here rfl _ _ vacant]
      rfl

/-- **A run.** A lookup finds what it found before, or else the name of the first
registration that fits. -/
theorem find?_run (sound : session.ledger.Sound) (operations : List Operation) (number : Nat)
    (stem : String) (key : Key) :
    (session.run operations).2.find? number stem key =
      (session.find? number stem key).or
        (((session.entries operations).find? (·.fits number stem key)).map Entry.name) := by
  induction operations generalizing session with
  | nil => exact (Option.or_none).symm
  | cons operation rest ih =>
      have later := ih (sound_of_changes (perform_changes sound operation) sound)
      show (Session.run (session.perform operation).2 rest).2.find? number stem key = _
      rw [later, find?_perform sound, entries, List.find?_append, Option.map_or, Option.or_assoc]

/-- A name that is found is found ever after. -/
theorem find?_run_of_some (sound : session.ledger.Sound) {stem : String} {key : Key}
    {name : Handle} (found : session.find? number stem key = some name)
    (operations : List Operation) :
    (session.run operations).2.find? number stem key = some name := by
  rw [find?_run sound, found]
  rfl

/-- A registration with a key that is known changes nothing. -/
theorem perform_of_found {operation : Operation} {submission : Submission} {key : Key}
    {name : Handle} (submitted : session.submission? operation = some submission)
    (present : submission.value.ref? ≠ none) (hasKey : submission.value.dedupKey? = some key)
    (found : session.find? submission.registry submission.target.effectiveStem key = some name) :
    session.perform operation = (.name name, session) := by
  obtain ⟨registry, here, known⟩ := Option.bind_eq_some_iff.mp found
  obtain ⟨ref, present⟩ := Option.ne_none_iff_exists'.mp present
  rw [Value.dedupKey?_of_ref present] at hasKey
  rw [← Option.some.inj hasKey] at known
  rw [perform_of_submission submitted, atDesk_eq here]
  have unchanged : (Registering.register submission.target submission.value).run
      (session.desk registry) = .ok name (session.desk registry) := by
    unfold Registering.register
    rw [present]
    simp only [EStateM.run_bind, EStateM.run_get, desk_registry, known]
    rfl
  rw [unchanged]
  show (Outcome.name name, session.put submission.registry (session.desk registry)) = _
  rw [put_desk here]

/-- **A key keeps its name.** At every point of every run, what a registry finds under
a stem for a key is the name that its first successful registration under this stem
with this key answered; it finds none if there was no such registration. From then on
every registration under the stem of a value with a reference and this key answers
this name, whatever its target is, and leaves the session as it is. -/
theorem name_of_first_registration (before after : List Operation) (number : Nat)
    (stem : String) (key : Key) :
    let session := (run {} before).2
    let later := (session.run after).2
    session.find? number stem key =
      ((entries {} before).find? (·.fits number stem key)).map Entry.name ∧
    (∀ registry, session.registries[number]? = some registry →
      session.perform (.find number stem key) =
        (.found (session.find? number stem key), session)) ∧
    ∀ name, session.find? number stem key = some name →
      (∀ value : Value, value.ref? ≠ none → value.dedupKey? = some key →
        later.perform (.registerNew number stem value) = (.name name, later) ∧
        ∀ place target, later.ledger.handles[place]? = some target → target.stem = stem →
          later.perform (.registerName number place value) = (.name name, later)) := by
  intro session later
  have sound : session.ledger.Sound := sound_run before
  refine ⟨?_, ?_, ?_⟩
  · have first := find?_run sound_empty before number stem key
    rw [first]
    rfl
  · intro registry here
    simp only [perform, here]
    unfold find?
    rw [here]
    rfl
  intro name found value present hasKey
  have still : later.find? number stem key = some name := find?_run_of_some sound found after
  have atStem : later.submission? (.registerNew number stem value) =
      some ⟨number, .stem stem, value⟩ := rfl
  refine ⟨perform_of_found atStem present hasKey still, ?_⟩
  intro place target there ofStem
  have atName : later.submission? (.registerName number place value) =
      some ⟨number, .name target, value⟩ := by
    show later.ledger.handles[place]?.map _ = _
    rw [there]
    rfl
  subst ofStem
  exact perform_of_found atName present hasKey still

end Session

end NameScope
