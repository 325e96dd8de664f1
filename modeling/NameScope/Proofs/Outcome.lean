import NameScope.Proofs.Change

/-!
# What an operation answers and leaves behind

`Session.perform_cases` lists what an operation can come to: it leaves the registries
alone and answers no name, it opens a registry, it gives out a name, or it registers
a value, which ends with a name that was found, given out and bound, or bound alone.
Each case says what the operation asked for, what it answers and the session that it
leaves, so that an invariant about answers is shown by going through the cases.
-/

namespace NameScope

/-- The name that is answered, if one is. -/
def Outcome.name? : Outcome → Option Handle
  | .name handle => some handle
  | _ => none

namespace Session

/-- A value that is handed to a registry, and what it is to be bound to. -/
structure Submission where
  registry : Nat
  target : Target
  value : Value

/-- What an operation hands to a registry, if it is a registration and the name that
it may be for exists. -/
def submission? (session : Session) : Operation → Option Submission
  | .registerNew number stem value => some ⟨number, .stem stem, value⟩
  | .registerName number place value =>
    session.ledger.handles[place]?.map fun handle => ⟨number, .name handle, value⟩
  | _ => none

/-- What an operation can come to. -/
inductive Performed (session : Session) (operation : Operation) : Outcome → Session → Prop
  /-- No registry changes and none answers a name. -/
  | aside {outcome : Outcome} (allocators : List Allocator) (tables : Nat) :
      outcome.name? = none →
      Performed session operation outcome { session with allocators, tables }
  | opened {number : Nat} (scope : Scope) (table : Nat) (style : Style) :
      operation = .openRegistry table scope style →
      Performed session operation (.opened number) { session with
        registries := session.registries ++ [{ allocator := { scope }, table, style }] }
  | issued {number : Nat} {registry : Registry} {stem : String} :
      operation = .newName number stem →
      session.registries[number]? = some registry →
      registry.allocator.admits stem = true →
      Performed session operation (.name ((session.desk registry).nextHandle stem))
        (session.put number ((session.desk registry).issue stem))
  | found {submission : Submission} {registry : Registry} {ref : Ref} {handle : Handle} :
      session.submission? operation = some submission →
      session.registries[submission.registry]? = some registry →
      submission.value.ref? = some ref →
      registry.find? submission.target.effectiveStem
        (submission.value.key?.getD (.ref ref)) = some handle →
      Performed session operation (.name handle) session
  | fresh {number : Nat} {stem : String} {value : Value} {registry : Registry} {ref : Ref} :
      session.submission? operation = some ⟨number, .stem stem, value⟩ →
      session.registries[number]? = some registry →
      value.ref? = some ref →
      registry.find? stem (value.key?.getD (.ref ref)) = none →
      registry.allocator.admits stem = true →
      Performed session operation (.name ((session.desk registry).nextHandle stem))
        (session.put number (((session.desk registry).issue stem).enroll
          ((session.desk registry).nextHandle stem) (value.key?.getD (.ref ref)) ref value))
  | named {number : Nat} {handle : Handle} {value : Value} {registry : Registry} {ref : Ref} :
      session.submission? operation = some ⟨number, .name handle, value⟩ →
      session.registries[number]? = some registry →
      value.ref? = some ref →
      registry.find? handle.stem (value.key?.getD (.ref ref)) = none →
      session.ledger.binding? handle = none →
      Performed session operation (.name handle)
        (session.put number
          ((session.desk registry).enroll handle (value.key?.getD (.ref ref)) ref value))

variable {session : Session} {operation : Operation}

/-! ## The registries afterwards -/

/-- Putting back a desk changes one registry. -/
theorem getElem?_put {number : Nat} {registry : Registry}
    (here : session.registries[number]? = some registry) (desk : Desk) (other : Nat) :
    (session.put number desk).registries[other]? =
      if other = number then some desk.registry else session.registries[other]? := by
  by_cases same : other = number
  · rw [if_pos same, same, getElem?_put_self here]
  · rw [if_neg same]
    unfold put
    rw [List.getElem?_set_ne (Ne.symm same)]

/-- What is opened gets the next number. -/
theorem getElem?_opened {α : Type} (opened : List α) (item : α) (number : Nat) :
    (opened ++ [item])[number]? =
      if number = opened.length then some item else opened[number]? := by
  by_cases new : number = opened.length
  · rw [if_pos new, new, List.getElem?_concat_length]
  · rw [if_neg new, List.getElem?_append]
    split
    · rfl
    · rw [List.getElem?_eq_none (by simp; omega), List.getElem?_eq_none (by omega)]

/-! ## Operations -/

/-- Nothing happens, and no name is answered. -/
theorem Performed.idle {outcome : Outcome} (nameless : outcome.name? = none) :
    Performed session operation outcome session :=
  .aside session.allocators session.tables nameless

/-- A registration is carried out at the desk of its registry. -/
theorem perform_of_submission {submission : Submission}
    (submitted : session.submission? operation = some submission) :
    session.perform operation = session.atDesk submission.registry
      (Registering.register submission.target submission.value) := by
  cases operation with
  | registerNew number stem value =>
      obtain rfl : ⟨number, .stem stem, value⟩ = submission := Option.some.inj submitted
      rfl
  | registerName number place value =>
      unfold submission? at submitted
      obtain ⟨handle, there, rfl⟩ := Option.map_eq_some_iff.mp submitted
      simp only [perform, there]
  | _ => exact absurd submitted (by simp [submission?])

theorem perform_cases_of_submission (sound : session.ledger.Sound) {submission : Submission}
    (submitted : session.submission? operation = some submission) :
    Performed session operation (session.perform operation).1 (session.perform operation).2 := by
  rw [perform_of_submission submitted]
  obtain ⟨number, target, value⟩ := submission
  cases here : session.registries[number]? with
  | none =>
      rw [atDesk_of_none here]
      exact .idle rfl
  | some registry =>
      rw [atDesk_eq here]
      -- a registration that fails has not touched the desk
      have stays : ∀ fault, Performed session operation (.failed fault)
          (session.put number (session.desk registry)) := by
        intro fault
        rw [put_desk here]
        exact .idle rfl
      have cases := Registering.register_cases (session.desk registry) sound target value
      generalize (Registering.register target value).run (session.desk registry) = result at cases
      cases cases with
      | missingRef absent => exact stays _
      | refused isStem present vacant refused => exact stays _
      | alreadyBound isName present vacant bound => exact stays _
      | found present known =>
          show Performed session operation _ (session.put number (session.desk registry))
          rw [put_desk here]
          exact .found submitted here present known
      | fresh isStem present vacant admitted =>
          exact .fresh (isStem ▸ submitted) here present vacant admitted
      | named isName present vacant unbound =>
          exact .named (isName ▸ submitted) here present vacant unbound

/-- **The cases of an operation.** -/
theorem perform_cases (sound : session.ledger.Sound) (operation : Operation) :
    Performed session operation (session.perform operation).1 (session.perform operation).2 := by
  cases submitted : session.submission? operation with
  | some submission => exact perform_cases_of_submission sound submitted
  | none =>
      cases operation with
      | openAllocator scope => exact .aside _ _ rfl
      | openTable => exact .aside _ _ rfl
      | openRegistry table scope style => exact .opened scope table style rfl
      | registerNew number stem value => exact absurd submitted (by simp [submission?])
      | registerName number place value =>
          have absent : session.ledger.handles[place]? = none := by
            simpa [submission?] using submitted
          simp only [perform, absent]
          exact .idle rfl
      | find number stem key =>
          cases here : session.registries[number]? with
          | none =>
              simp only [perform, here]
              exact .idle rfl
          | some registry =>
              simp only [perform, here]
              exact .idle rfl
      | allocate number request =>
          show Performed session _ (session.atAllocator number (Allocator.provide request)).1
            (session.atAllocator number (Allocator.provide request)).2
          unfold atAllocator
          cases session.allocators[number]? with
          | none => exact .idle rfl
          | some allocator =>
              simp only
              cases Allocator.provide request allocator with
              | ok ident allocator => exact .aside _ _ rfl
              | error fault allocator => exact .aside _ _ rfl
      | newName number stem =>
          cases here : session.registries[number]? with
          | none =>
              show Performed session _ (session.atDesk number (Registering.newName stem)).1
                (session.atDesk number (Registering.newName stem)).2
              rw [atDesk_of_none here]
              exact .idle rfl
          | some registry =>
              rw [perform_newName here]
              split
              · rename_i admitted
                exact .issued rfl here admitted
              · exact .idle rfl

end Session

end NameScope
