import Mathlib.Logic.Relation
import NameScope.Session
import NameScope.Proofs.Registration

/-!
# The changes of a session

Whatever an operation is and however it ends, it changes a session by steps of
four kinds only (`Change`): something is opened or an allocator that stands alone
moves on, a registry opens, a registry gives out a name, or a registry binds a
name. `Session.run_changes` says so of whole runs; `Session.run_induction` is the
induction over them, which the invariants of sessions are proved by.
-/

namespace NameScope

namespace Session

/-- The session with the desk of a registry put back. -/
def put (session : Session) (number : Nat) (desk : Desk) : Session :=
  { session with
    ledger := desk.ledger, registries := session.registries.set number desk.registry }

/-- The desk of a registry. -/
def desk (session : Session) (registry : Registry) : Desk := ⟨session.ledger, registry⟩

@[simp] theorem desk_ledger (session : Session) (registry : Registry) :
    (session.desk registry).ledger = session.ledger := rfl

@[simp] theorem desk_registry (session : Session) (registry : Registry) :
    (session.desk registry).registry = registry := rfl

@[simp] theorem put_ledger (session : Session) (number : Nat) (desk : Desk) :
    (session.put number desk).ledger = desk.ledger := rfl

/-- One change of a session. -/
inductive Change (session : Session) : Session → Prop
  /-- An allocator that stands alone is opened or used, or a table is opened. -/
  | tools (allocators : List Allocator) (tables : Nat) :
      Change session { session with allocators, tables }
  | opened (scope : Scope) (table : Nat) (style : Style) :
      Change session { session with
        registries := session.registries ++ [{ allocator := { scope }, table, style }] }
  | issued {number : Nat} {registry : Registry} (stem : String) :
      session.registries[number]? = some registry →
      registry.allocator.admits stem = true →
      Change session (session.put number ((session.desk registry).issue stem))
  | enrolled {number : Nat} {registry : Registry} {handle : Handle} {value : Value} {ref : Ref} :
      session.registries[number]? = some registry →
      handle ∈ session.ledger.handles →
      session.ledger.binding? handle = none →
      value.ref? = some ref →
      registry.find? handle.stem (value.key?.getD (.ref ref)) = none →
      Change session (session.put number
        ((session.desk registry).enroll handle (value.key?.getD (.ref ref)) ref value))

/-- Any number of changes. -/
abbrev Changes : Session → Session → Prop := Relation.ReflTransGen Change

variable {session : Session} {number : Nat} {registry : Registry}

/-- Putting back a desk that has not changed changes nothing. -/
theorem put_desk (here : session.registries[number]? = some registry) :
    session.put number (session.desk registry) = session := by
  obtain ⟨inside, rfl⟩ := List.getElem?_eq_some_iff.mp here
  unfold put desk
  rw [List.set_getElem_self]

theorem getElem?_put_self (here : session.registries[number]? = some registry) (desk : Desk) :
    (session.put number desk).registries[number]? = some desk.registry :=
  List.getElem?_set_self (List.getElem?_eq_some_iff.mp here).1

theorem put_put (desk other : Desk) :
    (session.put number desk).put number other = session.put number other := by
  unfold put
  rw [List.set_set]

/-- What a desk that worked answers, and the session with it put back. -/
def answer (session : Session) (number : Nat) :
    EStateM.Result Fault Desk Handle → Outcome × Session
  | .ok handle desk => (.name handle, session.put number desk)
  | .error fault desk => (.failed fault, session.put number desk)

theorem atDesk_eq (here : session.registries[number]? = some registry)
    (work : Registering Handle) :
    session.atDesk number work = session.answer number (work.run (session.desk registry)) := by
  unfold atDesk
  rw [here]
  rfl

theorem atDesk_of_none (absent : session.registries[number]? = none)
    (work : Registering Handle) : session.atDesk number work = (.unknown, session) := by
  unfold atDesk
  rw [absent]

/-- A registry that is asked for a name gives one out, or refuses and nothing changes. -/
theorem perform_newName (here : session.registries[number]? = some registry) (stem : String) :
    session.perform (.newName number stem) =
      if registry.allocator.admits stem then
        (.name ((session.desk registry).nextHandle stem),
          session.put number ((session.desk registry).issue stem))
      else (.failed (.stemRefused stem), session) := by
  show session.atDesk number (Registering.newName stem) = _
  rw [atDesk_eq here, Registering.run_newName, desk_registry]
  split
  · rfl
  · show (_, session.put number (session.desk registry)) = _
    rw [put_desk here]

/-! ## Soundness of the ledger -/

theorem Change.sound {later : Session} (change : Change session later)
    (sound : session.ledger.Sound) : later.ledger.Sound := by
  cases change with
  | tools allocators tables => exact sound
  | opened scope table style => exact sound
  | issued stem here admitted =>
      refine ⟨?_, fun handle binding bound => ?_⟩
      · simp only [put, desk, Desk.issue, Desk.nextHandle, List.map_append, sound.numbered,
          List.length_append, List.length_singleton, List.map_singleton, List.range_succ]
      · exact List.mem_append_left _ (sound.issued handle binding bound)
  | enrolled here given unbound present vacant =>
      refine ⟨sound.numbered, fun other binding bound => ?_⟩
      simp only [put, desk, Desk.enroll, Ledger.binding?_bind] at bound
      split at bound
      · rename_i same
        exact same ▸ given
      · exact sound.issued other binding bound

theorem sound_of_changes {later : Session} (changes : Changes session later)
    (sound : session.ledger.Sound) : later.ledger.Sound := by
  induction changes with
  | refl => exact sound
  | tail _ change ih => exact change.sound ih

/-! ## Operations and runs -/

/-- A registration at a desk makes changes. -/
theorem atDesk_register_changes (sound : session.ledger.Sound) (number : Nat)
    {target : Target} (value : Value)
    (given : ∀ handle, target = .name handle → handle ∈ session.ledger.handles) :
    Changes session (session.atDesk number (Registering.register target value)).2 := by
  cases here : session.registries[number]? with
  | none =>
      rw [atDesk_of_none here]
  | some registry =>
      have stays : Changes session (session.put number (session.desk registry)) := by
        rw [put_desk here]
      rw [atDesk_eq here]
      have cases := Registering.register_cases (session.desk registry) sound target value
      generalize (Registering.register target value).run (session.desk registry) = result at cases
      cases cases with
      | missingRef absent => exact stays
      | found present known => exact stays
      | refused isStem present vacant refused => exact stays
      | alreadyBound isName present vacant bound => exact stays
      | named isName present vacant unbound =>
          exact .single (.enrolled here (given _ isName) unbound present vacant)
      | @fresh ref stem isStem present vacant admitted =>
          have issued : Change session (session.put number ((session.desk registry).issue stem)) :=
            .issued stem here admitted
          have unbound : session.ledger.binding? ((session.desk registry).nextHandle stem) = none :=
            sound.binding?_next rfl
          have among : (session.desk registry).nextHandle stem ∈
              ((session.desk registry).issue stem).ledger.handles :=
            List.mem_append_right _ (List.mem_singleton.mpr rfl)
          have here' := getElem?_put_self here ((session.desk registry).issue stem)
          have enrolled := Change.enrolled here' among unbound present vacant
          rw [put_put] at enrolled
          exact .tail (.single issued) enrolled

/-- Whatever an operation is and however it ends, it makes changes. -/
theorem perform_changes (sound : session.ledger.Sound) (operation : Operation) :
    Changes session (session.perform operation).2 := by
  cases operation with
  | openAllocator scope => exact .single (.tools _ _)
  | openTable => exact .single (.tools _ _)
  | openRegistry table scope style => exact .single (.opened scope table style)
  | allocate number request =>
      show Changes session (session.atAllocator number (Allocator.provide request)).2
      unfold atAllocator
      cases session.allocators[number]? with
      | none => exact .refl
      | some allocator =>
          simp only
          cases Allocator.provide request allocator with
          | ok ident allocator => exact .single (.tools _ _)
          | error fault allocator => exact .single (.tools _ _)
  | newName number stem =>
      cases here : session.registries[number]? with
      | none =>
          show Changes session (session.atDesk number (Registering.newName stem)).2
          rw [atDesk_of_none here]
      | some registry =>
          rw [perform_newName here]
          split
          · rename_i admitted
            exact .single (.issued stem here admitted)
          · exact .refl
  | registerNew number stem value =>
      exact atDesk_register_changes sound number value (fun _ isName => by cases isName)
  | registerName number place value =>
      unfold perform
      cases found : session.ledger.handles[place]? with
      | none => simp only [found]; exact .refl
      | some handle =>
          simp only [found]
          refine atDesk_register_changes sound number value (fun other isName => ?_)
          cases isName
          exact List.mem_of_getElem? found
  | find number stem key =>
      unfold perform
      cases here : session.registries[number]? with
      | none => simp only [here]; exact .refl
      | some registry => simp only [here]; exact .refl

/-- Operations are carried out on what earlier ones have left. -/
theorem run_append_snd (session : Session) (operations rest : List Operation) :
    (session.run (operations ++ rest)).2 = ((session.run operations).2.run rest).2 := by
  induction operations generalizing session with
  | nil => rfl
  | cons operation operations ih => exact ih (session.perform operation).2

theorem sound_empty : ({} : Session).ledger.Sound :=
  ⟨rfl, fun handle binding bound => by cases bound⟩

/-- A run makes changes. -/
theorem run_changes (sound : session.ledger.Sound) (operations : List Operation) :
    Changes session (session.run operations).2 := by
  induction operations generalizing session with
  | nil => exact .refl
  | cons operation rest ih =>
      have first := perform_changes sound operation
      exact first.trans (ih (sound_of_changes first sound))

/-- The ledger of every session that a run leads to is sound. -/
theorem sound_run (operations : List Operation) : (run {} operations).2.ledger.Sound :=
  sound_of_changes (run_changes sound_empty operations) sound_empty

/-- What holds of the empty session and is kept by every change of a session with
a sound ledger holds after every run. -/
theorem run_induction {P : Session → Prop} (empty : P {})
    (change : ∀ {session later : Session}, session.ledger.Sound → P session →
      Change session later → P later) (operations : List Operation) :
    P (run {} operations).2 := by
  have changes := run_changes sound_empty operations
  generalize (run {} operations).2 = later at changes
  induction changes with
  | refl => exact empty
  | tail before last ih => exact change (sound_of_changes before sound_empty) ih last

end Session

end NameScope
