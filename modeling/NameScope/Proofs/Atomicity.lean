import NameScope.Proofs.Addressing
import NameScope.Proofs.Deduplication

/-!
# Registrations that fail

A registration changes a counter, a table, a binding and what a registry remembers, one
after another, with tests in between. `Registering.Registered` tells how it ends by the
state before it, and so when it fails and with which fault. Since no test fails once
something has changed, a registration that fails leaves the session as it was
(`Session.registration_fails_without_trace`).
-/

namespace NameScope

namespace Allocator

/-- A stem is refused if no name was allocated under it and the rules of scopes are
against it. -/
theorem admits_eq_false_iff {allocator : Allocator} {stem : String} :
    allocator.admits stem = false ↔ allocator.counters.get? stem = none ∧
      (allocator.scope.excludes stem = true ∨ allocator.scope.reserved stem = true) := by
  unfold admits Scope.permits
  cases allocator.counters.get? stem with
  | some index => simp
  | none =>
      cases allocator.scope.excludes stem with
      | true => simp
      | false => simp

end Allocator

namespace Registering

/-- Once a name has been found to be unbound, adding a reference and binding the name to
its slot do not fail. -/
theorem run_setBinding_of_unbound {desk : Desk} {handle : Handle} (stem : String) (ref : Ref)
    (value : Value) (unbound : desk.ledger.binding? handle = none) :
    ∃ after, (do
      let index ← pushRef stem ref
      setBinding handle ⟨value, ⟨stem, index⟩⟩).run desk = .ok () after := by
  unfold pushRef setBinding
  simp only [EStateM.run_bind, EStateM.run_get, EStateM.run_set, EStateM.run_pure,
    Ledger.binding?_push, unbound]
  exact ⟨_, rfl⟩

namespace Registered

variable {target : Target} {value : Value} {ref : Ref} {desk after : Desk}
  {result : EStateM.Result Fault Desk Handle}

/-- A registration that fails has not touched the desk. -/
theorem unchanged {fault : Fault} (cases : Registered target value desk (.error fault after)) :
    after = desk := by
  cases cases with
  | missingRef absent => rfl
  | refused isStem present vacant refused => rfl
  | alreadyBound isName present vacant bound => rfl

theorem missingRef_iff (cases : Registered target value desk result) {stem : String} :
    (∃ after, result = .error (.missingRef stem) after) ↔
      value.ref? = none ∧ stem = target.effectiveStem := by
  cases cases with
  | missingRef absent => simp [absent, eq_comm]
  | found present known => simp [present]
  | refused isStem present vacant refused => simp [present]
  | alreadyBound isName present vacant bound => simp [present]
  | fresh isStem present vacant admitted => simp [present]
  | named isName present vacant unbound => simp [present]

/-- A key that is known wins over whatever the target is. -/
theorem eq_of_known (cases : Registered target value desk result) {name : Handle}
    (present : value.ref? = some ref)
    (known : desk.registry.find? target.effectiveStem (value.key?.getD (.ref ref)) = some name) :
    result = .ok name desk := by
  cases cases with
  | missingRef absent => simp [absent] at present
  | found present' known' =>
      obtain rfl := Option.some.inj (present.symm.trans present')
      rw [Option.some.inj (known.symm.trans known')]
  | refused isStem present' vacant refused =>
      obtain rfl := Option.some.inj (present.symm.trans present')
      simp [isStem, Target.effectiveStem, vacant] at known
  | alreadyBound isName present' vacant bound =>
      obtain rfl := Option.some.inj (present.symm.trans present')
      simp [isName, Target.effectiveStem, vacant] at known
  | fresh isStem present' vacant admitted =>
      obtain rfl := Option.some.inj (present.symm.trans present')
      simp [isStem, Target.effectiveStem, vacant] at known
  | named isName present' vacant unbound =>
      obtain rfl := Option.some.inj (present.symm.trans present')
      simp [isName, Target.effectiveStem, vacant] at known

section Vacant

variable (cases : Registered target value desk result) (present : value.ref? = some ref)
  (vacant : desk.registry.find? target.effectiveStem (value.key?.getD (.ref ref)) = none)
include cases present vacant

theorem stemRefused_iff {stem : String} :
    (∃ after, result = .error (.stemRefused stem) after) ↔
      target = .stem stem ∧ desk.registry.allocator.admits stem = false := by
  cases cases with
  | missingRef absent => simp [absent] at present
  | found present' known =>
      obtain rfl := Option.some.inj (present.symm.trans present')
      simp [known] at vacant
  | refused isStem present' vacant' refused =>
      subst isStem
      constructor
      · rintro ⟨after, same⟩
        cases same
        exact ⟨rfl, refused⟩
      · rintro ⟨same, -⟩
        cases same
        exact ⟨desk, rfl⟩
  | alreadyBound isName present' vacant' bound => simp [isName]
  | fresh isStem present' vacant' admitted =>
      subst isStem
      constructor
      · rintro ⟨after, same⟩
        cases same
      · rintro ⟨same, refused⟩
        cases same
        simp [admitted] at refused
  | named isName present' vacant' unbound => simp [isName]

theorem alreadyBound_iff {text : String} :
    (∃ after, result = .error (.alreadyBound text) after) ↔ ∃ handle, target = .name handle ∧
      text = handle.text ∧ desk.ledger.binding? handle ≠ none := by
  cases cases with
  | missingRef absent => simp [absent] at present
  | found present' known =>
      obtain rfl := Option.some.inj (present.symm.trans present')
      simp [known] at vacant
  | refused isStem present' vacant' refused => simp [isStem]
  | alreadyBound isName present' vacant' bound => simp [isName, bound, eq_comm]
  | fresh isStem present' vacant' admitted => simp [isStem]
  | named isName present' vacant' unbound => simp [isName, unbound]

/-- Apart from the two faults, the value is bound to a name of the target's stem. -/
theorem bound_or_failed :
    (∃ stem, result = .error (.stemRefused stem) desk) ∨
    (∃ text, result = .error (.alreadyBound text) desk) ∨
    ∃ name after binding, result = .ok name after ∧ name.stem = target.effectiveStem ∧
      (∀ handle, target = .name handle → name = handle) ∧
      after.ledger.binding? name = some binding ∧ binding.value = value := by
  cases cases with
  | missingRef absent => simp [absent] at present
  | found present' known =>
      obtain rfl := Option.some.inj (present.symm.trans present')
      simp [known] at vacant
  | @refused _ stem isStem present' vacant' refused => exact .inl ⟨stem, rfl⟩
  | @alreadyBound _ handle _ isName present' vacant' bound => exact .inr (.inl ⟨handle.text, rfl⟩)
  | @fresh ref' stem isStem present' vacant' admitted =>
      have bound := (desk.issue stem).binding?_enroll_self (value.key?.getD (.ref ref'))
        (desk.nextHandle stem) ref' value
      exact .inr (.inr ⟨_, _, _, rfl, isStem ▸ rfl, by simp [isStem], bound, rfl⟩)
  | @named ref' handle isName present' vacant' unbound =>
      have bound := desk.binding?_enroll_self (value.key?.getD (.ref ref')) handle ref' value
      exact .inr (.inr ⟨_, _, _, rfl, isName ▸ rfl, by simp [isName], bound, rfl⟩)

end Vacant

end Registered

end Registering

namespace Session

theorem answer_eq_failed_iff {session : Session} {number : Nat} {fault : Fault}
    {result : EStateM.Result Fault Desk Handle} :
    (session.answer number result).1 = .failed fault ↔ ∃ after, result = .error fault after := by
  cases result with
  | ok handle desk => simp [answer]
  | error other desk => simp [answer]

/-- **Registrations succeed or leave no trace.** Take any state that a run leads to, any
registry, value and target, be it a stem or a name, of this registry or another, bound or
not. The registration fails for want of a reference exactly if the value has none, even if
its key is known. Otherwise a known key answers its name. Otherwise a stem is refused
exactly if nothing was allocated under it and the scope's own list leaves it out or one
around it lists it, a name is refused exactly if it is bound, and in all other cases the
value is bound, to a name of the target's stem, and to the target if this is a name. A
registration that fails leaves the session as it was: where a name is bound, it has been
tested before the reference is added, so that binding it does not fail any more. -/
theorem registration_fails_without_trace (operations : List Operation) (operation : Operation)
    (submission : Submission) (registry : Registry)
    (submitted : (run {} operations).2.submission? operation = some submission)
    (here : (run {} operations).2.registries[submission.registry]? = some registry) :
    let session := (run {} operations).2
    let outcome := (session.perform operation).1
    let later := (session.perform operation).2
    let target := submission.target
    let value := submission.value
    let known? := value.dedupKey?.bind (registry.find? target.effectiveStem)
    (∀ fault, outcome = .failed fault → later = session) ∧
    (∀ stem, outcome = .failed (.missingRef stem) ↔
      value.ref? = none ∧ stem = target.effectiveStem) ∧
    (value.ref? ≠ none →
      (∀ name, known? = some name → outcome = .name name ∧ later = session) ∧
      (known? = none →
        (∀ stem, outcome = .failed (.stemRefused stem) ↔ target = .stem stem ∧
          registry.allocator.counters.get? stem = none ∧
          (registry.allocator.scope.excludes stem = true ∨
            registry.allocator.scope.reserved stem = true)) ∧
        (∀ text, outcome = .failed (.alreadyBound text) ↔ ∃ handle, target = .name handle ∧
          text = handle.text ∧ session.ledger.binding? handle ≠ none) ∧
        ((∃ stem, outcome = .failed (.stemRefused stem)) ∨
          (∃ text, outcome = .failed (.alreadyBound text)) ∨
          ∃ name binding, outcome = .name name ∧ name.stem = target.effectiveStem ∧
            (∀ handle, target = .name handle → name = handle) ∧
            later.ledger.binding? name = some binding ∧ binding.value = value))) ∧
    ∀ handle desk, (Registering.resolve target).run (session.desk registry) = .ok handle desk →
      desk.ledger.binding? handle = none → ∀ ref, ∃ after, (do
        let index ← Registering.pushRef target.effectiveStem ref
        Registering.setBinding handle ⟨value, ⟨target.effectiveStem, index⟩⟩).run desk =
          .ok () after := by
  obtain ⟨number, target, value⟩ := submission
  intro session
  have sound : session.ledger.Sound := sound_run operations
  have cases := Registering.register_cases (session.desk registry) sound target value
  rw [perform_of_submission submitted, atDesk_eq here]
  generalize (Registering.register target value).run (session.desk registry) = result at cases
  intro outcome later
  refine ⟨?_, ?_, ?_, ?_⟩
  · intro fault failed
    obtain ⟨after, rfl⟩ := answer_eq_failed_iff.mp failed
    obtain rfl := cases.unchanged
    exact put_desk here
  · intro stem
    exact answer_eq_failed_iff.trans cases.missingRef_iff
  · intro present
    obtain ⟨ref, present⟩ := Option.ne_none_iff_exists'.mp present
    rw [Value.dedupKey?_of_ref present]
    refine ⟨?_, ?_⟩
    · intro name known
      obtain rfl := cases.eq_of_known present known
      exact ⟨rfl, put_desk here⟩
    · intro vacant
      refine ⟨fun stem => ?_, fun text => ?_, ?_⟩
      · rw [← Allocator.admits_eq_false_iff]
        exact answer_eq_failed_iff.trans (cases.stemRefused_iff present vacant)
      · exact answer_eq_failed_iff.trans (cases.alreadyBound_iff present vacant)
      · rcases cases.bound_or_failed present vacant with ⟨stem, rfl⟩ | ⟨text, rfl⟩ | bound
        · exact .inl ⟨stem, rfl⟩
        · exact .inr (.inl ⟨text, rfl⟩)
        · obtain ⟨name, after, binding, rfl, ofStem, isTarget, bound, same⟩ := bound
          exact .inr (.inr ⟨name, binding, rfl, ofStem, isTarget, bound, same⟩)
  · intro handle desk resolved unbound ref
    exact Registering.run_setBinding_of_unbound target.effectiveStem ref value unbound

/-- A registry with a list refuses a stem that it leaves out; for the same stem it could
have bound a name given out elsewhere, but this one is bound there already. -/
theorem registration_fails_without_trace_of_bound_name :
    let value (id : Nat) : Value := .inline (some ⟨id, .unit⟩)
    let operations : List Operation := [.openRegistry 0 {} {},
      .openRegistry 0 (({} : Scope).restrictTo ["q"]) {}, .registerNew 0 "p" (value 0)]
    let session := (run {} operations).2
    session.perform (.registerNew 1 "p" (value 1)) = (.failed (.stemRefused "p"), session) ∧
    session.perform (.registerName 1 0 (value 1)) = (.failed (.alreadyBound "p0"), session) := by
  intro value operations session
  let registry : Registry := session.registries[1]?.getD default
  let handle : Handle := ⟨0, ⟨"p0"⟩, "p"⟩
  have here : session.registries[1]? = some registry := by decide +kernel
  have vacant : registry.find? "p" (.ref ⟨1, .unit⟩) = none := by decide +kernel
  constructor
  · obtain ⟨trace, -, rest, -⟩ := registration_fails_without_trace operations
      (.registerNew 1 "p" (value 1)) ⟨1, .stem "p", value 1⟩ registry rfl here
    have failed := (((rest (by simp [value, Value.inline])).2 vacant).1 "p").mpr
      ⟨rfl, by decide +kernel⟩
    exact Prod.ext failed (trace _ failed)
  · have there : session.ledger.handles[0]? = some handle := by decide +kernel
    have submitted : session.submission? (.registerName 1 0 (value 1)) =
        some ⟨1, .name handle, value 1⟩ := by
      simp only [submission?, there, Option.map_some]
    obtain ⟨trace, -, rest, -⟩ := registration_fails_without_trace operations
      (.registerName 1 0 (value 1)) ⟨1, .name handle, value 1⟩ registry submitted here
    have failed := (((rest (by simp [value, Value.inline])).2 vacant).2.1 "p0").mpr
      ⟨handle, rfl, rfl, by decide +kernel⟩
    exact Prod.ext failed (trace _ failed)

end Session

end NameScope
