import NameScope.Proofs.Ledger

/-!
# What a registration does

Every operation on a desk is described once, as an equation or a list of cases,
and later proofs cite the description instead of opening the operation:

* `Allocator.run_allocate`: an allocation advances the stem's counter, or is
  refused and changes nothing;
* `Registering.run_newName`: so does giving out a name (`Desk.issue`);
* `Registering.register_cases`: a registration fails and changes nothing, finds a
  name and changes nothing, or binds one name (`Desk.enroll`), which it may have
  given out just before.
-/

namespace NameScope

namespace Allocator

/-- Whether a name can be allocated under a stem: one was before, or the scope
permits the stem. -/
def admits (allocator : Allocator) (stem : String) : Bool :=
  (allocator.counters.get? stem).isSome || allocator.scope.permits stem

/-- The number that the next name under a stem gets. -/
def next (allocator : Allocator) (stem : String) : Nat :=
  (allocator.counters.get? stem).getD 0

theorem run_allocate (allocator : Allocator) (stem : String) :
    (allocate stem).run allocator =
      if allocator.admits stem then
        .ok (identAt stem (allocator.next stem)) (allocator.advance stem)
      else .error (.stemRefused stem) allocator := by
  unfold allocate admits next
  simp only [EStateM.run_bind, EStateM.run_get]
  cases counter : allocator.counters.get? stem with
  | some index => rfl
  | none =>
      by_cases permitted : allocator.scope.permits stem
      · simp only [permitted, Option.isSome_none, Bool.or_true, if_true]
        rfl
      · simp only [permitted, Option.isSome_none, Bool.or_self, Bool.false_eq_true, if_false]
        rfl

end Allocator

namespace Desk

/-- The name that is given out next under a stem. -/
def nextHandle (desk : Desk) (stem : String) : Handle :=
  ⟨desk.ledger.handles.length, Allocator.identAt stem (desk.registry.allocator.next stem), stem⟩

/-- The desk after a name has been given out under a stem. -/
def issue (desk : Desk) (stem : String) : Desk where
  ledger := { desk.ledger with handles := desk.ledger.handles ++ [desk.nextHandle stem] }
  registry := { desk.registry with allocator := desk.registry.allocator.advance stem }

/-- The desk after a name has been bound to a value with the reference `ref` and
remembered for a key. -/
def enroll (desk : Desk) (handle : Handle) (key : Key) (ref : Ref) (value : Value) : Desk where
  ledger := (desk.ledger.push desk.registry.table handle.stem ref).bind handle
    ⟨value, ⟨handle.stem, (desk.ledger.table desk.registry.table).size handle.stem⟩⟩
  registry := desk.registry.record handle.stem key handle

end Desk

namespace Registering

theorem run_newName (desk : Desk) (stem : String) :
    (newName stem).run desk =
      if desk.registry.allocator.admits stem then .ok (desk.nextHandle stem) (desk.issue stem)
      else .error (.stemRefused stem) desk := by
  unfold newName
  rw [EStateM.run_bind, EStateM.run_get]
  have allocated := Allocator.run_allocate desk.registry.allocator stem
  rw [EStateM.run] at allocated
  by_cases admitted : desk.registry.allocator.admits stem
  · simp only [admitted, if_true] at allocated ⊢
    rw [allocated]
    rfl
  · simp only [admitted, Bool.false_eq_true, if_false] at allocated ⊢
    rw [allocated]
    rfl

theorem run_bindName_of_unbound {desk : Desk} {handle : Handle} (key : Key) (ref : Ref)
    (value : Value) (unbound : desk.ledger.binding? handle = none) :
    (bindName handle.stem key ref value handle).run desk =
      .ok handle (desk.enroll handle key ref value) := by
  unfold bindName pushRef setBinding record Desk.enroll
  simp only [EStateM.run_bind, EStateM.run_get, unbound, EStateM.run_set, EStateM.run_pure,
    Ledger.binding?_push, EStateM.run_modify]

theorem run_bindName_of_bound {desk : Desk} {handle : Handle} {binding : Binding}
    (stem : String) (key : Key) (ref : Ref) (value : Value)
    (bound : desk.ledger.binding? handle = some binding) :
    (bindName stem key ref value handle).run desk = .error (.alreadyBound handle.text) desk := by
  unfold bindName
  rw [EStateM.run_bind, EStateM.run_get]
  simp only [bound]
  rfl

/-- What a registration can come to. -/
inductive Registered (target : Target) (value : Value) (desk : Desk) :
    EStateM.Result Fault Desk Handle → Prop
  | missingRef : value.ref? = none →
      Registered target value desk (.error (.missingRef target.effectiveStem) desk)
  | found {ref : Ref} {handle : Handle} : value.ref? = some ref →
      desk.registry.find? target.effectiveStem (value.key?.getD (.ref ref)) = some handle →
      Registered target value desk (.ok handle desk)
  | refused {ref : Ref} {stem : String} : target = .stem stem → value.ref? = some ref →
      desk.registry.find? stem (value.key?.getD (.ref ref)) = none →
      desk.registry.allocator.admits stem = false →
      Registered target value desk (.error (.stemRefused stem) desk)
  | alreadyBound {ref : Ref} {handle : Handle} {binding : Binding} : target = .name handle →
      value.ref? = some ref →
      desk.registry.find? handle.stem (value.key?.getD (.ref ref)) = none →
      desk.ledger.binding? handle = some binding →
      Registered target value desk (.error (.alreadyBound handle.text) desk)
  | fresh {ref : Ref} {stem : String} : target = .stem stem → value.ref? = some ref →
      desk.registry.find? stem (value.key?.getD (.ref ref)) = none →
      desk.registry.allocator.admits stem = true →
      Registered target value desk (.ok (desk.nextHandle stem)
        ((desk.issue stem).enroll (desk.nextHandle stem) (value.key?.getD (.ref ref)) ref value))
  | named {ref : Ref} {handle : Handle} : target = .name handle → value.ref? = some ref →
      desk.registry.find? handle.stem (value.key?.getD (.ref ref)) = none →
      desk.ledger.binding? handle = none →
      Registered target value desk
        (.ok handle (desk.enroll handle (value.key?.getD (.ref ref)) ref value))

/-- **The cases of a registration.** The soundness of the ledger rules out that a
name given out on the way is bound already, so no failure comes after a change. -/
theorem register_cases (desk : Desk) (sound : desk.ledger.Sound) (target : Target)
    (value : Value) : Registered target value desk ((register target value).run desk) := by
  unfold register
  cases present : value.ref? with
  | none => exact .missingRef present
  | some ref =>
      simp only [EStateM.run_bind, EStateM.run_get]
      cases known : desk.registry.find? target.effectiveStem (value.key?.getD (.ref ref)) with
      | some handle => exact .found present known
      | none =>
          rw [EStateM.run_bind]
          cases target with
          | name handle =>
              simp only [resolve, EStateM.run_pure]
              cases bound : desk.ledger.binding? handle with
              | some binding =>
                  rw [run_bindName_of_bound _ _ _ _ bound]
                  exact .alreadyBound rfl present known bound
              | none =>
                  rw [Target.effectiveStem, run_bindName_of_unbound _ _ _ bound]
                  exact .named rfl present known bound
          | stem stem =>
              simp only [resolve, run_newName]
              by_cases admitted : desk.registry.allocator.admits stem
              · have unbound : (desk.issue stem).ledger.binding? (desk.nextHandle stem) = none :=
                  sound.binding?_next rfl
                simp only [admitted, if_true]
                rw [show (Target.stem stem).effectiveStem = (desk.nextHandle stem).stem from rfl,
                  run_bindName_of_unbound _ _ _ unbound]
                exact .fresh rfl present known admitted
              · simp only [admitted]
                exact .refused rfl present known (by simpa using admitted)

end Registering

end NameScope
