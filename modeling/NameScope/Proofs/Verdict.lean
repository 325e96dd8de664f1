import NameScope.Proofs.Outcome

/-!
# What a registry makes of a request

A registry that is asked for something looks at a few things only, which an `Outlook` lists.
`Request.judge` says what the request comes to in view of them: an answer without a change,
a name given out, a name bound, or both. `Session.perform_judged` is the equation for the
operations of a session. A verdict does not depend on what names are, so it follows them
when they are called otherwise (`Request.judge_map`).
-/

namespace NameScope

/-- What a registry is asked for. -/
inductive Request (ν : Type) where
  | newName (stem : String)
  | registerNew (stem : String) (value : Value)
  | registerName (name : ν) (value : Value)
  | find (stem : String) (key : Key)

/-- What is answered. -/
inductive Reply (ν : Type) where
  | opened (number : Nat)
  | name (name : ν)
  | found (name : Option ν)
  | failed (fault : Fault)
  | unknown
deriving DecidableEq

/-- What a request comes to. -/
inductive Verdict (ν : Type) where
  /-- It is answered, and nothing changes. -/
  | reply (reply : Reply ν)
  /-- A name is given out. -/
  | issue (stem : String)
  /-- A name is given out and bound. -/
  | enter (stem : String) (key : Key) (ref : Ref) (value : Value)
  /-- A name that was given out before is bound. -/
  | enroll (name : ν) (key : Key) (ref : Ref) (value : Value)

/-- What a registry sees when it is asked. -/
structure Outlook (ν : Type) where
  /-- Whether names can be allocated under a stem. -/
  admits : String → Bool
  /-- The name bound under a stem for a key. -/
  find? : String → Key → Option ν
  /-- Whether a name is bound, if it has been given out. -/
  isBound? : ν → Option Bool
  stem : ν → String
  text : ν → String

namespace Request

variable {ν μ : Type}

/-- The stem under which something is asked for. -/
def stem (stemOf : ν → String) : Request ν → String
  | newName stem => stem
  | registerNew stem _ => stem
  | registerName name _ => stemOf name
  | find stem _ => stem

/-- The key of a value with a reference. -/
def keyOf (value : Value) (ref : Ref) : Key := value.key?.getD (.ref ref)

/-- What the registration of a value comes to, given what is done with one that is new. -/
def judgeValue (outlook : Outlook ν) (stem : String) (value : Value)
    (settle : Key → Ref → Verdict ν) : Verdict ν :=
  match value.ref? with
  | none => .reply (.failed (.missingRef stem))
  | some ref =>
    match outlook.find? stem (keyOf value ref) with
    | some name => .reply (.name name)
    | none => settle (keyOf value ref) ref

/-- What is done with a new value for a new name. -/
def settleNew (outlook : Outlook ν) (stem : String) (value : Value) (key : Key) (ref : Ref) :
    Verdict ν :=
  if outlook.admits stem then .enter stem key ref value
  else .reply (.failed (.stemRefused stem))

/-- What is done with a new value for a name that may be bound. -/
def settleName (outlook : Outlook ν) (bound : Bool) (name : ν) (value : Value) (key : Key)
    (ref : Ref) : Verdict ν :=
  if bound then .reply (.failed (.alreadyBound (outlook.text name)))
  else .enroll name key ref value

/-- What the request comes to. -/
def judge (outlook : Outlook ν) : Request ν → Verdict ν
  | newName stem =>
    if outlook.admits stem then .issue stem else .reply (.failed (.stemRefused stem))
  | registerNew stem value => judgeValue outlook stem value (settleNew outlook stem value)
  | registerName name value =>
    match outlook.isBound? name with
    | none => .reply .unknown
    | some bound =>
      judgeValue outlook (outlook.stem name) value (settleName outlook bound name value)
  | find stem key => .reply (.found (outlook.find? stem key))

/-- The request with names called otherwise. -/
def map (f : ν → μ) : Request ν → Request μ
  | newName stem => .newName stem
  | registerNew stem value => .registerNew stem value
  | registerName name value => .registerName (f name) value
  | find stem key => .find stem key

end Request

theorem Request.map_id {ν : Type} (request : Request ν) : request.map id = request := by
  cases request <;> rfl

/-- The reply with names called otherwise. -/
def Reply.map {ν μ : Type} (f : ν → μ) : Reply ν → Reply μ
  | .opened number => .opened number
  | .name given => .name (f given)
  | .found given? => .found (given?.map f)
  | .failed fault => .failed fault
  | .unknown => .unknown

@[simp] theorem Reply.map_map {ν μ ξ : Type} (f : ν → μ) (g : μ → ξ) (reply : Reply ν) :
    (reply.map f).map g = reply.map (g ∘ f) := by
  cases reply with
  | found given? => exact congrArg Reply.found (Option.map_map g f given?)
  | _ => rfl

/-- The verdict with names called otherwise. -/
def Verdict.map {ν μ : Type} (f : ν → μ) : Verdict ν → Verdict μ
  | .reply answer => .reply (answer.map f)
  | .issue stem => .issue stem
  | .enter stem key ref value => .enter stem key ref value
  | .enroll name key ref value => .enroll (f name) key ref value

theorem Reply.map_id {ν : Type} (reply : Reply ν) : reply.map id = reply := by
  cases reply with
  | found given? => exact congrArg Reply.found (congrFun Option.map_id given?)
  | _ => rfl

theorem Verdict.map_id {ν : Type} (verdict : Verdict ν) : verdict.map id = verdict := by
  cases verdict with
  | reply answer => exact congrArg Verdict.reply answer.map_id
  | _ => rfl

/-- The names in a reply. -/
def Reply.names {ν : Type} : Reply ν → List ν
  | .name given => [given]
  | .found given? => given?.toList
  | _ => []

theorem Reply.map_congr {ν μ : Type} {f g : ν → μ} {reply : Reply ν}
    (same : ∀ name ∈ reply.names, f name = g name) : reply.map f = reply.map g := by
  cases reply with
  | name given => exact congrArg Reply.name (same given (List.mem_singleton.mpr rfl))
  | found given? =>
      cases given? with
      | none => rfl
      | some given =>
          exact congrArg (Reply.found ∘ some) (same given (List.mem_singleton.mpr rfl))
  | _ => rfl

/-- What is done or answered for a stem is in keeping with what is seen. -/
def Verdict.Fits {ν : Type} (outlook : Outlook ν) (stem : String) : Verdict ν → Prop
  | .reply answer => ∀ name ∈ answer.names, ∃ key, outlook.find? stem key = some name
  | .issue asked => asked = stem ∧ outlook.admits stem = true
  | .enter asked key ref value => asked = stem ∧ outlook.admits stem = true ∧
    outlook.find? stem key = none ∧ value.ref? = some ref ∧ key = Request.keyOf value ref
  | .enroll name key ref value => outlook.stem name = stem ∧ outlook.isBound? name = some false ∧
    outlook.find? stem key = none ∧ value.ref? = some ref ∧ key = Request.keyOf value ref

/-- Two outlooks show the same at the stem of a request, up to what names are called. -/
structure Outlook.Agree {ν μ : Type} (f : ν → μ) (outlook : Outlook ν) (outlook' : Outlook μ)
    (request : Request ν) : Prop where
  admits : outlook'.admits (request.stem outlook.stem) =
    outlook.admits (request.stem outlook.stem)
  find? : ∀ key, outlook'.find? (request.stem outlook.stem) key =
    (outlook.find? (request.stem outlook.stem) key).map f
  named : ∀ name value, request = .registerName name value →
    outlook'.isBound? (f name) = outlook.isBound? name ∧
      outlook'.stem (f name) = outlook.stem name ∧ outlook'.text (f name) = outlook.text name

namespace Request

variable {ν μ : Type} {f : ν → μ} {outlook : Outlook ν} {outlook' : Outlook μ}
  {request : Request ν}

theorem judgeValue_map {stem : String} {value : Value} {settle : Key → Ref → Verdict ν}
    {settle' : Key → Ref → Verdict μ}
    (find? : ∀ key, outlook'.find? stem key = (outlook.find? stem key).map f)
    (settles : ∀ key ref, settle' key ref = (settle key ref).map f) :
    judgeValue outlook' stem value settle' = (judgeValue outlook stem value settle).map f := by
  unfold judgeValue
  cases value.ref? with
  | none => rfl
  | some ref =>
      simp only [find?]
      cases outlook.find? stem (keyOf value ref) with
      | some name => rfl
      | none => exact settles _ _

/-- **Verdicts follow the names.** -/
theorem judge_map (agree : outlook.Agree f outlook' request) :
    (request.map f).judge outlook' = (request.judge outlook).map f := by
  have admits := agree.admits
  have find? := agree.find?
  cases request with
  | newName stem =>
      simp only [map, judge, Request.stem] at admits ⊢
      rw [admits]
      split <;> rfl
  | find stem key => exact congrArg (fun found => Verdict.reply (.found found)) (find? key)
  | registerNew stem value =>
      refine judgeValue_map find? fun key ref => ?_
      simp only [settleNew, Request.stem] at admits ⊢
      rw [admits]
      split <;> rfl
  | registerName name value =>
      obtain ⟨isBound?, stems, texts⟩ := agree.named name value rfl
      simp only [map, judge]
      rw [isBound?, stems]
      cases outlook.isBound? name with
      | none => rfl
      | some bound =>
          refine judgeValue_map find? fun key ref => ?_
          unfold settleName
          rw [texts]
          split <;> rfl

theorem fits_judgeValue {stem : String} {value : Value} {settle : Key → Ref → Verdict ν}
    (settles : ∀ ref, value.ref? = some ref → outlook.find? stem (keyOf value ref) = none →
      (settle (keyOf value ref) ref).Fits outlook stem) :
    (judgeValue outlook stem value settle).Fits outlook stem := by
  unfold judgeValue
  cases present : value.ref? with
  | none => exact fun name named => absurd named List.not_mem_nil
  | some ref =>
      simp only
      cases found : outlook.find? stem (keyOf value ref) with
      | none => exact settles ref present found
      | some other =>
          intro name named
          exact ⟨keyOf value ref, by rw [found, List.mem_singleton.mp named]⟩

/-- A verdict is in keeping with what is seen. -/
theorem fits_judge (outlook : Outlook ν) (request : Request ν) :
    (request.judge outlook).Fits outlook (request.stem outlook.stem) := by
  cases request with
  | newName stem =>
      simp only [judge]
      split
      · rename_i admitted
        exact ⟨rfl, admitted⟩
      · exact fun name named => absurd named List.not_mem_nil
  | find stem key => exact fun name named => ⟨key, Option.mem_toList.mp named⟩
  | registerNew stem value =>
      refine fits_judgeValue fun ref present new => ?_
      unfold settleNew
      split
      · rename_i admitted
        exact ⟨rfl, admitted, new, present, rfl⟩
      · exact fun name named => absurd named List.not_mem_nil
  | registerName name value =>
      simp only [judge]
      cases isBound? : outlook.isBound? name with
      | none => exact fun name named => absurd named List.not_mem_nil
      | some bound =>
          refine fits_judgeValue fun ref present new => ?_
          unfold settleName
          cases bound with
          | true => exact fun name named => absurd named List.not_mem_nil
          | false => exact ⟨rfl, isBound?, new, present, rfl⟩

end Request

/-! ## The operations of a session -/

/-- What an operation answers, as a reply. -/
def Outcome.reply : Outcome → Reply Handle
  | .opened number => .opened number
  | .name handle => .name handle
  | .found handle => .found handle
  | .failed fault => .failed fault
  | .ident _ => .unknown
  | .unknown => .unknown

namespace Session

/-- The operation that asks a registry for something. -/
def asking (number : Nat) : Request Handle → Operation
  | .newName stem => .newName number stem
  | .registerNew stem value => .registerNew number stem value
  | .registerName handle value => .registerName number handle.id value
  | .find stem key => .find number stem key

/-- What a registry of the session sees. -/
def outlook (session : Session) (registry : Registry) : Outlook Handle where
  admits := registry.allocator.admits
  find? := registry.find?
  isBound? handle :=
    if handle ∈ session.ledger.handles then some (session.ledger.binding? handle).isSome else none
  stem := Handle.stem
  text := Handle.text

/-- Answer a request as the verdict says. -/
def carryOut (session : Session) (number : Nat) (registry : Registry) :
    Verdict Handle → Reply Handle × Session
  | .reply reply => (reply, session)
  | .issue stem =>
    (.name ((session.desk registry).nextHandle stem),
      session.put number ((session.desk registry).issue stem))
  | .enter stem key ref value =>
    (.name ((session.desk registry).nextHandle stem),
      session.put number (((session.desk registry).issue stem).enroll
        ((session.desk registry).nextHandle stem) key ref value))
  | .enroll handle key ref value =>
    (.name handle, session.put number ((session.desk registry).enroll handle key ref value))

variable {session : Session} {number : Nat} {registry : Registry}

/-- What is done with a new value, whatever it is to be bound to. -/
def settle (session : Session) (registry : Registry) (value : Value) :
    Target → Key → Ref → Verdict Handle
  | .stem stem => Request.settleNew (session.outlook registry) stem value
  | .name handle =>
    Request.settleName (session.outlook registry) (session.ledger.binding? handle).isSome handle
      value

/-- The answer of a desk, as a reply. -/
theorem register_judged (sound : session.ledger.Sound)
    (here : session.registries[number]? = some registry) (target : Target) (value : Value) :
    (session.atDesk number (Registering.register target value)).map Outcome.reply id =
      session.carryOut number registry (Request.judgeValue (session.outlook registry)
        target.effectiveStem value (session.settle registry value target)) := by
  -- a desk that is put back as it was changes nothing
  have stays : ∀ reply : Reply Handle, (reply, session.put number (session.desk registry)) =
      session.carryOut number registry (.reply reply) := by
    intro reply
    rw [put_desk here]
    rfl
  rw [atDesk_eq here]
  unfold Request.judgeValue
  have cases := Registering.register_cases (session.desk registry) sound target value
  generalize (Registering.register target value).run (session.desk registry) = result at cases
  cases cases with
  | missingRef absent =>
      rw [absent]
      exact stays _
  | found present known =>
      have found : (session.outlook registry).find? target.effectiveStem
        (Request.keyOf value _) = some _ := known
      simp only [present, found]
      exact stays _
  | refused isStem present vacant refused =>
      subst isStem
      have new : (session.outlook registry).find? (Target.stem _).effectiveStem
        (Request.keyOf value _) = none := vacant
      have refused : (session.outlook registry).admits _ = false := refused
      simp only [present, new, settle, Request.settleNew, refused]
      exact stays _
  | alreadyBound isName present vacant bound =>
      subst isName
      have new : (session.outlook registry).find? (Target.name _).effectiveStem
        (Request.keyOf value _) = none := vacant
      have bound : session.ledger.binding? _ = some _ := bound
      simp only [present, new, settle, Request.settleName, bound]
      exact stays _
  | fresh isStem present vacant admitted =>
      subst isStem
      have new : (session.outlook registry).find? (Target.stem _).effectiveStem
        (Request.keyOf value _) = none := vacant
      have admitted : (session.outlook registry).admits _ = true := admitted
      simp only [present, new, settle, Request.settleNew, admitted]
      rfl
  | named isName present vacant unbound =>
      subst isName
      have new : (session.outlook registry).find? (Target.name _).effectiveStem
        (Request.keyOf value _) = none := vacant
      have unbound : session.ledger.binding? _ = none := unbound
      simp only [present, new, settle, Request.settleName, unbound]
      rfl

/-- A registry that is not there answers nothing. -/
theorem perform_asking_of_none (absent : session.registries[number]? = none)
    (request : Request Handle) : session.perform (asking number request) = (.unknown, session) := by
  cases request with
  | newName stem => exact atDesk_of_none absent _
  | registerNew stem value => exact atDesk_of_none absent _
  | registerName handle value =>
      cases found : session.ledger.handles[handle.id]? with
      | none => simp only [asking, perform, found]
      | some other =>
          simp only [asking, perform, found]
          exact atDesk_of_none absent _
  | find stem key => simp only [asking, perform, absent]

/-- **The equation of a request** at a registry. -/
theorem perform_judged (sound : session.ledger.Sound)
    (here : session.registries[number]? = some registry) (request : Request Handle)
    (given : ∀ handle value, request = .registerName handle value →
      handle ∈ session.ledger.handles) :
    (session.perform (asking number request)).map Outcome.reply id =
      session.carryOut number registry (request.judge (session.outlook registry)) := by
  cases request with
  | newName stem =>
      show (session.atDesk number (Registering.newName stem)).map Outcome.reply id = _
      rw [atDesk_eq here, Registering.run_newName]
      show _ = session.carryOut number registry
        (if registry.allocator.admits stem then .issue stem else .reply (.failed _))
      by_cases admitted : registry.allocator.admits stem = true
      · rw [desk_registry, if_pos admitted, if_pos admitted]
        rfl
      · rw [desk_registry, if_neg admitted, if_neg admitted]
        show (Reply.failed _, session.put number (session.desk registry)) = _
        rw [put_desk here]
        rfl
  | find stem key =>
      simp only [asking, perform, here]
      rfl
  | registerNew stem value => exact register_judged sound here (.stem stem) value
  | registerName handle value =>
      have among := given handle value rfl
      have found : session.ledger.handles[handle.id]? = some handle := sound.getElem?_id among
      simp only [asking, perform, found]
      rw [register_judged sound here (.name handle) value]
      show _ = session.carryOut number registry (match (if handle ∈ session.ledger.handles
        then some (session.ledger.binding? handle).isSome else none) with
        | none => _
        | some bound => _)
      rw [if_pos among]
      rfl

end Session

end NameScope
