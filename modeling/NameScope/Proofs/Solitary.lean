import NameScope.Proofs.Enrolment
import NameScope.Proofs.Allocation

/-!
# A registry with a table of its own

If a registry is the only one that writes to its table, and values are registered at it under
stems alone, what becomes of them can be read off the calls. Those that come to something are
the offers: values with a reference, under a stem that the scope permits. `Session.Solitary` says
how the entries of the registry and the columns of the table follow from the offers; it is there
when the registry is opened and stays through every operation that spares the two
(`Session.Solitary.perform`) and through every run of them (`Session.Solitary.run`).
-/

namespace NameScope

/-- Operations that touch a registry and its table by registering values under stems and by
looking up keys only. -/
def Operation.Spares (number table : Nat) : Operation → Prop
  | .openRegistry other _ _ => other ≠ table
  | .newName other _ => other ≠ number
  | .registerName other _ _ => other ≠ number
  | _ => True

instance (number table : Nat) : DecidablePred (Operation.Spares number table)
  | .openRegistry other _ _ => inferInstanceAs (Decidable (other ≠ table))
  | .newName other _ => inferInstanceAs (Decidable (other ≠ number))
  | .registerName other _ _ => inferInstanceAs (Decidable (other ≠ number))
  | .openAllocator _ | .openTable | .allocate _ _ | .registerNew _ _ _ | .find _ _ _ =>
    inferInstanceAs (Decidable True)

namespace Session

/-! ## Registrations under a stem -/

section Register

variable {session : Session} {number : Nat} {registry : Registry} {stem : String} {value : Value}
  {ref : Ref}

theorem perform_registerNew_of_unreferenced
    (here : session.registries[number]? = some registry) (absent : value.ref? = none) :
    session.perform (.registerNew number stem value) = (.failed (.missingRef stem), session) := by
  have unchanged : (Registering.register (.stem stem) value).run (session.desk registry) =
      .error (.missingRef stem) (session.desk registry) := by
    unfold Registering.register
    rw [absent]
    rfl
  show session.atDesk number (Registering.register (.stem stem) value) = _
  rw [atDesk_eq here, unchanged]
  show (Outcome.failed (.missingRef stem), session.put number (session.desk registry)) = _
  rw [put_desk here]

theorem perform_registerNew_of_vacant (sound : session.ledger.Sound)
    (here : session.registries[number]? = some registry) (present : value.ref? = some ref)
    (vacant : registry.find? stem (value.key?.getD (.ref ref)) = none) :
    session.perform (.registerNew number stem value) =
      if registry.allocator.admits stem then
        (.name ((session.desk registry).nextHandle stem),
          session.put number (((session.desk registry).issue stem).enroll
            ((session.desk registry).nextHandle stem) (value.key?.getD (.ref ref)) ref value))
      else (.failed (.stemRefused stem), session) := by
  show session.atDesk number (Registering.register (.stem stem) value) = _
  rw [atDesk_eq here]
  have cases := Registering.register_cases (session.desk registry) sound (.stem stem) value
  generalize (Registering.register (.stem stem) value).run (session.desk registry) = result at cases
  cases cases with
  | missingRef absent => exact absurd (present.symm.trans absent) (by simp)
  | found present' known =>
      obtain rfl := Option.some.inj (present.symm.trans present')
      exact absurd (vacant.symm.trans known) (by simp)
  | refused isStem present' vacant' refused =>
      obtain rfl := Target.stem.inj isStem
      have refused : registry.allocator.admits stem = false := refused
      rw [refused, if_neg (by simp)]
      show (Outcome.failed (.stemRefused stem), session.put number (session.desk registry)) = _
      rw [put_desk here]
  | alreadyBound isName present' vacant' bound => exact absurd isName (by simp)
  | fresh isStem present' vacant' admitted =>
      obtain rfl := Target.stem.inj isStem
      obtain rfl := Option.some.inj (present.symm.trans present')
      have admitted : registry.allocator.admits stem = true := admitted
      rw [if_pos admitted]
      rfl
  | named isName present' vacant' unbound => exact absurd isName (by simp)

end Register

/-! ## Offers -/

/-- A value with a reference that is to be registered under a stem. -/
structure Offer where
  stem : String
  key : Key
  ref : Ref
deriving DecidableEq

/-- The offer that an operation makes to a registry, if it registers a value with a reference
under a stem that the scope permits. -/
def offer? (scope : Scope) (number : Nat) : Operation → Option Offer
  | .registerNew other stem value =>
    if other = number ∧ scope.permits stem = true then
      value.ref?.map fun ref => ⟨stem, value.key?.getD (.ref ref), ref⟩
    else none
  | _ => none

/-- The stem and the key of an offer. -/
def Offer.place (offer : Offer) : String × Key := (offer.stem, offer.key)

/-- The stem and the key of an entry. -/
def Entry.place (entry : Entry) : String × Key := (entry.stem, entry.key)

/-- The reference that was first offered for a key. -/
def firstRef? (offers : List Offer) (place : String × Key) : Option Ref :=
  (offers.find? (·.place = place)).map Offer.ref

theorem firstRef?_append {offers : List Offer} {place : String × Key}
    (offered : place ∈ offers.map Offer.place) (more : List Offer) :
    firstRef? (offers ++ more) place = firstRef? offers place := by
  obtain ⟨offer, among, same⟩ := List.mem_map.mp offered
  unfold firstRef?
  rw [List.find?_append]
  cases found : offers.find? (·.place = place) with
  | none => exact absurd (decide_eq_true same) (List.find?_eq_none.mp found offer among)
  | some first => rfl

theorem firstRef?_concat {offers : List Offer} {offer : Offer}
    (new : offer.place ∉ offers.map Offer.place) :
    firstRef? (offers ++ [offer]) offer.place = some offer.ref := by
  have none : offers.find? (·.place = offer.place) = none :=
    List.find?_eq_none.mpr fun other among same =>
      new (of_decide_eq_true same ▸ List.mem_map_of_mem among)
  unfold firstRef?
  rw [List.find?_append, none]
  simp

/-- The entries of a registry under a stem. -/
def entriesUnder (log : List Entry) (number : Nat) (stem : String) : List Entry :=
  (entriesOf log number).filter (·.stem = stem)

/-- The registry is the only one that writes to its table, and what it has given out and
bound is what the offers say. -/
structure Solitary (session : Session) (number table : Nat) (scope : Scope) (log : List Entry)
    (offers : List Offer) : Prop where
  sound : session.ledger.Sound
  recorded : session.Recorded log
  alone : ∀ other registry, session.registries[other]? = some registry →
    registry.table = table → other = number
  registry : ∃ registry, session.registries[number]? = some registry ∧ registry.table = table ∧
    (∀ stem, registry.allocator.admits stem = scope.permits stem) ∧
    ∀ stem, registry.allocator.next stem = (entriesUnder log number stem).length
  places : (entriesOf log number).map Entry.place = (offers.map Offer.place).eraseDups
  permitted : ∀ offer ∈ offers, scope.permits offer.stem = true
  idents : ∀ stem, ((entriesUnder log number stem).map fun entry => entry.name.ident) =
    (List.range (entriesUnder log number stem).length).map (Allocator.identAt stem)
  column : ∀ stem, ((session.ledger.table table).column stem).map some =
    (entriesUnder log number stem).map fun entry => firstRef? offers entry.place

/-- What is answered to a value that is registered under a stem. -/
structure Answered (scope : Scope) (number : Nat) (log : List Entry) (stem : String)
    (value : Value) (outcome : Outcome) : Prop where
  unreferenced : value.ref? = none → outcome = .failed (.missingRef stem)
  refused : ∀ ref, value.ref? = some ref → scope.permits stem = false →
    outcome = .failed (.stemRefused stem)
  named : ∀ ref, value.ref? = some ref → scope.permits stem = true →
    ∃ handle, outcome = .name handle ∧ ⟨number, stem, value.key?.getD (.ref ref), handle⟩ ∈ log

variable {session : Session} {number table : Nat} {scope : Scope} {log : List Entry}
  {offers : List Offer} {stem : String} {value : Value} {ref : Ref}

/-! ## Entries under a stem -/

theorem entriesUnder_concat (log : List Entry) (entry : Entry) (stem : String) :
    entriesUnder (log ++ [entry]) entry.registry stem =
      if stem = entry.stem then entriesUnder log entry.registry stem ++ [entry]
      else entriesUnder log entry.registry stem := by
  unfold entriesUnder
  rw [entriesOf_concat, List.filter_append]
  by_cases same : stem = entry.stem
  · simp [same]
  · simp [same, Ne.symm same]

theorem mem_entriesUnder {entry : Entry} :
    entry ∈ entriesUnder log number stem ↔
      entry ∈ log ∧ entry.registry = number ∧ entry.stem = stem := by
  unfold entriesUnder entriesOf
  simp only [List.mem_filter, decide_eq_true_iff, and_assoc]

/-- An entry is made for the registry that the value was handed to. -/
theorem submission_of_enrolment? {operation : Operation} {entry : Entry}
    (entered : session.enrolment? operation = some entry) :
    ∃ submission, session.submission? operation = some submission ∧
      entry.registry = submission.registry := by
  unfold enrolment? at entered
  obtain ⟨entered, -⟩ := Option.filter_eq_some_iff.mp entered
  unfold entry? at entered
  obtain ⟨submission, submitted, entered⟩ := Option.bind_eq_some_iff.mp entered
  obtain ⟨name, -, entered⟩ := Option.bind_eq_some_iff.mp entered
  obtain ⟨key, -, entered⟩ := Option.bind_eq_some_iff.mp entered
  exact ⟨submission, submitted, by rw [← Option.some.inj entered]⟩

/-! ## What other operations keep -/

/-- Nothing happens at the registry or its table. -/
theorem Solitary.kept (solitary : session.Solitary number table scope log offers)
    {later : Session} (sound : later.ledger.Sound) {more : List Entry}
    (recorded : later.Recorded (log ++ more))
    (foreign : ∀ entry ∈ more, entry.registry ≠ number)
    (same : later.registries[number]? = session.registries[number]?)
    (alone : ∀ other registry, later.registries[other]? = some registry →
      registry.table = table → other = number)
    (tables : later.ledger.table table = session.ledger.table table) :
    later.Solitary number table scope (log ++ more) offers := by
  have mine : entriesOf (log ++ more) number = entriesOf log number :=
    entriesOf_append_of_foreign foreign
  have under : entriesUnder (log ++ more) number = entriesUnder log number := by
    funext stem
    unfold entriesUnder
    rw [mine]
  refine ⟨sound, recorded, alone, ?_, ?_, solitary.permitted, ?_, ?_⟩
  · rw [same, under]
    exact solitary.registry
  · rw [mine]
    exact solitary.places
  · rw [under]
    exact solitary.idents
  · rw [under, tables]
    exact solitary.column

/-- Another registry has worked, on another table. -/
theorem Solitary.kept_put (solitary : session.Solitary number table scope log offers)
    {place : Nat} {registry : Registry} (here : session.registries[place]? = some registry)
    (apart : place ≠ number) {desk : Desk} (sound : desk.ledger.Sound) {more : List Entry}
    (recorded : (session.put place desk).Recorded (log ++ more))
    (foreign : ∀ entry ∈ more, entry.registry ≠ number)
    (sameTable : desk.registry.table = registry.table)
    (tables : desk.ledger.table table = session.ledger.table table) :
    (session.put place desk).Solitary number table scope (log ++ more) offers := by
  refine solitary.kept sound recorded foreign ?_ ?_ tables
  · rw [getElem?_put here, if_neg (Ne.symm apart)]
  · intro other registry' there ofTable
    rw [getElem?_put here] at there
    split at there
    · rename_i same
      rw [← Option.some.inj there, sameTable] at ofTable
      exact same.trans (solitary.alone place registry here ofTable)
    · exact solitary.alone other registry' there ofTable

/-- Who works at another registry writes to another table. -/
theorem Solitary.table_enroll (solitary : session.Solitary number table scope log offers)
    {place : Nat} {registry : Registry} (here : session.registries[place]? = some registry)
    (apart : place ≠ number) {desk : Desk} (sameTable : desk.registry.table = registry.table)
    (handle : Handle) (key : Key) (ref : Ref) (value : Value) :
    (desk.enroll handle key ref value).ledger.table table = desk.ledger.table table := by
  rw [Desk.table_enroll, if_neg]
  rintro rfl
  exact apart (solitary.alone place registry here sameTable.symm)

/-- **Other operations** keep what is said of the registry. -/
theorem Solitary.perform_foreign (solitary : session.Solitary number table scope log offers)
    {operation : Operation} (spared : operation.Spares number table)
    (elsewhere : ∀ submission, session.submission? operation = some submission →
      submission.registry ≠ number) :
    (session.perform operation).2.Solitary number table scope
      (log ++ (session.enrolment? operation).toList) offers := by
  have sound := sound_of_changes (perform_changes solitary.sound operation) solitary.sound
  have recorded := solitary.recorded.perform solitary.sound operation
  have foreign : ∀ entry ∈ (session.enrolment? operation).toList, entry.registry ≠ number := by
    intro entry among
    obtain ⟨submission, submitted, same⟩ :=
      submission_of_enrolment? (Option.mem_toList.mp among)
    exact same ▸ elsewhere submission submitted
  have cases := perform_cases solitary.sound operation
  generalize (session.perform operation).1 = outcome at cases
  generalize (session.perform operation).2 = later at cases sound recorded ⊢
  cases cases with
  | aside allocators tables nameless =>
      exact solitary.kept sound recorded foreign rfl solitary.alone rfl
  | found submitted here present known =>
      exact solitary.kept sound recorded foreign rfl solitary.alone rfl
  | opened scope' table' style isOpening =>
      subst isOpening
      obtain ⟨registry, here, -⟩ := solitary.registry
      have old : number < session.registries.length := (List.getElem?_eq_some_iff.mp here).1
      refine solitary.kept sound recorded foreign ?_ ?_ rfl
      · rw [getElem?_opened, if_neg (Nat.ne_of_lt old)]
      · intro other registry' there ofTable
        rw [getElem?_opened] at there
        split at there
        · rw [← Option.some.inj there] at ofTable
          exact absurd ofTable spared
        · exact solitary.alone other registry' there ofTable
  | issued isNew here admitted =>
      have apart := isNew ▸ spared
      exact solitary.kept_put here apart sound recorded foreign rfl rfl
  | fresh submitted here present vacant admitted =>
      have apart := elsewhere _ submitted
      refine solitary.kept_put here apart sound recorded foreign rfl ?_
      exact solitary.table_enroll here apart rfl _ _ _ _
  | named submitted here present vacant unbound =>
      have apart := elsewhere _ submitted
      refine solitary.kept_put here apart sound recorded foreign rfl ?_
      exact solitary.table_enroll here apart rfl _ _ _ _

/-! ## What a registration keeps -/

/-- Every entry was offered. -/
theorem Solitary.offered_of_mem (solitary : session.Solitary number table scope log offers)
    {entry : Entry} (among : entry ∈ entriesUnder log number stem) :
    entry.place ∈ offers.map Offer.place := by
  rw [← List.mem_eraseDups, ← solitary.places]
  exact List.mem_map_of_mem (List.mem_of_mem_filter among)

/-- What was offered is found. -/
theorem Solitary.offered_iff (solitary : session.Solitary number table scope log offers)
    {registry : Registry} (here : session.registries[number]? = some registry) {key : Key} :
    (stem, key) ∈ offers.map Offer.place ↔ ∃ handle, registry.find? stem key = some handle := by
  rw [← List.mem_eraseDups, ← solitary.places, List.mem_map]
  simp only [solitary.recorded.find?_iff here]
  constructor
  · rintro ⟨entry, among, same⟩
    obtain ⟨among, ours⟩ := List.mem_filter.mp among
    obtain ⟨rfl, rfl⟩ := Prod.mk.inj same
    exact ⟨entry.name, of_decide_eq_true ours ▸ among⟩
  · rintro ⟨handle, among⟩
    exact ⟨_, List.mem_filter.mpr ⟨among, decide_eq_true rfl⟩, rfl⟩

/-- What is offered again changes nothing. -/
theorem Solitary.repeated (solitary : session.Solitary number table scope log offers)
    {offer : Offer} (permitted : scope.permits offer.stem = true)
    (offered : offer.place ∈ offers.map Offer.place) :
    session.Solitary number table scope log (offers ++ [offer]) := by
  refine ⟨solitary.sound, solitary.recorded, solitary.alone, solitary.registry, ?_, ?_,
    solitary.idents, fun stem => ?_⟩
  · rw [List.map_append, List.map_singleton, eraseDups_concat, if_pos offered]
    exact solitary.places
  · intro other among
    rcases List.mem_append.mp among with old | new
    · exact solitary.permitted other old
    · rw [List.mem_singleton.mp new]
      exact permitted
  · rw [solitary.column stem]
    exact List.map_congr_left fun entry among =>
      (firstRef?_append (solitary.offered_of_mem among) _).symm

section Enter

variable (solitary : session.Solitary number table scope log offers) {registry : Registry}
  (here : session.registries[number]? = some registry) (stem : String) (key : Key) (ref : Ref)
  (value : Value)

include solitary here

/-- The references of the table after a new name has been bound. -/
theorem Solitary.column_enter (new : (stem, key) ∉ offers.map Offer.place) (other : String) :
    (((((session.desk registry).issue stem).enroll ((session.desk registry).nextHandle stem) key
      ref value).ledger.table table).column other).map some =
    (entriesUnder (log ++ [⟨number, stem, key, (session.desk registry).nextHandle stem⟩]) number
      other).map fun entry => firstRef? (offers ++ [⟨stem, key, ref⟩]) entry.place := by
  obtain ⟨registry', here', ofTable, -⟩ := solitary.registry
  obtain rfl : registry = registry' := Option.some.inj (here.symm.trans here')
  have old : ((session.ledger.table table).column other).map some =
      (entriesUnder log number other).map
        fun entry => firstRef? (offers ++ [⟨stem, key, ref⟩]) entry.place := by
    rw [solitary.column other]
    exact List.map_congr_left fun entry among =>
      (firstRef?_append (solitary.offered_of_mem among) _).symm
  have pushed : ((((session.desk registry).issue stem).enroll
      ((session.desk registry).nextHandle stem) key ref value).ledger.table table) =
        (session.ledger.table table).push stem ref := by
    have ours : ((session.desk registry).issue stem).registry.table = table := ofTable
    rw [Desk.table_enroll, ours, if_pos rfl]
    rfl
  rw [pushed, Table.column_push, entriesUnder_concat]
  by_cases same : other = stem
  · subst same
    have last : firstRef? (offers ++ [⟨other, key, ref⟩]) (other, key) = some ref :=
      firstRef?_concat new
    rw [if_pos rfl, if_pos rfl, List.map_append, List.map_append, old]
    simp only [List.map_singleton, Entry.place, last]
  · rw [if_neg same, if_neg same]
    exact old

/-- **A new offer** makes one more entry, with the next number of its stem. -/
theorem Solitary.enter (permitted : scope.permits stem = true)
    (new : (stem, key) ∉ offers.map Offer.place) {later : Session}
    (entered : later = session.put number (((session.desk registry).issue stem).enroll
      ((session.desk registry).nextHandle stem) key ref value))
    (sound : later.ledger.Sound)
    (recorded : later.Recorded
      (log ++ [⟨number, stem, key, (session.desk registry).nextHandle stem⟩])) :
    later.Solitary number table scope
      (log ++ [⟨number, stem, key, (session.desk registry).nextHandle stem⟩])
      (offers ++ [⟨stem, key, ref⟩]) := by
  subst entered
  obtain ⟨registry', here', ofTable, admits, next⟩ := solitary.registry
  obtain rfl : registry = registry' := Option.some.inj (here.symm.trans here')
  have admitted : registry.allocator.admits stem = true := (admits stem).trans permitted
  refine ⟨sound, recorded, ?_, ⟨_, getElem?_put_self here _, ofTable, ?_, ?_⟩, ?_, ?_, ?_,
    solitary.column_enter here stem key ref value new⟩
  · intro other registry' there sameTable
    rw [getElem?_put here] at there
    split at there
    · assumption
    · exact solitary.alone other registry' there sameTable
  · intro other
    exact (Allocator.admits_advance admitted other).trans (admits other)
  · intro other
    refine (Allocator.next_advance registry.allocator stem other).trans ?_
    rw [entriesUnder_concat]
    by_cases same : other = stem
    · rw [if_pos same, if_pos same, List.length_append, next, same]
      rfl
    · rw [if_neg same, if_neg same, next]
  · rw [entriesOf_concat, List.map_append, List.map_append, solitary.places,
      List.map_singleton, List.map_singleton, eraseDups_concat]
    exact (if_neg new).symm
  · intro offer among
    rcases List.mem_append.mp among with old | isNew
    · exact solitary.permitted offer old
    · rw [List.mem_singleton.mp isNew]
      exact permitted
  · intro other
    rw [entriesUnder_concat]
    by_cases same : other = stem
    · subst same
      rw [if_pos rfl, List.map_append, solitary.idents other, List.length_append,
        List.length_singleton, List.range_succ, List.map_append, List.map_singleton,
        List.map_singleton, ← next other]
      rfl
    · rw [if_neg same]
      exact solitary.idents other

end Enter

/-- A longer list of entries answers as well. -/
theorem Answered.mono {outcome : Outcome} (answered : Answered scope number log stem value outcome)
    {later : List Entry} (further : log ⊆ later) :
    Answered scope number later stem value outcome := by
  refine ⟨answered.unreferenced, answered.refused, fun ref present permitted => ?_⟩
  obtain ⟨handle, named, among⟩ := answered.named ref present permitted
  exact ⟨handle, named, further among⟩

/-- A registration that fails leaves everything as it is. -/
theorem enrolment?_of_failed {operation : Operation} {fault : Fault}
    (failed : session.perform operation = (.failed fault, session)) :
    session.enrolment? operation = none :=
  enrolment?_of_none (entry?_of_nameless (by rw [failed]; rfl))

/-- The entry of a value that a registry accepts answers it. -/
theorem Answered.of_entry (present : value.ref? = some ref) (permitted : scope.permits stem = true)
    {handle : Handle} (among : ⟨number, stem, value.key?.getD (.ref ref), handle⟩ ∈ log) :
    Answered scope number log stem value (.name handle) := by
  refine ⟨fun absent => by simp [present] at absent,
    fun _ _ refused => by simp [permitted] at refused, fun other present' _ => ?_⟩
  obtain rfl := Option.some.inj (present.symm.trans present')
  exact ⟨handle, rfl, among⟩

section Own

variable (solitary : session.Solitary number table scope log offers) {registry : Registry}
  (here : session.registries[number]? = some registry) (present : value.ref? = some ref)

include solitary here present

theorem Solitary.perform_refused (refused : scope.permits stem = false) :
    session.perform (.registerNew number stem value) = (.failed (.stemRefused stem), session) := by
  obtain ⟨registry', here', -, admits, -⟩ := solitary.registry
  obtain rfl : registry = registry' := Option.some.inj (here.symm.trans here')
  -- nothing was ever offered under the stem, so no key is known
  have unoffered : ¬ ∃ handle, registry.find? stem (value.key?.getD (.ref ref)) = some handle := by
    rw [← solitary.offered_iff here]
    intro offered
    obtain ⟨offer, among, same⟩ := List.mem_map.mp offered
    have granted := solitary.permitted offer among
    rw [(Prod.mk.inj same).1, refused] at granted
    cases granted
  have vacant : registry.find? stem (value.key?.getD (.ref ref)) = none :=
    Option.eq_none_iff_forall_ne_some.mpr fun handle known => unoffered ⟨handle, known⟩
  rw [perform_registerNew_of_vacant solitary.sound here present vacant, admits stem, refused]
  rfl

theorem Solitary.perform_repeated {handle : Handle}
    (known : registry.find? stem (value.key?.getD (.ref ref)) = some handle) :
    session.perform (.registerNew number stem value) = (.name handle, session) ∧
      session.enrolment? (.registerNew number stem value) = none := by
  have submitted : session.submission? (.registerNew number stem value) =
      some ⟨number, .stem stem, value⟩ := rfl
  have found : session.perform (.registerNew number stem value) = (.name handle, session) :=
    perform_of_found submitted (by simp [present]) (Value.dedupKey?_of_ref present)
      ((find?_of_some here _ _).trans known)
  obtain ⟨binding, bound⟩ := solitary.recorded.bound_of_find? here known
  refine ⟨found, ?_⟩
  rw [enrolment?_of_entry (entry?_of_submission submitted present (by rw [found])),
    if_neg (by simp [bound])]

theorem Solitary.perform_accepted (permitted : scope.permits stem = true)
    (vacant : registry.find? stem (value.key?.getD (.ref ref)) = none) :
    session.perform (.registerNew number stem value) =
      (.name ((session.desk registry).nextHandle stem),
        session.put number (((session.desk registry).issue stem).enroll
          ((session.desk registry).nextHandle stem) (value.key?.getD (.ref ref)) ref value)) ∧
      session.enrolment? (.registerNew number stem value) =
        some ⟨number, stem, value.key?.getD (.ref ref), (session.desk registry).nextHandle stem⟩ := by
  obtain ⟨registry', here', -, admits, -⟩ := solitary.registry
  obtain rfl : registry = registry' := Option.some.inj (here.symm.trans here')
  have submitted : session.submission? (.registerNew number stem value) =
      some ⟨number, .stem stem, value⟩ := rfl
  have entered := perform_registerNew_of_vacant solitary.sound here present vacant
  rw [admits stem, permitted, if_pos rfl] at entered
  refine ⟨entered, ?_⟩
  rw [enrolment?_of_entry (entry?_of_submission submitted present (congrArg Prod.fst entered)),
    if_pos (solitary.sound.binding?_next rfl)]
  rfl

end Own

/-- **A registration at the registry** is answered as it should be. -/
theorem Solitary.perform_own (solitary : session.Solitary number table scope log offers)
    (stem : String) (value : Value) :
    (session.perform (.registerNew number stem value)).2.Solitary number table scope
      (log ++ (session.enrolment? (.registerNew number stem value)).toList)
      (offers ++ (offer? scope number (.registerNew number stem value)).toList) ∧
    Answered scope number
      (log ++ (session.enrolment? (.registerNew number stem value)).toList) stem value
      (session.perform (.registerNew number stem value)).1 := by
  obtain ⟨registry, here, -⟩ := solitary.registry
  have sound := sound_of_changes
    (perform_changes solitary.sound (.registerNew number stem value)) solitary.sound
  have recorded := solitary.recorded.perform solitary.sound (.registerNew number stem value)
  cases present : value.ref? with
  | none =>
      have failed : session.perform (.registerNew number stem value) =
          (.failed (.missingRef stem), session) :=
        perform_registerNew_of_unreferenced here present
      have offerless : offer? scope number (.registerNew number stem value) = none := by
        simp [offer?, present]
      rw [enrolment?_of_failed failed, offerless, failed, Option.toList_none, Option.toList_none,
        List.append_nil, List.append_nil]
      exact ⟨solitary, fun _ => rfl, fun ref other => by simp [present] at other,
        fun ref other => by simp [present] at other⟩
  | some ref =>
      cases permitted : scope.permits stem with
      | false =>
          have failed := solitary.perform_refused here present permitted
          have offerless : offer? scope number (.registerNew number stem value) = none := by
            simp [offer?, permitted]
          rw [enrolment?_of_failed failed, offerless, failed, Option.toList_none,
            Option.toList_none, List.append_nil, List.append_nil]
          exact ⟨solitary, fun other => by simp [present] at other, fun _ _ _ => rfl,
            fun _ _ granted => by simp [permitted] at granted⟩
      | true =>
          have offered : offer? scope number (.registerNew number stem value) =
              some ⟨stem, value.key?.getD (.ref ref), ref⟩ := by
            simp [offer?, present, permitted]
          rw [offered, Option.toList_some]
          cases known : registry.find? stem (value.key?.getD (.ref ref)) with
          | some handle =>
              obtain ⟨found, unentered⟩ := solitary.perform_repeated here present known
              rw [unentered, found, Option.toList_none, List.append_nil]
              exact ⟨solitary.repeated permitted ((solitary.offered_iff here).mpr ⟨handle, known⟩),
                .of_entry present permitted ((solitary.recorded.find?_iff here).mp known)⟩
          | none =>
              have new : (stem, value.key?.getD (.ref ref)) ∉ offers.map Offer.place := by
                rw [solitary.offered_iff here, known]
                simp
              obtain ⟨accepted, entry⟩ := solitary.perform_accepted here present permitted known
              rw [entry] at recorded ⊢
              refine ⟨solitary.enter here stem _ ref value permitted new
                (congrArg Prod.snd accepted) sound recorded, ?_⟩
              rw [accepted]
              exact .of_entry present permitted
                (List.mem_append_right _ (List.mem_singleton.mpr rfl))

/-! ## Operations and runs -/

/-- What is neither offered nor forbidden happens elsewhere. -/
theorem elsewhere_of_spares {operation : Operation} (spared : operation.Spares number table)
    (unregistered : ∀ stem value, operation ≠ .registerNew number stem value) :
    ∀ submission, session.submission? operation = some submission →
      submission.registry ≠ number := by
  intro submission submitted same
  cases operation with
  | registerNew other stem value =>
      obtain rfl := Option.some.inj submitted
      obtain rfl : other = number := same
      exact unregistered stem value rfl
  | registerName other place value =>
      obtain ⟨handle, -, rfl⟩ := Option.map_eq_some_iff.mp submitted
      exact spared same
  | _ => exact absurd submitted (by simp [submission?])

theorem offer?_of_unregistered {operation : Operation}
    (unregistered : ∀ stem value, operation ≠ .registerNew number stem value) :
    offer? scope number operation = none := by
  cases operation with
  | registerNew other stem value =>
      refine if_neg ?_
      rintro ⟨rfl, -⟩
      exact unregistered stem value rfl
  | _ => rfl

/-- **One operation.** -/
theorem Solitary.perform (solitary : session.Solitary number table scope log offers)
    {operation : Operation} (spared : operation.Spares number table) :
    (session.perform operation).2.Solitary number table scope
      (log ++ (session.enrolment? operation).toList)
      (offers ++ (offer? scope number operation).toList) := by
  by_cases own : ∃ stem value, operation = .registerNew number stem value
  · obtain ⟨stem, value, rfl⟩ := own
    exact (solitary.perform_own stem value).1
  · have unregistered : ∀ stem value, operation ≠ .registerNew number stem value :=
      fun stem value same => own ⟨stem, value, same⟩
    rw [offer?_of_unregistered unregistered, Option.toList_none, List.append_nil]
    exact solitary.perform_foreign spared (elsewhere_of_spares spared unregistered)

/-- **A run.** Every value is answered by the entry that it has in the end. -/
theorem Solitary.run (solitary : session.Solitary number table scope log offers)
    {operations : List Operation} (spared : ∀ operation ∈ operations, operation.Spares number table) :
    (session.run operations).2.Solitary number table scope
      (log ++ session.enrolments operations)
      (offers ++ operations.filterMap (offer? scope number)) ∧
    ∀ (i : Nat) (stem : String) (value : Value),
      operations[i]? = some (.registerNew number stem value) →
        ∃ outcome, (session.run operations).1[i]? = some outcome ∧
          Answered scope number (log ++ session.enrolments operations) stem value outcome := by
  induction operations generalizing session log offers with
  | nil =>
      rw [enrolments, List.filterMap_nil, List.append_nil, List.append_nil]
      exact ⟨solitary, fun i stem value asked => by simp at asked⟩
  | cons operation rest ih =>
      have first := solitary.perform (spared operation List.mem_cons_self)
      obtain ⟨last, answers⟩ := ih first fun other among =>
        spared other (List.mem_cons_of_mem _ among)
      have offered : (operation :: rest).filterMap (offer? scope number) =
          (offer? scope number operation).toList ++ rest.filterMap (offer? scope number) := by
        rw [List.filterMap_cons]
        cases offer? scope number operation <;> rfl
      rw [enrolments, offered, ← List.append_assoc, ← List.append_assoc]
      refine ⟨last, fun i stem value asked => ?_⟩
      cases i with
      | zero =>
          obtain rfl := Option.some.inj asked
          exact ⟨_, rfl, (solitary.perform_own stem value).2.mono (List.subset_append_left _ _)⟩
      | succ i => exact answers i stem value asked

/-- Nobody has written to a table that no registry uses. -/
theorem column_of_unused {places : Nat → String → List Nat} (laid : session.Laid places)
    (unused : ∀ registry ∈ session.registries, registry.table ≠ table) :
    (session.ledger.table table).column stem = [] := by
  have unwritten : session.writers table = [] := by
    refine List.eq_nil_iff_forall_not_mem.mpr fun other writes => ?_
    obtain ⟨registry, here, ofTable⟩ := mem_writers_iff.mp writes
    exact unused registry (List.mem_of_getElem? here) ofTable
  have cover := laid.cover table stem
  rw [unwritten] at cover
  exact List.eq_nil_of_length_eq_zero (by simpa [Table.size] using cover.length_eq.symm)

/-- A registry that has just been opened, with a table that no other registry writes to. -/
theorem solitary_opened (before : List Operation) (table : Nat) (scope : Scope) (style : Style)
    (unused : ∀ registry ∈ (Session.run {} before).2.registries, registry.table ≠ table) :
    ((Session.run {} before).2.perform (.openRegistry table scope style)).2.Solitary
      (Session.run {} before).2.registries.length table scope (enrolments {} before) [] := by
  have recorded := recorded_run before
  have sound := sound_run before
  obtain ⟨places, laid⟩ := laid_of_changes (run_changes sound_empty before)
  generalize (Session.run {} before).2 = session at *
  generalize enrolments {} before = log at *
  have mine : entriesOf log session.registries.length = [] :=
    List.filter_eq_nil_iff.mpr fun entry among ours =>
      Nat.ne_of_lt (recorded.opened entry among) (of_decide_eq_true ours)
  have under : ∀ stem, entriesUnder log session.registries.length stem = [] := by
    intro stem
    unfold entriesUnder
    rw [mine]
    rfl
  have opened := recorded.perform sound (.openRegistry table scope style)
  rw [enrolment?_of_none (entry?_of_unsubmitted rfl), Option.toList_none, List.append_nil] at opened
  refine ⟨sound, opened, ?_, ⟨_, List.getElem?_concat_length, rfl, fun stem => Bool.false_or _,
    fun stem => by rw [under]; rfl⟩, by rw [mine]; rfl, fun _ among => absurd among List.not_mem_nil,
    fun stem => by rw [under]; rfl, fun stem => ?_⟩
  · intro other registry here ofTable
    rw [show ((session.perform (.openRegistry table scope style)).2).registries[other]? = _ from
      getElem?_opened _ _ _] at here
    split at here
    · assumption
    · exact absurd ofTable (unused registry (List.mem_of_getElem? here))
  · show ((session.ledger.table table).column stem).map some = _
    rw [column_of_unused laid unused, under]
    rfl

end Session

end NameScope
