import NameScope.Proofs.Allocation
import NameScope.Proofs.Grouping
import NameScope.Proofs.Issuance
import NameScope.Proofs.Verdict

/-!
# Names by their titles

The number of a name depends on everything that was given out before it. A `Title` says what
the name is apart from that: which registry gave it out, with which identifier and under
which stem. An `Attributed` session keeps who gave out its names, takes instructions that
refer to names by titles, and reports with titles in the place of numbers. As no two of its
names have one title (`Attributed.Coherent`), the titles are all that has to be kept:
`Titled.Session` is a session without numbers that takes the same instructions.
-/

namespace NameScope

/-- What a name is apart from its number. -/
structure Title where
  /-- The registry that gave it out. -/
  registry : Nat
  ident : Ident
  stem : String
deriving DecidableEq

/-- The text of the name. -/
def Title.text (title : Title) : String := title.ident.text

/-- What a session is told to do, with names by their titles. -/
inductive Instruction where
  | openRegistry (table : Nat) (scope : Scope) (style : Style)
  | ask (registry : Nat) (request : Request Title)

/-- Whether an operation has to do with registries, and not with allocators that stand alone or
with the number of tables. -/
def Operation.ofRegistries : Operation → Bool
  | .openAllocator _ | .openTable | .allocate _ _ => false
  | .openRegistry _ _ _ | .newName _ _ | .registerNew _ _ _ | .registerName _ _ _ | .find _ _ _ =>
    true

/-- A name as it is shown: what it is, and what it is bound to. -/
structure Showing where
  title : Title
  binding? : Option Binding
deriving DecidableEq

/-- What comes of an instruction: the reply, and the references that stand afterwards under
the stem in question in the table of the registry that was asked. -/
structure Report where
  reply : Reply Showing
  column : List Ref
deriving DecidableEq

/-! ## Sessions without numbers -/

namespace Titled

section Modify

variable {α β : Type}

theorem map_modify {f : α → α} {g : α → β} {h : β → β} (along : ∀ a, g (f a) = h (g a))
    (items : List α) (place : Nat) :
    (items.modify place f).map g = (items.map g).modify place h := by
  apply List.ext_getElem?
  intro other
  simp only [List.getElem?_map, List.getElem?_modify]
  cases items[other]? with
  | none => rfl
  | some item =>
      by_cases here : place = other
      · simp [here, along]
      · simp [here]

theorem map_modify_of_same {f : α → α} {g : α → β} (same : ∀ a, g (f a) = g a)
    (items : List α) (place : Nat) : (items.modify place f).map g = items.map g := by
  rw [map_modify (h := id) same, List.modify_id]

theorem mem_modify {f : α → α} {items : List α} {place : Nat} {item : α}
    (among : item ∈ items.modify place f) : item ∈ items ∨ ∃ old ∈ items, item = f old := by
  obtain ⟨other, here⟩ := List.mem_iff_getElem?.mp among
  rw [List.getElem?_modify] at here
  obtain ⟨old, there, changed⟩ := Option.map_eq_some_iff.mp here
  have held := List.mem_of_getElem? there
  split at changed
  · exact .inr ⟨old, held, changed.symm⟩
  · exact .inl (changed ▸ held)

end Modify

/-- A registry that knows names by their titles. -/
structure Registry where
  allocator : Allocator
  bound : OrderedMap String (OrderedMap Key Title) := ∅
  table : Nat
  style : Style

namespace Registry

variable (registry : Registry)

/-- The names bound under a stem. -/
def group (stem : String) : OrderedMap Key Title := (registry.bound.get? stem).getD ∅

/-- The name bound under a stem for a key. -/
def find? (stem : String) (key : Key) : Option Title := (registry.group stem).get? key

/-- Take the next number of a stem. -/
def advance (stem : String) : Registry :=
  { registry with allocator := registry.allocator.advance stem }

/-- Remember a name under a stem for a key. -/
def record (stem : String) (key : Key) (title : Title) : Registry :=
  { registry with
    bound := registry.bound.update stem fun group => (group.getD ∅).insert key title }

/-- The title of the next name under a stem. -/
def nextTitle (number : Nat) (stem : String) : Title :=
  ⟨number, Allocator.identAt stem (registry.allocator.next stem), stem⟩

theorem bound_record (asked stem : String) (key : Key) (title : Title) :
    (registry.record asked key title).bound.get? stem =
      if stem = asked then some ((registry.group asked).insert key title)
      else registry.bound.get? stem :=
  OrderedMap.get?_update _ _ _ _

theorem group_record (asked stem : String) (key : Key) (title : Title) :
    (registry.record asked key title).group stem =
      if stem = asked then (registry.group asked).insert key title else registry.group stem := by
  unfold group
  rw [bound_record]
  split <;> rfl

end Registry

/-- A session that knows names by their titles. -/
@[ext] structure Session where
  registries : List Registry := []
  titles : List Title := []
  binding? : Title → Option Binding := fun _ => none
  table : Nat → Table := fun _ => {}

namespace Session

variable (session : Session)

/-- Give out a name. -/
def issue (number : Nat) (title : Title) : Session :=
  { session with
    registries := session.registries.modify number (·.advance title.stem)
    titles := session.titles ++ [title] }

/-- Bind a name to a value with the reference `ref`, and remember it for a key. -/
def enroll (number table : Nat) (title : Title) (key : Key) (ref : Ref) (value : Value) :
    Session :=
  { session with
    registries := session.registries.modify number (·.record title.stem key title)
    binding? := fun other =>
      if other = title then some ⟨value, ⟨title.stem, (session.table table).size title.stem⟩⟩
      else session.binding? other
    table := fun other =>
      if other = table then (session.table table).push title.stem ref else session.table other }

/-- What a registry of the session sees. -/
def outlook (registry : Registry) : Outlook Title where
  admits := registry.allocator.admits
  find? := registry.find?
  isBound? title :=
    if title ∈ session.titles then some (session.binding? title).isSome else none
  stem := Title.stem
  text := Title.text

/-- Answer a request as the verdict says. -/
def carryOut (number : Nat) (registry : Registry) : Verdict Title → Reply Title × Session
  | .reply reply => (reply, session)
  | .issue stem =>
    let title := registry.nextTitle number stem
    (.name title, session.issue number title)
  | .enter stem key ref value =>
    let title := registry.nextTitle number stem
    (.name title, (session.issue number title).enroll number registry.table title key ref value)
  | .enroll title key ref value =>
    (.name title, session.enroll number registry.table title key ref value)

/-- Do what is told. -/
def perform : Instruction → Reply Title × Session
  | .openRegistry table scope style =>
    (.opened session.registries.length, { session with
      registries := session.registries ++ [{ allocator := { scope }, table, style }] })
  | .ask number request =>
    match session.registries[number]? with
    | none => (.unknown, session)
    | some registry => session.carryOut number registry (request.judge (session.outlook registry))

theorem perform_ask_of_none {number : Nat} (absent : session.registries[number]? = none)
    (request : Request Title) : session.perform (.ask number request) = (.unknown, session) := by
  simp only [perform, absent]

theorem perform_ask {number : Nat} {registry : Registry}
    (here : session.registries[number]? = some registry) (request : Request Title) :
    session.perform (.ask number request) =
      session.carryOut number registry (request.judge (session.outlook registry)) := by
  simp only [perform, here]

/-- A name as it is shown. -/
def showing (title : Title) : Showing := ⟨title, session.binding? title⟩

/-- What stands under the stem in question. -/
def column : Instruction → List Ref
  | .openRegistry _ _ _ => []
  | .ask number request =>
    match session.registries[number]? with
    | none => []
    | some registry => (session.table registry.table).column (request.stem Title.stem)

/-- The names that a registry has bound, stem by stem. -/
def values (number : Nat) : List (String × List Title) :=
  match session.registries[number]? with
  | none => []
  | some registry => registry.bound.entries.map fun entry => (entry.1, entry.2.values)

/-- What comes of an instruction. -/
def report (instruction : Instruction) (reply : Reply Title) : Report :=
  ⟨reply.map session.showing, session.column instruction⟩

/-- Do what is told, and report what comes of it. -/
def step (instruction : Instruction) : Report × Session :=
  let (reply, later) := session.perform instruction
  (later.report instruction reply, later)

/-- Follow instructions one after the other. -/
def run (session : Session) : List Instruction → List Report × Session
  | [] => ([], session)
  | instruction :: rest =>
    let (report, later) := session.step instruction
    let (reports, last) := later.run rest
    (report :: reports, last)

theorem run_cons (instruction : Instruction) (rest : List Instruction) :
    session.run (instruction :: rest) =
      ((session.step instruction).1 :: ((session.step instruction).2.run rest).1,
        ((session.step instruction).2.run rest).2) :=
  rfl

theorem run_append (instructions rest : List Instruction) :
    session.run (instructions ++ rest) =
      ((session.run instructions).1 ++ ((session.run instructions).2.run rest).1,
        ((session.run instructions).2.run rest).2) := by
  induction instructions generalizing session with
  | nil => rfl
  | cons instruction instructions ih => rw [List.cons_append, run_cons, ih, run_cons]; rfl

theorem length_run (instructions : List Instruction) :
    (session.run instructions).1.length = instructions.length := by
  induction instructions generalizing session with
  | nil => rfl
  | cons instruction instructions ih => rw [run_cons, List.length_cons, List.length_cons, ih]

end Session

end Titled

/-! ## Attributed sessions -/

/-- A session, and who gave out its names. -/
structure Attributed where
  session : Session := {}
  /-- The registry that gave out the name of each number. -/
  issuers : List Nat := []

namespace Attributed

variable (attributed : Attributed)

/-- The title of a name. -/
def title (handle : Handle) : Title :=
  ⟨attributed.issuers[handle.id]?.getD 0, handle.ident, handle.stem⟩

/-- The titles of all names, by number. -/
def titles : List Title := attributed.session.ledger.handles.map attributed.title

/-- The operation that is meant by an instruction. -/
def operation : Instruction → Operation
  | .openRegistry table scope style => .openRegistry table scope style
  | .ask number (.newName stem) => .newName number stem
  | .ask number (.registerNew stem value) => .registerNew number stem value
  | .ask number (.registerName title value) =>
    .registerName number (attributed.titles.idxOf title) value
  | .ask number (.find stem key) => .find number stem key

/-- Go over to a session that an instruction leads to; new names come from the registry that
was asked. -/
def follow (later : Session) : Instruction → Attributed
  | .openRegistry _ _ _ => ⟨later, attributed.issuers⟩
  | .ask number _ =>
    ⟨later, attributed.issuers ++ List.replicate
      (later.ledger.handles.length - attributed.session.ledger.handles.length) number⟩

/-- Do what is told. -/
def perform (instruction : Instruction) : Reply Handle × Attributed :=
  let (outcome, later) := attributed.session.perform (attributed.operation instruction)
  (outcome.reply, attributed.follow later instruction)

/-- A name as it is shown. -/
def showing (handle : Handle) : Showing :=
  ⟨attributed.title handle, attributed.session.ledger.binding? handle⟩

/-- What stands under the stem in question. -/
def column : Instruction → List Ref
  | .openRegistry _ _ _ => []
  | .ask number request =>
    match attributed.session.registries[number]? with
    | none => []
    | some registry =>
      (attributed.session.ledger.table registry.table).column (request.stem Title.stem)

/-- The selection of all names that a registry has bound, by titles. -/
def values (number : Nat) : List (String × List Title) :=
  match attributed.session.registries[number]? with
  | none => []
  | some registry =>
    registry.selection.groups.entries.map fun group => (group.1, group.2.map attributed.title)

/-- What comes of an instruction. -/
def report (instruction : Instruction) (reply : Reply Handle) : Report :=
  ⟨reply.map attributed.showing, attributed.column instruction⟩

/-- Do what is told, and report what comes of it. -/
def step (instruction : Instruction) : Report × Attributed :=
  let (reply, later) := attributed.perform instruction
  (later.report instruction reply, later)

/-- Follow instructions one after the other. -/
def run (attributed : Attributed) : List Instruction → List Report × Attributed
  | [] => ([], attributed)
  | instruction :: rest =>
    let (report, later) := attributed.step instruction
    let (reports, last) := later.run rest
    (report :: reports, last)

theorem run_cons (instruction : Instruction) (rest : List Instruction) :
    attributed.run (instruction :: rest) =
      ((attributed.step instruction).1 :: ((attributed.step instruction).2.run rest).1,
        ((attributed.step instruction).2.run rest).2) :=
  rfl

theorem length_run (instructions : List Instruction) :
    (attributed.run instructions).1.length = instructions.length := by
  induction instructions generalizing attributed with
  | nil => rfl
  | cons instruction instructions ih => rw [run_cons, List.length_cons, List.length_cons, ih]

/-- The names given out are told apart by their titles, which say where they come from. -/
structure Coherent : Prop where
  sound : attributed.session.ledger.Sound
  grouped : ∀ registry ∈ attributed.session.registries,
    registry.Grouped attributed.session.ledger
  issuers : attributed.issuers.length = attributed.session.ledger.handles.length
  numbered : ∀ title ∈ attributed.titles, ∃ index,
    title.ident = Allocator.identAt title.stem index ∧
      index < attributed.session.next title.registry title.stem
  distinct : attributed.titles.Nodup

/-- The name with a title. -/
def handle? (title : Title) : Option Handle :=
  attributed.session.ledger.handles[attributed.titles.idxOf title]?

/-- A registry with its names by their titles. -/
def titledRegistry (registry : Registry) : Titled.Registry where
  allocator := registry.allocator
  bound := registry.bound.mapValues (·.mapValues attributed.title)
  table := registry.table
  style := registry.style

/-- What is left of the session without numbers. -/
def titled : Titled.Session where
  registries := attributed.session.registries.map attributed.titledRegistry
  titles := attributed.titles
  binding? title := (attributed.handle? title).bind attributed.session.ledger.binding?
  table := attributed.session.ledger.table

end Attributed

end NameScope
