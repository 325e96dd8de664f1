import NameScope.Proofs.Attribution

/-!
# A registry by itself

Of the names that a registry gave out, it is enough to know the labels; and of a slot, that
it lies under the right stem. A `Standalone` registry knows no more and has no table. As long
as registries are asked for their own names only, each of them goes the way of its standalone
(`Titled.Session.Owned.step`), and the requests to the others do not concern it
(`Titled.Session.Owned.standalone?_of_ne`).
-/

namespace NameScope

/-- What a name is to the registry that gave it out. -/
structure Label where
  ident : Ident
  stem : String
deriving DecidableEq

/-- The label of a title. -/
def Title.label (title : Title) : Label := ⟨title.ident, title.stem⟩

/-- The name with this title, if another registry had given it out. -/
def Title.issuedBy (number : Nat) (title : Title) : Title := { title with registry := number }

/-- The title of a label at a registry. -/
def Label.title (number : Nat) (label : Label) : Title := ⟨number, label.ident, label.stem⟩

theorem Label.title_inj {number : Nat} {label other : Label} :
    label.title number = other.title number ↔ label = other := by
  refine ⟨fun same => ?_, fun same => same ▸ rfl⟩
  exact congrArg Title.label same

/-- Groups of names, with the names called otherwise. -/
def regroup {ν μ : Type} (f : ν → μ) (groups : List (String × List ν)) : List (String × List μ) :=
  groups.map fun group => (group.1, group.2.map f)

theorem regroup_regroup {ν μ ξ : Type} (f : ν → μ) (g : μ → ξ) (groups : List (String × List ν)) :
    regroup g (regroup f groups) = regroup (g ∘ f) groups := by
  unfold regroup
  rw [List.map_map]
  refine List.map_congr_left fun group _ => ?_
  exact congrArg (Prod.mk group.1) List.map_map

/-- Ask a registry for something about names of its own. -/
def Instruction.own (number : Nat) (request : Request Label) : Instruction :=
  .ask number (request.map (Label.title number))

/-- A name with what it is bound to: the value, and the stem of the slot. -/
structure Outline (ν : Type) where
  name : ν
  bound? : Option (Value × String)
deriving DecidableEq

/-- The outline with the name called otherwise. -/
def Outline.map {ν μ : Type} (f : ν → μ) (outline : Outline ν) : Outline μ :=
  ⟨f outline.name, outline.bound?⟩

/-- What a binding says apart from the index. -/
def Binding.outline (binding : Binding) : Value × String := (binding.value, binding.slot.stem)

/-- A name as it is shown, but for the index. -/
def Showing.outline (showing : Showing) : Outline Title :=
  ⟨showing.title, showing.binding?.map Binding.outline⟩

/-! ## Requests to several registries -/

/-- Requests with the registry that each goes to, about names of its own. -/
abbrev Interleaving := List (Nat × Request Label)

namespace Interleaving

/-- What is to be done. -/
def instructions (requests : Interleaving) : List Instruction :=
  requests.map fun (number, request) => .own number request

/-- What a registry is asked. -/
def share (number : Nat) (requests : Interleaving) : List (Request Label) :=
  (requests.filter (·.1 = number)).map Prod.snd

/-- What a registry answers, without the indices. -/
def answers (number : Nat) (requests : Interleaving) (reports : List Report) :
    List (Reply (Outline Title)) :=
  ((requests.zip reports).filter (·.1.1 = number)).map (·.2.reply.map Showing.outline)

variable {number other : Nat} (request : Request Label) (rest : Interleaving) (report : Report)
  (reports : List Report)

theorem instructions_cons :
    instructions ((number, request) :: rest) = .own number request :: rest.instructions := rfl

theorem share_cons_self :
    share number ((number, request) :: rest) = request :: rest.share number := by
  simp [share]

theorem share_cons_of_ne (apart : other ≠ number) :
    share number ((other, request) :: rest) = rest.share number := by
  simp [share, apart]

theorem answers_cons_self :
    answers number ((number, request) :: rest) (report :: reports) =
      report.reply.map Showing.outline :: rest.answers number reports := by
  simp [answers]

theorem answers_cons_of_ne (apart : other ≠ number) :
    answers number ((other, request) :: rest) (report :: reports) =
      rest.answers number reports := by
  simp [answers, apart]

end Interleaving

/-! ## Standalone registries -/

/-- A registry that has nothing to do with others. -/
@[ext] structure Standalone where
  allocator : Allocator
  bound : OrderedMap String (OrderedMap Key Label) := ∅
  names : List Label := []
  bound? : Label → Option (Value × String) := fun _ => none

namespace Standalone

variable (alone : Standalone)

/-- The label of the next name under a stem. -/
def nextLabel (stem : String) : Label := ⟨Allocator.identAt stem (alone.allocator.next stem), stem⟩

/-- Give out a name. -/
def issue (label : Label) : Standalone :=
  { alone with
    allocator := alone.allocator.advance label.stem
    names := alone.names ++ [label] }

/-- Bind a name. -/
def enroll (label : Label) (key : Key) (value : Value) : Standalone :=
  { alone with
    bound := alone.bound.update label.stem fun group => (group.getD ∅).insert key label
    bound? := fun other => if other = label then some (value, label.stem) else alone.bound? other }

/-- What the registry sees. -/
def outlook : Outlook Label where
  admits := alone.allocator.admits
  find? stem key := ((alone.bound.get? stem).getD ∅).get? key
  isBound? label := if label ∈ alone.names then some (alone.bound? label).isSome else none
  stem := Label.stem
  text label := label.ident.text

/-- Answer a request as the verdict says. -/
def carryOut : Verdict Label → Reply Label × Standalone
  | .reply reply => (reply, alone)
  | .issue stem => (.name (alone.nextLabel stem), alone.issue (alone.nextLabel stem))
  | .enter stem key _ value =>
    (.name (alone.nextLabel stem),
      (alone.issue (alone.nextLabel stem)).enroll (alone.nextLabel stem) key value)
  | .enroll label key _ value => (.name label, alone.enroll label key value)

/-- A name with what it is bound to. -/
def outline (label : Label) : Outline Label := ⟨label, alone.bound? label⟩

/-- Answer a request, and show the names in the answer. -/
def step (request : Request Label) : Reply (Outline Label) × Standalone :=
  let (reply, later) := alone.carryOut (request.judge alone.outlook)
  (reply.map later.outline, later)

/-- Answer requests one after the other. -/
def run (alone : Standalone) : List (Request Label) → List (Reply (Outline Label)) × Standalone
  | [] => ([], alone)
  | request :: rest =>
    let (reply, later) := alone.step request
    let (replies, last) := later.run rest
    (reply :: replies, last)

/-- The names that are bound, stem by stem. -/
def values : List (String × List Label) :=
  alone.bound.entries.map fun entry => (entry.1, entry.2.values)

end Standalone

namespace Titled

/-- What a registry of the session is by itself. -/
def Session.standalone (session : Session) (number : Nat) (registry : Registry) : Standalone where
  allocator := registry.allocator
  bound := registry.bound.mapValues (·.mapValues Title.label)
  names := (session.titles.filter (·.registry = number)).map Title.label
  bound? label := (session.binding? (label.title number)).map Binding.outline

/-- What the registry of a number is by itself, if it is there. -/
def Session.standalone? (session : Session) (number : Nat) : Option Standalone :=
  session.registries[number]?.map (session.standalone number)

namespace Session

/-- Every registry has bound names of its own only. -/
def Owned (session : Session) : Prop :=
  ∀ (number : Nat) (registry : Registry), session.registries[number]? = some registry →
    ∀ stem, ∀ title ∈ (registry.group stem).values, title.registry = number

variable {session : Session} {number other : Nat} {registry : Registry}

theorem find?_standalone (stem : String) (key : Key) :
    (session.standalone number registry).outlook.find? stem key =
      (registry.find? stem key).map Title.label :=
  OrderedMap.get?_mapValues_groups stem key

theorem mem_names_iff {label : Label} :
    label ∈ (session.standalone number registry).names ↔ label.title number ∈ session.titles := by
  show label ∈ (session.titles.filter _).map _ ↔ _
  rw [List.mem_map]
  constructor
  · rintro ⟨title, among, rfl⟩
    obtain ⟨held, ours⟩ := List.mem_filter.mp among
    rwa [← of_decide_eq_true ours]
  · intro held
    exact ⟨label.title number, List.mem_filter.mpr ⟨held, decide_eq_true rfl⟩, rfl⟩

/-- A registry sees the same as its standalone. -/
theorem Owned.agree (owned : session.Owned) (here : session.registries[number]? = some registry)
    (request : Request Label) :
    (session.standalone number registry).outlook.Agree (Label.title number)
      (session.outlook registry) request := by
  refine ⟨rfl, fun key => ?_, fun label value isName => ⟨?_, rfl, rfl⟩⟩
  · rw [find?_standalone, Option.map_map]
    show registry.find? _ key = _
    cases found : registry.find? _ key with
    | none => rfl
    | some title =>
        have ours : title.registry = number :=
          owned number registry here _ title (OrderedMap.mem_values_iff.mpr ⟨key, found⟩)
        subst ours
        rfl
  · show (if _ then some _ else none) = if label ∈ (session.standalone number registry).names
      then some ((session.binding? (label.title number)).map Binding.outline).isSome else none
    simp only [mem_names_iff, Option.isSome_map]

theorem Owned.judge_eq (owned : session.Owned)
    (here : session.registries[number]? = some registry) (request : Request Label) :
    (request.map (Label.title number)).judge (session.outlook registry) =
      (request.judge (session.standalone number registry).outlook).map (Label.title number) :=
  Request.judge_map (owned.agree here request)

theorem standalone?_eq_some_iff {alone : Standalone} :
    session.standalone? number = some alone ↔
      ∃ registry, session.registries[number]? = some registry ∧
        session.standalone number registry = alone :=
  Option.map_eq_some_iff

/-- A registry has the same groups as its standalone. -/
theorem Owned.values_eq (owned : session.Owned) {alone : Standalone}
    (here : session.standalone? number = some alone) :
    session.values number = regroup (Label.title number) alone.values := by
  obtain ⟨registry, there, rfl⟩ := standalone?_eq_some_iff.mp here
  unfold values regroup
  rw [there]
  show registry.bound.entries.map _ = ((registry.bound.entries.map _).map _).map _
  rw [List.map_map, List.map_map]
  refine List.map_congr_left fun entry among => congrArg (Prod.mk entry.1) ?_
  show entry.2.values = (entry.2.mapValues Title.label).values.map _
  rw [OrderedMap.values_mapValues, List.map_map]
  have group : registry.group entry.1 = entry.2 :=
    congrArg (Option.getD · ∅) (OrderedMap.mem_entries_iff.mp among)
  refine (List.map_id entry.2.values).symm.trans (List.map_congr_left fun title held => ?_)
  rw [← owned number registry there entry.1 title (group ▸ held)]
  rfl

/-! ## Changes -/

section Changes

variable {alone : Standalone} (here : session.standalone? number = some alone)

include here

theorem standalone?_issue (label : Label) :
    (session.issue number (label.title number)).standalone? number = some (alone.issue label) := by
  obtain ⟨registry, there, rfl⟩ := standalone?_eq_some_iff.mp here
  refine standalone?_eq_some_iff.mpr ⟨registry.advance label.stem, ?_, ?_⟩
  · show (session.registries.modify number _)[number]? = _
    rw [List.getElem?_modify_eq, there]
    rfl
  · apply Standalone.ext
    · rfl
    · rfl
    · show ((session.titles ++ [label.title number]).filter _).map _ =
        (session.titles.filter _).map _ ++ [label]
      rw [List.filter_append, List.map_append]
      simp [Label.title, Title.label]
    · rfl

theorem standalone?_enroll (table : Nat) (label : Label) (key : Key) (ref : Ref) (value : Value) :
    (session.enroll number table (label.title number) key ref value).standalone? number =
      some (alone.enroll label key value) := by
  obtain ⟨registry, there, rfl⟩ := standalone?_eq_some_iff.mp here
  refine standalone?_eq_some_iff.mpr ⟨registry.record label.stem key (label.title number), ?_, ?_⟩
  · show (session.registries.modify number _)[number]? = _
    rw [List.getElem?_modify_eq, there]
    rfl
  · apply Standalone.ext
    · rfl
    · exact OrderedMap.mapValues_insert_groups label.stem key (label.title number)
    · rfl
    · funext question
      show (if question.title number = label.title number then some _ else _ : Option Binding).map
        Binding.outline = if question = label then _ else _
      simp only [Label.title_inj]
      split <;> rfl

end Changes

theorem standalone?_issue_of_ne (apart : other ≠ number) (label : Label) :
    (session.issue other (label.title other)).standalone? number = session.standalone? number := by
  unfold standalone?
  have same : (session.issue other (label.title other)).standalone number =
      session.standalone number := by
    funext registry
    apply Standalone.ext
    · rfl
    · rfl
    · show ((session.titles ++ [label.title other]).filter _).map _ =
        (session.titles.filter _).map _
      rw [List.filter_append]
      simp [Label.title, apart]
    · rfl
  rw [same]
  show (session.registries.modify other _)[number]?.map _ = _
  rw [List.getElem?_modify_ne _ _ apart]

theorem standalone?_enroll_of_ne (apart : other ≠ number) (table : Nat) (label : Label) (key : Key)
    (ref : Ref) (value : Value) :
    (session.enroll other table (label.title other) key ref value).standalone? number =
      session.standalone? number := by
  unfold standalone?
  have same : (session.enroll other table (label.title other) key ref value).standalone number =
      session.standalone number := by
    funext registry
    apply Standalone.ext
    · rfl
    · rfl
    · rfl
    · funext question
      have strange : question.title number ≠ label.title other :=
        fun same => apart (congrArg Title.registry same).symm
      show (if question.title number = label.title other then some _ else _ : Option Binding).map
        Binding.outline = _
      rw [if_neg strange]
      rfl
  rw [same]
  show (session.registries.modify other _)[number]?.map _ = _
  rw [List.getElem?_modify_ne _ _ apart]

/-- A verdict about names of its own takes a registry where its standalone goes. -/
theorem carryOut_own (here : session.registries[number]? = some registry)
    (verdict : Verdict Label) :
    (session.carryOut number registry (verdict.map (Label.title number))).1 =
        ((session.standalone number registry).carryOut verdict).1.map (Label.title number) ∧
      (session.carryOut number registry (verdict.map (Label.title number))).2.standalone? number =
        some ((session.standalone number registry).carryOut verdict).2 := by
  have alone : session.standalone? number = some (session.standalone number registry) :=
    standalone?_eq_some_iff.mpr ⟨registry, here, rfl⟩
  cases verdict with
  | reply answer => exact ⟨rfl, alone⟩
  | issue stem =>
      exact ⟨rfl, standalone?_issue alone ((session.standalone number registry).nextLabel stem)⟩
  | enter stem key ref value =>
      let label := (session.standalone number registry).nextLabel stem
      have issued := standalone?_issue alone label
      exact ⟨rfl, standalone?_enroll issued registry.table label key ref value⟩
  | enroll label key ref value =>
      exact ⟨rfl, standalone?_enroll alone registry.table label key ref value⟩

/-- A verdict about the names of one registry leaves all others alone. -/
theorem standalone?_carryOut_of_ne (apart : other ≠ number) (registry : Registry)
    (verdict : Verdict Label) :
    (session.carryOut other registry (verdict.map (Label.title other))).2.standalone? number =
      session.standalone? number := by
  cases verdict with
  | reply answer => rfl
  | issue stem => exact standalone?_issue_of_ne apart ⟨_, stem⟩
  | enter stem key ref value =>
      exact (standalone?_enroll_of_ne apart registry.table ⟨_, stem⟩ key ref value).trans
        (standalone?_issue_of_ne apart ⟨_, stem⟩)
  | enroll label key ref value =>
      exact standalone?_enroll_of_ne apart registry.table label key ref value

/-! ## Requests -/

/-- Giving out a name binds nothing. -/
theorem Owned.issue (owned : session.Owned) (number : Nat) (title : Title) :
    (session.issue number title).Owned := by
  intro place registry here
  have here : (session.registries.modify number _)[place]? = some registry := here
  rw [List.getElem?_modify] at here
  obtain ⟨old, there, changed⟩ := Option.map_eq_some_iff.mp here
  split at changed
  · subst changed
    exact owned place old there
  · subst changed
    exact owned place old there

theorem Owned.enroll (owned : session.Owned) (number table : Nat) (label : Label) (key : Key)
    (ref : Ref) (value : Value) :
    (session.enroll number table (label.title number) key ref value).Owned := by
  intro place registry here
  have here : (session.registries.modify number _)[place]? = some registry := here
  rw [List.getElem?_modify] at here
  obtain ⟨old, there, changed⟩ := Option.map_eq_some_iff.mp here
  split at changed
  · rename_i ours
    subst changed ours
    intro stem title among
    obtain ⟨asked, found⟩ := OrderedMap.mem_values_iff.mp among
    rw [Registry.group_record] at found
    split at found
    · rw [OrderedMap.get?_insert] at found
      split at found
      · rw [← Option.some.inj found]
        rfl
      · exact owned number old there _ title (OrderedMap.mem_values_iff.mpr ⟨asked, found⟩)
    · exact owned number old there stem title (OrderedMap.mem_values_iff.mpr ⟨asked, found⟩)
  · subst changed
    exact owned place old there

theorem Owned.carryOut (owned : session.Owned) (number : Nat) (registry : Registry)
    (verdict : Verdict Label) :
    (session.carryOut number registry (verdict.map (Label.title number))).2.Owned := by
  cases verdict with
  | reply answer => exact owned
  | issue stem => exact owned.issue number _
  | enter stem key ref value =>
      exact (owned.issue number _).enroll number registry.table ⟨_, stem⟩ key ref value
  | enroll label key ref value => exact owned.enroll number registry.table label key ref value

theorem perform_own_of_none (absent : session.registries[number]? = none)
    (request : Request Label) :
    session.perform (.own number request) = (.unknown, session) :=
  perform_ask_of_none session absent _

/-- Registries that are asked for their own names decide by themselves. -/
theorem Owned.perform_own (owned : session.Owned)
    (here : session.registries[number]? = some registry) (request : Request Label) :
    session.perform (.own number request) = session.carryOut number registry
      ((request.judge (session.standalone number registry).outlook).map (Label.title number)) := by
  rw [← owned.judge_eq here]
  exact perform_ask session here _

theorem Owned.perform (owned : session.Owned) (number : Nat) (request : Request Label) :
    (session.perform (.own number request)).2.Owned := by
  cases here : session.registries[number]? with
  | none =>
      rw [perform_own_of_none here]
      exact owned
  | some registry =>
      rw [owned.perform_own here]
      exact owned.carryOut number registry _

/-- **A request to another registry** does not concern a registry. -/
theorem Owned.standalone?_of_ne (owned : session.Owned) (apart : other ≠ number)
    (request : Request Label) :
    (session.perform (.own other request)).2.standalone? number = session.standalone? number := by
  cases here : session.registries[other]? with
  | none => rw [perform_own_of_none here]
  | some registry =>
      rw [owned.perform_own here]
      exact standalone?_carryOut_of_ne apart registry _

/-- **A request to a registry** takes it where its standalone goes, and is answered alike. -/
theorem Owned.step (owned : session.Owned) {alone : Standalone}
    (here : session.standalone? number = some alone) (request : Request Label) :
    (session.step (.own number request)).1.reply.map Showing.outline =
        (alone.step request).1.map (Outline.map (Label.title number)) ∧
      (session.step (.own number request)).2.standalone? number = some (alone.step request).2 := by
  obtain ⟨registry, there, rfl⟩ := standalone?_eq_some_iff.mp here
  obtain ⟨reply, later⟩ := carryOut_own there
    (request.judge (session.standalone number registry).outlook)
  rw [← owned.perform_own there] at reply later
  refine ⟨?_, later⟩
  obtain ⟨last, -, isLast⟩ := standalone?_eq_some_iff.mp later
  have shown : (session.step (.own number request)).1.reply =
      (session.perform (.own number request)).1.map
        (session.perform (.own number request)).2.showing := rfl
  -- names are shown as they stand after the step, so the standalone is to be read after it too
  have outlines : Showing.outline ∘ (session.perform (.own number request)).2.showing ∘
      Label.title number = Outline.map (Label.title number) ∘
        ((session.standalone number registry).step request).2.outline :=
    Eq.trans rfl (congrArg (fun alone : Standalone =>
      Outline.map (Label.title number) ∘ alone.outline) isLast)
  have outlined : ((session.standalone number registry).step request).1 =
      ((session.standalone number registry).carryOut
        (request.judge (session.standalone number registry).outlook)).1.map
          ((session.standalone number registry).step request).2.outline := rfl
  rw [shown, reply, outlined, Reply.map_map, Reply.map_map, Reply.map_map, ← outlines]
  rfl

/-! ## Runs -/

theorem Owned.run_owned (owned : session.Owned) (requests : Interleaving) :
    (session.run requests.instructions).2.Owned := by
  induction requests generalizing session with
  | nil => exact owned
  | cons head rest ih => exact ih (owned.perform head.1 head.2)

/-- **Whatever else is asked**, a registry goes the way of its standalone. -/
theorem Owned.run (owned : session.Owned) {alone : Standalone}
    (here : session.standalone? number = some alone) (requests : Interleaving) :
    requests.answers number (session.run requests.instructions).1 =
        (alone.run (requests.share number)).1.map (·.map (Outline.map (Label.title number))) ∧
      (session.run requests.instructions).2.standalone? number =
        some (alone.run (requests.share number)).2 := by
  induction requests generalizing session alone with
  | nil => exact ⟨rfl, here⟩
  | cons head rest ih =>
      obtain ⟨place, request⟩ := head
      have owned' : (session.step (.own place request)).2.Owned := owned.perform place request
      by_cases ours : place = number
      · subst ours
        obtain ⟨reply, later⟩ := owned.step here request
        obtain ⟨replies, last⟩ := ih owned' later
        rw [Interleaving.instructions_cons, run_cons, Interleaving.share_cons_self,
          Interleaving.answers_cons_self, reply, replies]
        exact ⟨rfl, last⟩
      · rw [Interleaving.instructions_cons, run_cons, Interleaving.share_cons_of_ne _ _ ours,
          Interleaving.answers_cons_of_ne _ _ _ _ ours]
        exact ih owned' ((owned.standalone?_of_ne ours request).trans here)

end Session

end Titled

end NameScope
