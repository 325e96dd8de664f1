import NameScope.Proofs.Layout
import NameScope.Proofs.Standalone

/-!
# Registries that share a table

Registries that write to one table and are asked for their own names only do not notice each
other: whatever the order in which their requests come, each of them answers and binds what it
would by itself. What is left of the others is where its references stand in the table
(`Attributed.shared_table`).
-/

namespace NameScope

/-- Open a registry in each scope, all on one table. -/
def opening (table : Nat) (stores : List (Scope × Style)) : List Instruction :=
  stores.map fun store => .openRegistry table store.1 store.2

namespace Interleaving

/-- All requests go to the first registry. -/
def toFirst (requests : List (Request Label)) : Interleaving := requests.map (0, ·)

theorem share_toFirst (requests : List (Request Label)) :
    share 0 (toFirst requests) = requests := by
  have all : (toFirst requests).filter (·.1 = 0) = toFirst requests := by
    refine List.filter_eq_self.mpr fun pair among => decide_eq_true ?_
    obtain ⟨request, -, rfl⟩ := List.mem_map.mp among
    rfl
  unfold share
  rw [all]
  simp [toFirst, Function.comp_def]

theorem answers_toFirst {requests : List (Request Label)} {reports : List Report}
    (each : reports.length = requests.length) :
    answers 0 (toFirst requests) reports = reports.map (·.reply.map Showing.outline) := by
  have all : ((toFirst requests).zip reports).filter (·.1.1 = 0) =
      (toFirst requests).zip reports := by
    refine List.filter_eq_self.mpr fun pair among => decide_eq_true ?_
    obtain ⟨request, -, first⟩ := List.mem_map.mp (List.of_mem_zip among).1
    rw [← first]
  have places : reports.length ≤ (toFirst requests).length := by
    unfold toFirst
    rw [List.length_map, each]
  unfold answers
  rw [all]
  calc ((toFirst requests).zip reports).map (fun pair => pair.2.reply.map Showing.outline)
      = (((toFirst requests).zip reports).map Prod.snd).map (·.reply.map Showing.outline) := by
        rw [List.map_map]
        rfl
    _ = reports.map (·.reply.map Showing.outline) := by rw [List.map_snd_zip places]

end Interleaving

namespace Titled.Session

variable {session : Session}

/-- Registries that have just been opened. -/
def opened (table : Nat) (stores : List (Scope × Style)) : Session where
  registries := stores.map fun store =>
    { allocator := { scope := store.1 }, table, style := store.2 }

theorem run_opening (table : Nat) (stores : List (Scope × Style)) (session : Session) :
    (session.run (opening table stores)).2 =
      { session with registries := session.registries ++ (opened table stores).registries } := by
  induction stores generalizing session with
  | nil =>
      show session = _
      simp [opened]
  | cons store rest ih =>
      have first : opening table (store :: rest) =
          .openRegistry table store.1 store.2 :: opening table rest := rfl
      rw [first, run_cons]
      simp only [ih]
      simp [step, perform, opened]

theorem owned_opened (table : Nat) (stores : List (Scope × Style)) :
    (opened table stores).Owned := by
  intro number registry here
  obtain ⟨store, -, fresh⟩ := List.mem_map.mp (List.mem_of_getElem? here)
  rw [← fresh]
  exact fun stem title among => absurd among List.not_mem_nil

/-- A registry that is new is by itself in its scope. -/
theorem standalone?_opened (table : Nat) {stores : List (Scope × Style)} {number : Nat}
    {scope : Scope} {style : Style} (here : stores[number]? = some (scope, style)) :
    (opened table stores).standalone? number = some { allocator := { scope } } := by
  refine standalone?_eq_some_iff.mpr ⟨{ allocator := { scope }, table, style }, ?_, rfl⟩
  show (stores.map _)[number]? = _
  rw [List.getElem?_map, here]
  rfl

/-! ## Tables -/

theorem tables_carryOut (number : Nat) (registry : Registry) (verdict : Verdict Title) :
    (session.carryOut number registry verdict).2.registries.map Registry.table =
      session.registries.map Registry.table := by
  have issued : ∀ (session : Session) (title : Title),
      (session.issue number title).registries.map Registry.table =
        session.registries.map Registry.table := by
    intro session title
    have same : ∀ registry : Registry, (registry.advance title.stem).table = registry.table :=
      fun _ => rfl
    exact map_modify_of_same same _ _
  have enrolled : ∀ (session : Session) (title : Title) (key : Key) (ref : Ref) (value : Value),
      (session.enroll number registry.table title key ref value).registries.map Registry.table =
        session.registries.map Registry.table := by
    intro session title key ref value
    have same : ∀ registry : Registry,
        (registry.record title.stem key title).table = registry.table := fun _ => rfl
    exact map_modify_of_same same _ _
  cases verdict with
  | reply answer => rfl
  | issue stem => exact issued session _
  | enter stem key ref value => exact (enrolled _ _ key ref value).trans (issued session _)
  | enroll title key ref value => exact enrolled session title key ref value

/-- Requests leave the registries at their tables. -/
theorem tables_run (session : Session) (requests : Interleaving) :
    (session.run requests.instructions).2.registries.map Registry.table =
      session.registries.map Registry.table := by
  induction requests generalizing session with
  | nil => rfl
  | cons head rest ih =>
      obtain ⟨number, request⟩ := head
      rw [Interleaving.instructions_cons, run_cons]
      refine (ih _).trans ?_
      show (session.perform (.ask number (request.map (Label.title number)))).2.registries.map _ = _
      cases here : session.registries[number]? with
      | none => rw [perform_ask_of_none session here]
      | some registry =>
          rw [perform_ask session here]
          exact tables_carryOut number registry _

end Titled.Session

namespace Attributed

variable {attributed : Attributed}

/-- Instructions make changes to the session. -/
theorem Coherent.run_changes (coherent : attributed.Coherent) (instructions : List Instruction) :
    Session.Changes attributed.session (attributed.run instructions).2.session := by
  induction instructions generalizing attributed with
  | nil => exact .refl
  | cons instruction rest ih =>
      have first : Session.Changes attributed.session (attributed.step instruction).2.session := by
        rw [session_step]
        exact Session.perform_changes coherent.sound _
      exact first.trans (ih (coherent.step instruction).1)

/-- A registry has its names in the order in which they were bound. -/
theorem Coherent.members_sublist (coherent : attributed.Coherent) (number : Nat) (stem : String) :
    (attributed.session.members number stem).Sublist
      attributed.session.ledger.bindings.keys := by
  cases here : attributed.session.registries[number]? with
  | none =>
      rw [Session.members_of_none here]
      exact List.nil_sublist _
  | some registry =>
      rw [Session.members_of_some here]
      exact ((coherent.grouped registry (List.mem_of_getElem? here)).group stem).1

/-- The session in which registries have been opened on one table. -/
def opened (table : Nat) (stores : List (Scope × Style)) : Attributed :=
  (run {} (opening table stores)).2

variable (table : Nat) (stores : List (Scope × Style))

theorem coherent_opened : (opened table stores).Coherent :=
  (run_titled (opening table stores)).1

theorem titled_opened : (opened table stores).titled = Titled.Session.opened table stores := by
  obtain ⟨-, -, titled⟩ := run_titled (opening table stores)
  unfold opened
  rw [titled, Titled.Session.run_opening]
  rfl

/-- **Each registry goes its own way.** -/
theorem run_share {number : Nat} {scope : Scope} {style : Style}
    (here : stores[number]? = some (scope, style)) (requests : Interleaving) :
    requests.answers number ((opened table stores).run requests.instructions).1 =
        (Standalone.run { allocator := { scope } } (requests.share number)).1.map
          (·.map (Outline.map (Label.title number))) ∧
      ((opened table stores).run requests.instructions).2.values number =
        regroup (Label.title number)
          (Standalone.run { allocator := { scope } } (requests.share number)).2.values := by
  obtain ⟨coherent, reports, titled⟩ := (coherent_opened table stores).run requests.instructions
  have owned := Titled.Session.owned_opened table stores
  obtain ⟨answers, last⟩ := owned.run (Titled.Session.standalone?_opened table here) requests
  rw [titled_opened] at reports titled
  refine ⟨reports ▸ answers, ?_⟩
  rw [coherent.values_eq, titled]
  exact (owned.run_owned requests).values_eq last

theorem writers_run (requests : Interleaving) :
    ((opened table stores).run requests.instructions).2.session.writers table =
      List.range stores.length := by
  obtain ⟨-, -, titled⟩ := (coherent_opened table stores).run requests.instructions
  have tables := (opened table stores).titled.tables_run requests
  rw [← titled, titled_opened] at tables
  generalize ((opened table stores).run requests.instructions).2 = last at tables
  have tables : (last.session.registries.map last.titledRegistry).map Titled.Registry.table =
    (stores.map _).map Titled.Registry.table := tables
  rw [List.map_map, List.map_map] at tables
  have count := congrArg List.length tables
  rw [List.length_map, List.length_map] at count
  unfold Session.writers
  rw [count]
  refine List.filter_eq_self.mpr fun number inside => ?_
  have inside : number < stores.length := List.mem_range.mp inside
  have there := congrArg (·[number]?) tables
  simp only [List.getElem?_map, List.getElem?_eq_getElem inside] at there
  obtain ⟨registry, here, ofTable⟩ := Option.map_eq_some_iff.mp there
  rw [here]
  exact decide_eq_true ofTable

/-- **Sharing a table.** Registries on one table are asked for their own names, in any order. What
each of them answers, and which names it has bound in which order, is what it would be if the
registry were there alone with a table of its own: only the indices differ. Under each stem,
those of a registry go up in the order in which its names were bound, and those of all
registries are the indices of the table, each used once. -/
theorem shared_table (requests : Interleaving) :
    let full := (opened table stores).run requests.instructions
    full.2.titles.Nodup ∧
    (∀ number scope style, stores[number]? = some (scope, style) →
      let own := requests.share number
      let alone := (opened table [(scope, style)]).run (Interleaving.toFirst own).instructions
      requests.answers number full.1 = alone.1.map (·.reply.map fun showing =>
        showing.outline.map (Title.issuedBy number)) ∧
      full.2.values number = regroup (Title.issuedBy number) (alone.2.values 0)) ∧
    ∃ places : Nat → String → List Nat, ∀ stem,
      (∀ number,
        (full.2.session.members number stem).Sublist full.2.session.ledger.bindings.keys ∧
        (full.2.session.members number stem).map full.2.session.ledger.slot? =
          (places number stem).map (fun index => some ⟨stem, index⟩) ∧
        (places number stem).Pairwise (· < ·)) ∧
      ((List.range stores.length).flatMap (places · stem)).Perm
        (List.range ((full.2.session.ledger.table table).size stem)) := by
  intro full
  have opened := coherent_opened table stores
  have coherent := (opened.run requests.instructions).1
  refine ⟨coherent.distinct, ?_, ?_⟩
  · intro number scope style here own alone
    have first : [(scope, style)][0]? = some (scope, style) := rfl
    obtain ⟨answers, values⟩ := run_share table stores here requests
    obtain ⟨answers', values'⟩ := run_share table _ first (Interleaving.toFirst own)
    have each : alone.1.length = own.length := by
      rw [length_run]
      unfold Interleaving.instructions Interleaving.toFirst
      rw [List.length_map, List.length_map]
    rw [Interleaving.share_toFirst] at answers' values'
    rw [Interleaving.answers_toFirst each] at answers'
    refine ⟨?_, ?_⟩
    · have moved := congrArg (List.map fun reply : Reply (Outline Title) =>
        reply.map (Outline.map (Title.issuedBy number))) answers'
      simp only [List.map_map, Function.comp_def, Reply.map_map] at moved
      exact answers.trans moved.symm
    · rw [values, values', regroup_regroup]
      rfl
  · have changes : Session.Changes {} full.2.session :=
      (coherent_empty.run_changes (opening table stores)).trans
        (opened.run_changes requests.instructions)
    obtain ⟨places, laid⟩ := Session.laid_of_changes changes
    refine ⟨places, fun stem => ⟨fun number => ⟨coherent.members_sublist number stem,
      laid.slots number stem, laid.increasing number stem⟩, ?_⟩⟩
    rw [← writers_run table stores requests]
    exact laid.cover table stem

/-- Two registries take turns under "x"; the first one is asked again for a value that it has, and
the second one binds a name that it gave out before. -/
theorem shared_table_of_two :
    let stores : List (Scope × Style) := [({}, {}), ({ allowed := some ["x"] }, {})]
    let inline (id : Nat) : Value := .inline (some ⟨id, .unit⟩)
    let requests : Interleaving := [(0, .registerNew "x" (inline 0)), (1, .newName "x"),
      (1, .registerNew "x" (inline 0)), (0, .registerNew "x" (inline 0)),
      (0, .registerNew "x" (inline 1)), (1, .registerName ⟨⟨"x0"⟩, "x"⟩ (inline 2)),
      (1, .newName "y")]
    let full := (opened 0 stores).run requests.instructions
    let alone := (opened 0 [({ allowed := some ["x"] }, {})]).run
      (Interleaving.toFirst (requests.share 1)).instructions
    requests.answers 1 full.1 = alone.1.map (·.reply.map fun showing =>
      showing.outline.map (Title.issuedBy 1)) ∧
    full.2.values 1 = [("x", [⟨1, ⟨"x1"⟩, "x"⟩, ⟨1, ⟨"x0"⟩, "x"⟩])] ∧
    full.2.values 1 = regroup (Title.issuedBy 1) (alone.2.values 0) ∧
    (full.2.session.members 1 "x").map full.2.session.ledger.slot? =
      [some ⟨"x", 1⟩, some ⟨"x", 3⟩] ∧
    (alone.2.session.members 0 "x").map alone.2.session.ledger.slot? =
      [some ⟨"x", 0⟩, some ⟨"x", 1⟩] := by
  intro stores inline requests full alone
  obtain ⟨-, each, -⟩ := shared_table 0 stores requests
  obtain ⟨answers, values⟩ := each 1 { allowed := some ["x"] } {} rfl
  exact ⟨answers, by decide +kernel, values, by decide +kernel, by decide +kernel⟩

end Attributed

end NameScope
