import NameScope.Proofs.Issuance

/-!
# Nested scopes keep apart

Scopes lie inside each other to any depth, and a scope knows the lists of all scopes around
it. An allocator looks at them when it allocates under a stem for the first time and never
again, which comes to the same as looking at them each time: in every session, a stem is
admitted exactly if the scope permits it (`Session.faithful_run`). So what an allocator
allocates in the course of a run lies under stems that its scope permits, and two allocators
whose scopes are nested allocate under different stems if the outer scope has a list with
something on it (`Session.allocated_apart_of_encloses`).
-/

namespace NameScope

namespace Scope

/-- The second scope lies inside the first one, at any depth. -/
inductive Encloses (outer : Scope) : Scope → Prop
  | child (scope : Scope) : Encloses outer (scope.placeIn outer)
  | deeper {middle : Scope} (scope : Scope) :
      Encloses outer middle → Encloses outer (scope.placeIn middle)

variable {outer inner : Scope} {stem : String}

@[simp] theorem reserved_placeIn (scope parent : Scope) (stem : String) :
    (scope.placeIn parent).reserved stem = (lists parent.allowed stem || parent.reserved stem) :=
  rfl

/-- What a scope lists is reserved in all scopes inside it, whatever these list. -/
theorem Encloses.reserved (encloses : outer.Encloses inner)
    (listed : lists outer.allowed stem = true) : inner.reserved stem = true := by
  induction encloses with
  | child scope => rw [reserved_placeIn, listed, Bool.true_or]
  | deeper scope encloses ih => rw [reserved_placeIn, ih, Bool.or_true]

/-- A scope with something on its list permits only what it lists. -/
theorem lists_of_permits {stems : List String} (restricted : outer.allowed = some stems)
    (occupied : stems ≠ []) (permitted : outer.permits stem = true) :
    lists outer.allowed stem = true := by
  unfold permits excludes at permitted
  unfold lists
  rw [restricted] at permitted ⊢
  simp only [Option.any_some, Bool.and_eq_true, Bool.not_eq_true', Bool.and_eq_false_iff,
    Bool.not_eq_false'] at permitted ⊢
  rcases permitted.2 with empty | listed
  · exact absurd (List.isEmpty_iff.mp empty) occupied
  · exact listed

/-- No stem is permitted both in a scope with something on its list and in one inside it. -/
theorem Encloses.not_permits (encloses : outer.Encloses inner) {stems : List String}
    (restricted : outer.allowed = some stems) (occupied : stems ≠ [])
    (permitted : outer.permits stem = true) : inner.permits stem = false := by
  have reserved := encloses.reserved (lists_of_permits restricted occupied permitted)
  unfold permits
  rw [reserved]
  rfl

end Scope

/-! ## The allocators of a session -/

open Allocator (Allocation identAt)

/-- Where a session has an allocator: by itself, or in a registry. -/
inductive Site where
  | alone (number : Nat)
  | registry (number : Nat)
deriving DecidableEq

/-- The allocator that an operation may have an identifier from. -/
def Operation.site? : Operation → Option Site
  | .allocate number _ => some (.alone number)
  | operation => operation.registry?.map .registry

namespace Session

/-- The allocator of a site. -/
def allocator? (session : Session) : Site → Option Allocator
  | .alone number => session.allocators[number]?
  | .registry number => session.registries[number]?.map Registry.allocator

@[simp] theorem allocator?_alone (session : Session) (number : Nat) :
    session.allocator? (.alone number) = session.allocators[number]? := rfl

@[simp] theorem allocator?_registry (session : Session) (number : Nat) :
    session.allocator? (.registry number) = session.registries[number]?.map Registry.allocator :=
  rfl

/-- The identifiers that are allocated for the names given out in one operation. -/
def namings (session : Session) (operation : Operation) : List Allocation :=
  ((session.perform operation).2.ledger.handles.drop session.ledger.handles.length).map
    fun handle => ⟨handle.stem, handle.ident⟩

/-- What is allocated in one operation: the identifier that an allocator answers, or those of
the names that a registry gives out. -/
def allocates (session : Session) : Operation → List Allocation
  | .allocate number (.fresh stem) =>
    match (session.perform (.allocate number (.fresh stem))).1 with
    | .ident ident => [⟨stem, ident⟩]
    | _ => []
  | operation => session.namings operation

/-- What an allocator allocates in the course of operations, oldest first. -/
def allocated (session : Session) (site : Site) : List Operation → List Allocation
  | [] => []
  | operation :: rest =>
    (if operation.site? = some site then session.allocates operation else []) ++
      (session.perform operation).2.allocated site rest

variable {session later : Session} {operation : Operation} {site : Site}

/-- What an operation does to the allocators. -/
inductive Allots (session : Session) (operation : Operation) (later : Session) : Prop
  | kept : session.allocates operation = [] →
      (∀ other, later.allocator? other = session.allocator? other) → Allots session operation later
  | opened (site : Site) (scope : Scope) : session.allocates operation = [] →
      session.allocator? site = none →
      (∀ other, later.allocator? other =
        if other = site then some { scope } else session.allocator? other) →
      Allots session operation later
  | advanced {site : Site} {allocator : Allocator} {stem : String} :
      operation.site? = some site → session.allocator? site = some allocator →
      allocator.admits stem = true →
      session.allocates operation = [⟨stem, identAt stem (allocator.next stem)⟩] →
      (∀ other, later.allocator? other =
        if other = site then some (allocator.advance stem) else session.allocator? other) →
      Allots session operation later

theorem namings_of_same
    (same : (session.perform operation).2.ledger.handles = session.ledger.handles) :
    session.namings operation = [] := by
  unfold namings
  rw [same, List.drop_length, List.map_nil]

theorem allocators_atDesk (number : Nat) (work : Registering Handle) :
    (session.atDesk number work).2.allocators = session.allocators := by
  unfold atDesk
  split
  · rfl
  · split <;> rfl

/-- Putting back a desk changes the allocator of its registry. -/
theorem allocator?_put {number : Nat} {registry : Registry}
    (here : session.registries[number]? = some registry) (desk : Desk) (other : Site) :
    (session.put number desk).allocator? other =
      if other = .registry number then some desk.registry.allocator
      else session.allocator? other := by
  cases other with
  | alone place => rfl
  | registry place =>
      rw [allocator?_registry, allocator?_registry, getElem?_put here]
      by_cases ours : place = number
      · simp [ours]
      · simp [ours]

theorem allocator?_put_of_same {number : Nat} {registry : Registry}
    (here : session.registries[number]? = some registry) {desk : Desk}
    (same : desk.registry.allocator = registry.allocator) (other : Site) :
    (session.put number desk).allocator? other = session.allocator? other := by
  rw [allocator?_put here, same]
  split
  · rename_i ours
    rw [ours, allocator?_registry, here]
    rfl
  · rfl

/-- An operation that leaves the allocators by themselves alone. -/
theorem allots_of_namings (sound : session.ledger.Sound)
    (allocators : (session.perform operation).2.allocators = session.allocators)
    (namings : session.allocates operation = session.namings operation)
    (atRegistry : operation.site? = operation.registry?.map .registry) :
    Allots session operation (session.perform operation).2 := by
  have cases := perform_cases sound operation
  have none := @namings_of_same session operation
  have grown : ∀ handle, (session.perform operation).2.ledger.handles =
      session.ledger.handles ++ [handle] →
      session.allocates operation = [⟨handle.stem, handle.ident⟩] := by
    intro handle more
    rw [namings]
    unfold Session.namings
    rw [more, List.drop_left]
    rfl
  rw [← namings] at none
  generalize (session.perform operation).1 = outcome at cases
  generalize (session.perform operation).2 = later at cases allocators none grown ⊢
  cases cases with
  | aside allocators' tables nameless =>
      obtain rfl : allocators' = session.allocators := allocators
      exact .kept (none rfl) fun other => by cases other <;> rfl
  | found submitted here present known => exact .kept (none rfl) fun _ => rfl
  | opened scope table style =>
      refine .opened (.registry session.registries.length) scope (none rfl) ?_ fun other => ?_
      · simp
      · cases other with
        | alone place => rfl
        | registry place =>
            rw [allocator?_registry, allocator?_registry, getElem?_opened]
            by_cases new : place = session.registries.length
            · simp [new]
            · simp [new]
  | issued isNew here admitted =>
      refine .advanced (atRegistry.trans (by rw [isNew]; rfl)) ?_ admitted (grown _ rfl)
        (allocator?_put here _)
      rw [allocator?_registry, here]
      rfl
  | fresh submitted here present vacant admitted =>
      refine .advanced (atRegistry.trans (by rw [registry?_of_submission submitted]; rfl)) ?_
        admitted (grown _ rfl) (allocator?_put here _)
      rw [allocator?_registry, here]
      rfl
  | named submitted here present vacant unbound =>
      exact .kept (none rfl) (allocator?_put_of_same here rfl)

/-- An allocator that is not there allocates nothing. -/
theorem allots_allocate_of_none {number : Nat} (absent : session.allocators[number]? = none)
    (request : Allocator.Request) :
    Allots session (.allocate number request) (session.perform (.allocate number request)).2 := by
  have idle : session.perform (.allocate number request) = (.unknown, session) := by
    simp only [perform, atAllocator, absent]
  cases request with
  | existing ident =>
      rw [idle]
      exact .kept (namings_of_same (by rw [idle])) fun _ => rfl
  | fresh stem =>
      refine .kept ?_ fun other => by rw [idle]
      simp only [allocates, idle]

/-- Putting back an allocator that has not changed changes nothing. -/
theorem set_allocator {number : Nat} {allocator : Allocator}
    (here : session.allocators[number]? = some allocator) :
    { session with allocators := session.allocators.set number allocator } = session := by
  rw [← (List.getElem?_eq_some_iff.mp here).2, List.set_getElem_self]

/-- A name that exists is handed through. -/
theorem perform_existing {number : Nat} {allocator : Allocator}
    (here : session.allocators[number]? = some allocator) (ident : Ident) :
    session.perform (.allocate number (.existing ident)) = (.ident ident, session) := by
  simp only [perform, atAllocator, here, Allocator.provide]
  exact congrArg (Prod.mk _) (set_allocator here)

/-- An allocator that is asked for a name allocates the next one, or refuses and nothing
changes. -/
theorem perform_fresh {number : Nat} {allocator : Allocator}
    (here : session.allocators[number]? = some allocator) (stem : String) :
    session.perform (.allocate number (.fresh stem)) =
      if allocator.admits stem then
        (.ident (identAt stem (allocator.next stem)),
          { session with allocators := session.allocators.set number (allocator.advance stem) })
      else (.failed (.stemRefused stem), session) := by
  have ran := Allocator.run_allocate allocator stem
  rw [EStateM.run] at ran
  simp only [perform, atAllocator, here, Allocator.provide, ran]
  by_cases admitted : allocator.admits stem = true
  · simp only [admitted, if_true]
  · simp only [admitted]
    exact congrArg (Prod.mk _) (set_allocator here)

/-- An allocator by itself advances, or nothing changes. -/
theorem allots_allocate {number : Nat} {allocator : Allocator}
    (here : session.allocators[number]? = some allocator) (request : Allocator.Request) :
    Allots session (.allocate number request) (session.perform (.allocate number request)).2 := by
  have inside := (List.getElem?_eq_some_iff.mp here).1
  cases request with
  | existing ident =>
      have passed := perform_existing here ident
      rw [passed]
      exact .kept (namings_of_same (by rw [passed])) fun _ => rfl
  | fresh stem =>
      by_cases admitted : allocator.admits stem = true
      · have advanced := (perform_fresh here stem).trans (if_pos admitted)
        have atSite : (Operation.allocate number (.fresh stem)).site? = some (.alone number) := rfl
        refine .advanced atSite here admitted ?_ fun other => ?_
        · simp only [allocates, advanced]
        · rw [advanced]
          cases other with
          | registry place => rfl
          | alone place =>
              by_cases ours : place = number
              · subst ours
                simp [inside]
              · simp [ours, List.getElem?_set_ne (Ne.symm ours)]
      · have refused := (perform_fresh here stem).trans (if_neg admitted)
        refine .kept ?_ fun other => by rw [refused]
        simp only [allocates, refused]

/-- **One operation** opens an allocator, has one that admits a stem allocate its next
identifier, or leaves all as they are. -/
theorem allots_perform (sound : session.ledger.Sound) (operation : Operation) :
    Allots session operation (session.perform operation).2 := by
  cases operation with
  | openAllocator scope =>
      refine .opened (.alone session.allocators.length) scope (namings_of_same rfl) ?_
        fun other => ?_
      · simp
      · cases other with
        | registry place => rfl
        | alone place =>
            rw [allocator?_alone, allocator?_alone]
            show (session.allocators ++ [_])[place]? = _
            rw [getElem?_opened]
            by_cases new : place = session.allocators.length
            · simp [new]
            · simp [new]
  | allocate number request =>
      cases here : session.allocators[number]? with
      | none => exact allots_allocate_of_none here request
      | some allocator => exact allots_allocate here request
  | openTable => exact .kept (namings_of_same rfl) fun other => by cases other <;> rfl
  | openRegistry table scope style => exact allots_of_namings sound rfl rfl rfl
  | newName number stem => exact allots_of_namings sound (allocators_atDesk _ _) rfl rfl
  | registerNew number stem value => exact allots_of_namings sound (allocators_atDesk _ _) rfl rfl
  | registerName number place value =>
      refine allots_of_namings sound ?_ rfl rfl
      cases found : session.ledger.handles[place]? with
      | none => simp only [perform, found]
      | some handle =>
          simp only [perform, found]
          exact allocators_atDesk _ _
  | find number stem key =>
      refine allots_of_namings sound ?_ rfl rfl
      cases here : session.registries[number]? with
      | none => simp only [perform, here]
      | some registry => simp only [perform, here]

/-! ## Runs -/

/-- Every allocator admits what its scope permits, whatever it has allocated. -/
def Faithful (session : Session) : Prop :=
  ∀ site allocator, session.allocator? site = some allocator →
    ∀ stem, allocator.admits stem = allocator.scope.permits stem

theorem faithful_empty : Faithful {} := by
  intro site allocator here
  cases site with
  | alone number => exact absurd here (by simp)
  | registry number => exact absurd here (by simp)

theorem Allots.faithful (allots : Allots session operation later) (faithful : session.Faithful) :
    later.Faithful := by
  intro site allocator here stem
  cases allots with
  | kept quiet same => exact faithful site allocator (same site ▸ here) stem
  | opened new scope quiet vacant changed =>
      rw [changed] at here
      split at here
      · obtain rfl := Option.some.inj here
        rfl
      · exact faithful site allocator here stem
  | @advanced busy before asked atSite there admitted allocates changed =>
      rw [changed] at here
      split at here
      · obtain rfl := Option.some.inj here
        rw [Allocator.admits_advance admitted]
        exact faithful busy before there stem
      · exact faithful site allocator here stem

/-- An allocator stays where it is, in the scope that it was opened in. -/
theorem Allots.scope (allots : Allots session operation later) {allocator : Allocator}
    (here : session.allocator? site = some allocator) :
    ∃ kept, later.allocator? site = some kept ∧ kept.scope = allocator.scope := by
  cases allots with
  | kept quiet same => exact ⟨allocator, (same site).trans here, rfl⟩
  | opened new scope quiet vacant changed =>
      have other : site ≠ new := by
        rintro rfl
        exact absurd (here.symm.trans vacant) (by simp)
      exact ⟨allocator, by rw [changed, if_neg other, here], rfl⟩
  | @advanced busy before asked atSite there admitted allocates changed =>
      by_cases ours : site = busy
      · subst ours
        obtain rfl := Option.some.inj (here.symm.trans there)
        exact ⟨allocator.advance asked, by rw [changed, if_pos rfl], rfl⟩
      · exact ⟨allocator, by rw [changed, if_neg ours, here], rfl⟩

/-- What is allocated at a site comes from its allocator, under a stem that is permitted. -/
theorem Allots.permits (allots : Allots session operation later) (faithful : session.Faithful)
    (atSite : operation.site? = some site) {allocation : Allocation}
    (held : allocation ∈ session.allocates operation) :
    ∃ allocator, session.allocator? site = some allocator ∧
      allocator.scope.permits allocation.stem = true ∧
      ∃ index, allocation.ident = identAt allocation.stem index := by
  cases allots with
  | kept quiet same => exact absurd (quiet ▸ held) List.not_mem_nil
  | opened new scope quiet vacant changed => exact absurd (quiet ▸ held) List.not_mem_nil
  | @advanced busy before asked atSite' there admitted allocates changed =>
      obtain rfl : busy = site := Option.some.inj (atSite'.symm.trans atSite)
      rw [allocates, List.mem_singleton] at held
      obtain rfl := held
      exact ⟨before, there, faithful _ before there asked ▸ admitted, _, rfl⟩

theorem scope_run (sound : session.ledger.Sound) (operations : List Operation)
    {allocator : Allocator} (here : session.allocator? site = some allocator) :
    ∃ kept, (session.run operations).2.allocator? site = some kept ∧
      kept.scope = allocator.scope := by
  induction operations generalizing session allocator with
  | nil => exact ⟨allocator, here, rfl⟩
  | cons operation rest ih =>
      obtain ⟨next, there, same⟩ := (allots_perform sound operation).scope here
      obtain ⟨kept, last, same'⟩ :=
        ih (sound_of_changes (perform_changes sound operation) sound) there
      exact ⟨kept, last, same'.trans same⟩

/-- **A run** allocates at a site under stems that the scope of the site permits. -/
theorem permits_of_allocated (sound : session.ledger.Sound) (faithful : session.Faithful)
    {operations : List Operation} {allocation : Allocation}
    (held : allocation ∈ session.allocated site operations) :
    ∃ allocator, (session.run operations).2.allocator? site = some allocator ∧
      allocator.scope.permits allocation.stem = true ∧
      ∃ index, allocation.ident = identAt allocation.stem index := by
  induction operations generalizing session with
  | nil => exact absurd held List.not_mem_nil
  | cons operation rest ih =>
      have allots := allots_perform sound operation
      rcases List.mem_append.mp held with now | late
      · split at now
        · rename_i atSite
          obtain ⟨allocator, here, permitted, numbered⟩ := allots.permits faithful atSite now
          obtain ⟨kept, last, same⟩ := scope_run sound (operation :: rest) here
          exact ⟨kept, last, same ▸ permitted, numbered⟩
        · exact absurd now List.not_mem_nil
      · exact ih (sound_of_changes (perform_changes sound operation) sound)
          (allots.faithful faithful) late

/-- In every session an allocator admits exactly what its scope permits. -/
theorem faithful_run (operations : List Operation) : (run {} operations).2.Faithful := by
  suffices kept : ∀ session : Session, session.ledger.Sound → session.Faithful →
      (session.run operations).2.Faithful from kept {} sound_empty faithful_empty
  induction operations with
  | nil => exact fun session sound faithful => faithful
  | cons operation rest ih =>
      intro session sound faithful
      exact ih _ (sound_of_changes (perform_changes sound operation) sound)
        ((allots_perform sound operation).faithful faithful)

/-- **Nested scopes.** After any run, take two allocators, one in a scope with something on
its list and one in a scope inside it at any depth. In the course of the run they have
allocated under different stems; and if no stem among these ends in a digit, they have
allocated different identifiers. -/
theorem allocated_apart_of_encloses (operations : List Operation) (outer inner : Site)
    (above below : Allocator)
    (outerHere : (run {} operations).2.allocator? outer = some above)
    (innerHere : (run {} operations).2.allocator? inner = some below)
    (nested : above.scope.Encloses below.scope) (stems : List String)
    (listed : above.scope.allowed = some stems) (occupied : stems ≠ []) :
    (∀ a ∈ allocated {} outer operations, ∀ b ∈ allocated {} inner operations,
      a.stem ≠ b.stem) ∧
    ((∀ a ∈ allocated {} outer operations, Allocator.endsInDigit a.stem = false) →
      (∀ b ∈ allocated {} inner operations, Allocator.endsInDigit b.stem = false) →
      ∀ a ∈ allocated {} outer operations, ∀ b ∈ allocated {} inner operations,
        a.ident ≠ b.ident) := by
  have stemsApart : ∀ a ∈ allocated {} outer operations,
      ∀ b ∈ allocated {} inner operations, a.stem ≠ b.stem := by
    intro a inOuter b inInner same
    obtain ⟨above', here, permitted, -⟩ :=
      permits_of_allocated sound_empty faithful_empty inOuter
    obtain ⟨below', here', permitted', -⟩ :=
      permits_of_allocated sound_empty faithful_empty inInner
    obtain rfl := Option.some.inj (outerHere.symm.trans here)
    obtain rfl := Option.some.inj (innerHere.symm.trans here')
    rw [same] at permitted
    exact absurd permitted' (by simp [nested.not_permits listed occupied permitted])
  refine ⟨stemsApart, fun plain plain' a inOuter b inInner same => ?_⟩
  obtain ⟨-, -, -, i, identA⟩ := permits_of_allocated sound_empty faithful_empty inOuter
  obtain ⟨-, -, -, j, identB⟩ := permits_of_allocated sound_empty faithful_empty inInner
  rw [identA, identB] at same
  exact stemsApart a inOuter b inInner
    (Allocator.stem_eq_of_identAt_eq (plain a inOuter) (plain' b inInner) same)

/-- A scope with the list "p" has a registry in it, in which an allocator lies that lists "p"
itself. The inner two use "p" before the outer one does, and are refused. -/
theorem allocated_apart_of_three_scopes :
    let top : Scope := { allowed := some ["p"] }
    let middle : Scope := ({} : Scope).placeIn top
    let bottom : Scope := ({ allowed := some ["p", "q"] } : Scope).placeIn middle
    let operations : List Operation := [.openAllocator top, .openRegistry 0 middle {},
      .openAllocator bottom, .allocate 1 (.fresh "p"), .newName 0 "p", .allocate 1 (.fresh "q"),
      .allocate 0 (.fresh "p"), .allocate 1 (.fresh "p"), .allocate 0 (.fresh "q"),
      .newName 0 "q"]
    allocated {} (.alone 0) operations = [⟨"p", ⟨"p0"⟩⟩] ∧
    allocated {} (.registry 0) operations = [⟨"q", ⟨"q0"⟩⟩] ∧
    allocated {} (.alone 1) operations = [⟨"q", ⟨"q0"⟩⟩] ∧
    (∀ a ∈ allocated {} (.alone 0) operations, ∀ b ∈ allocated {} (.alone 1) operations,
      a.stem ≠ b.stem ∧ a.ident ≠ b.ident) := by
  intro top middle bottom operations
  let session := (run {} operations).2
  have above : session.allocator? (.alone 0) =
      some { scope := top, counters := (∅ : OrderedMap String Nat).insert "p" 1 } := by
    decide +kernel
  have below : session.allocator? (.alone 1) =
      some { scope := bottom, counters := (∅ : OrderedMap String Nat).insert "q" 1 } := by
    decide +kernel
  obtain ⟨stems, idents⟩ := allocated_apart_of_encloses operations (.alone 0) (.alone 1) _ _
    above below (.deeper _ (.child _)) ["p"] rfl (by decide)
  refine ⟨by decide +kernel, by decide +kernel, by decide +kernel, fun a inA b inB => ?_⟩
  exact ⟨stems a inA b inB, idents (by decide +kernel) (by decide +kernel) a inA b inB⟩

end Session

end NameScope
