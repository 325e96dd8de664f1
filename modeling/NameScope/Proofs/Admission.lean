import NameScope.Proofs.Nesting

/-!
# What an allocator answers

An allocator looks at its scope when the first name under a stem is asked for, and counts
from then on. What it answers needs neither: whatever has been done before, by itself and by
all others, a name under a stem is given out exactly if the scope grants the stem
(`Scope.Grants`), and it bears the number of names that the allocator has given out under
this stem (`Session.closed_form_of_allocation`).

The count is kept by every operation (`Session.Allots.numbers`), hence by every run
(`Session.numbers_run`).
-/

namespace NameScope

/-- Whether a scope grants a stem: no scope around it lists the stem, and its own list, if
there is one, is empty or lists the stem. -/
def Scope.Grants (scope : Scope) (stem : String) : Prop :=
  (∀ stems, some stems ∈ scope.enclosing → stem ∉ stems) ∧
    ∀ stems, scope.allowed = some stems → stems = [] ∨ stem ∈ stems

theorem Scope.reserved_eq_false_iff {scope : Scope} {stem : String} :
    scope.reserved stem = false ↔ ∀ stems, some stems ∈ scope.enclosing → stem ∉ stems := by
  unfold reserved lists
  simp only [List.any_eq_false]
  constructor
  · intro free stems among listed
    exact free (some stems) among (by simpa using listed)
  · rintro free list among listed
    cases list with
    | none => exact absurd listed (by simp)
    | some stems => exact free stems among (by simpa using listed)

theorem Scope.excludes_eq_false_iff {scope : Scope} {stem : String} :
    scope.excludes stem = false ↔
      ∀ stems, scope.allowed = some stems → stems = [] ∨ stem ∈ stems := by
  unfold excludes
  cases scope.allowed with
  | none => simp
  | some stems => simp [Classical.or_iff_not_imp_left]

theorem Scope.permits_iff {scope : Scope} {stem : String} :
    scope.permits stem = true ↔ scope.Grants stem := by
  unfold permits Grants
  rw [Bool.and_eq_true, Bool.not_eq_true', Bool.not_eq_true', reserved_eq_false_iff,
    excludes_eq_false_iff]

open Allocator (Allocation identAt)

namespace Allocator

/-- Allocate the next identifier under a stem, and look at the scope in any case. -/
def allocateChecked (stem : String) : EStateM Fault Allocator Ident := do
  let allocator ← get
  if allocator.scope.permits stem then
    set (allocator.advance stem)
    return identAt stem (allocator.next stem)
  else throw (.stemRefused stem)

theorem run_allocateChecked (allocator : Allocator) (stem : String) :
    (allocateChecked stem).run allocator =
      if allocator.scope.permits stem then
        .ok (identAt stem (allocator.next stem)) (allocator.advance stem)
      else .error (.stemRefused stem) allocator := by
  unfold allocateChecked
  rw [EStateM.run_bind, EStateM.run_get]
  by_cases permitted : allocator.scope.permits stem = true
  · simp only [permitted, if_true]
    rfl
  · simp only [permitted]
    rfl

end Allocator

/-- The identifier that is answered, by itself or of a name. -/
def Outcome.ident? : Outcome → Option Ident
  | .ident answer => some answer
  | .name handle => some handle.ident
  | _ => none

/-- The operation that asks for a new name at a site. -/
def Site.asking : Site → String → Operation
  | .alone number, stem => .allocate number (.fresh stem)
  | .registry number, stem => .newName number stem

namespace Session

/-- The site and the scope of the allocator that an operation opens. -/
def opens? (session : Session) : Operation → Option (Site × Scope)
  | .openAllocator scope => some (.alone session.allocators.length, scope)
  | .openRegistry _ scope _ => some (.registry session.registries.length, scope)
  | _ => none

/-- The number that the next name at a site gets under a stem. -/
def nextAt (session : Session) (site : Site) (stem : String) : Nat :=
  ((session.allocator? site).map (·.next stem)).getD 0

/-- What is allocated at a site in one operation. -/
def allocatesAt (session : Session) (site : Site) (operation : Operation) : List Allocation :=
  if operation.site? = some site then session.allocates operation else []

/-- What an allocator allocates under a stem in the course of operations, oldest first. -/
def allocatedUnder (session : Session) (site : Site) (stem : String)
    (operations : List Operation) : List Allocation :=
  (session.allocated site operations).filter (·.stem = stem)

variable {session later : Session} {operation : Operation} {site : Site} {allocator : Allocator}
  {stem : String}

/-! ## One operation -/

theorem nextAt_of_some (here : session.allocator? site = some allocator) (stem : String) :
    session.nextAt site stem = allocator.next stem := by
  unfold nextAt
  rw [here]
  rfl

theorem nextAt_congr (same : later.allocator? site = session.allocator? site) (stem : String) :
    later.nextAt site stem = session.nextAt site stem := by
  unfold nextAt
  rw [same]

theorem nextAt_empty (site : Site) (stem : String) : nextAt {} site stem = 0 := by
  cases site with
  | alone number => rfl
  | registry number => rfl

/-- **One operation** allocates the next identifiers at a site, and the numbers move on with
them. -/
theorem Allots.numbers (allots : Allots session operation later) (site : Site) (stem : String) :
    let new := (session.allocatesAt site operation).filter (·.stem = stem)
    new.map Allocation.ident =
        (List.range' (session.nextAt site stem) new.length).map (identAt stem) ∧
      later.nextAt site stem = session.nextAt site stem + new.length := by
  have none : session.allocates operation = [] → session.allocatesAt site operation = [] := by
    intro quiet
    unfold allocatesAt
    rw [quiet, ite_self]
  cases allots with
  | kept quiet same =>
      rw [none quiet, nextAt_congr (same site)]
      exact ⟨rfl, rfl⟩
  | opened new scope quiet vacant changed =>
      -- an allocator that has just been opened begins at 0, and so did none
      rw [none quiet]
      refine ⟨rfl, ?_⟩
      by_cases ours : site = new
      · unfold nextAt
        rw [changed, if_pos ours, ours, vacant]
        rfl
      · exact nextAt_congr ((changed site).trans (if_neg ours)) stem
  | @advanced busy before asked atSite there admitted allocates changed =>
      by_cases ours : site = busy
      · subst ours
        have new : session.allocatesAt site operation =
            [⟨asked, identAt asked (before.next asked)⟩] := (if_pos atSite).trans allocates
        rw [new, nextAt_of_some there,
          nextAt_of_some ((changed site).trans (if_pos rfl)), Allocator.next_advance]
        by_cases stems : stem = asked
        · subst stems
          rw [List.filter_cons_of_pos (by simp), if_pos rfl]
          exact ⟨rfl, rfl⟩
        · rw [List.filter_cons_of_neg (by simpa using Ne.symm stems), if_neg stems]
          exact ⟨rfl, rfl⟩
      · have elsewhere : session.allocatesAt site operation = [] := by
          unfold allocatesAt
          rw [atSite, if_neg (fun same => ours (Option.some.inj same).symm)]
        rw [elsewhere, nextAt_congr ((changed site).trans (if_neg ours))]
        exact ⟨rfl, rfl⟩

/-- A name that is asked for is the next one, if its stem is admitted. -/
theorem perform_asking_of_admitted (here : session.allocator? site = some allocator)
    (admitted : allocator.admits stem = true) :
    (session.perform (site.asking stem)).1.ident? = some (identAt stem (allocator.next stem)) := by
  cases site with
  | alone number =>
      rw [Site.asking, perform_fresh here, if_pos admitted]
      rfl
  | registry number =>
      obtain ⟨registry, there, rfl⟩ := Option.map_eq_some_iff.mp here
      rw [Site.asking, perform_newName there, if_pos admitted]
      rfl

/-- It is refused otherwise, and then nothing changes. -/
theorem perform_asking_of_refused (here : session.allocator? site = some allocator)
    (refused : ¬ allocator.admits stem = true) :
    session.perform (site.asking stem) = (.failed (.stemRefused stem), session) := by
  cases site with
  | alone number => rw [Site.asking, perform_fresh here, if_neg refused]
  | registry number =>
      obtain ⟨registry, there, rfl⟩ := Option.map_eq_some_iff.mp here
      rw [Site.asking, perform_newName there, if_neg refused]

theorem allocator?_of_opens {scope : Scope}
    (opened : session.opens? operation = some (site, scope)) :
    (session.perform operation).2.allocator? site = some { scope } := by
  cases operation with
  | openAllocator scope' =>
      obtain ⟨rfl, rfl⟩ := Prod.mk.inj (Option.some.inj opened)
      exact List.getElem?_concat_length
  | openRegistry table scope' style =>
      obtain ⟨rfl, rfl⟩ := Prod.mk.inj (Option.some.inj opened)
      show Option.map _ ((session.registries ++ [_])[session.registries.length]?) = _
      rw [List.getElem?_concat_length]
      rfl
  | _ => exact absurd opened (by simp [opens?])

/-! ## Runs -/

theorem allocatedUnder_cons (site : Site) (stem : String) (operation : Operation)
    (rest : List Operation) :
    session.allocatedUnder site stem (operation :: rest) =
      (session.allocatesAt site operation).filter (·.stem = stem) ++
        (session.perform operation).2.allocatedUnder site stem rest :=
  List.filter_append _ _

/-- **A run** allocates consecutive identifiers at a site under each stem. -/
theorem numbers_run (sound : session.ledger.Sound) (site : Site) (stem : String)
    (operations : List Operation) :
    let all := session.allocatedUnder site stem operations
    all.map Allocation.ident =
        (List.range' (session.nextAt site stem) all.length).map (identAt stem) ∧
      (session.run operations).2.nextAt site stem = session.nextAt site stem + all.length := by
  induction operations generalizing session with
  | nil => exact ⟨rfl, rfl⟩
  | cons operation rest ih =>
      obtain ⟨first, counter⟩ := (allots_perform sound operation).numbers site stem
      obtain ⟨others, last⟩ := ih (sound_of_changes (perform_changes sound operation) sound)
      intro all
      have split : all = _ := allocatedUnder_cons site stem operation rest
      rw [split, List.map_append, first, others, counter, List.length_append, ← List.map_append,
        List.range'_append_1]
      refine ⟨rfl, ?_⟩
      show ((session.perform operation).2.run rest).2.nextAt site stem = _
      rw [last, counter, Nat.add_assoc]

/-- **Closed form of allocation.** Open an allocator, by itself or in a registry, after any
operations, and let any others follow. Then a new name under a stem is given out exactly if
the scope of the allocator grants the stem, and its text is the stem and the number of names
that the allocator gave out under it before; otherwise the stem is refused and nothing
changes. To look at the scope each time makes no difference, and a name that exists is
handed through. -/
theorem closed_form_of_allocation (before after : List Operation) (opening : Operation)
    (site : Site) (scope : Scope)
    (opened : (run {} before).2.opens? opening = some (site, scope)) :
    let history := before ++ opening :: after
    let session := (run {} history).2
    (∀ stem,
      let asked := session.perform (site.asking stem)
      let earlier := (allocatedUnder {} site stem history).length
      (asked.1.ident?.isSome = true ↔ scope.Grants stem) ∧
      (scope.Grants stem → asked.1.ident? = some ⟨stem ++ toString earlier⟩) ∧
      (¬ scope.Grants stem → asked = (.failed (.stemRefused stem), session))) ∧
    ∃ allocator, session.allocator? site = some allocator ∧ allocator.scope = scope ∧
      (∀ stem, (Allocator.allocate stem).run allocator =
        (Allocator.allocateChecked stem).run allocator) ∧
      ∀ ident, (Allocator.provide (.existing ident)).run allocator = .ok ident allocator ∧
        ∀ number, site = .alone number →
          session.perform (.allocate number (.existing ident)) = (.ident ident, session) := by
  intro history session
  obtain ⟨allocator, here, same⟩ : ∃ allocator, session.allocator? site = some allocator ∧
      allocator.scope = scope := by
    have start := allocator?_of_opens opened
    have sound := sound_of_changes (perform_changes (sound_run before) opening) (sound_run before)
    obtain ⟨kept, there, same⟩ := scope_run sound after start
    refine ⟨kept, ?_, same⟩
    show (run {} (before ++ opening :: after)).2.allocator? site = _
    rw [run_append_snd]
    exact there
  have admits : ∀ stem, allocator.admits stem = true ↔ scope.Grants stem := by
    intro stem
    rw [faithful_run history site allocator here, same, Scope.permits_iff]
  have counts : ∀ stem, allocator.next stem = (allocatedUnder {} site stem history).length := by
    intro stem
    obtain ⟨-, counter⟩ := numbers_run sound_empty site stem history
    rwa [nextAt_of_some here, nextAt_empty, Nat.zero_add] at counter
  refine ⟨fun stem => ?_, allocator, here, same, fun stem => ?_, fun ident => ⟨rfl, ?_⟩⟩
  · have granted : scope.Grants stem → (session.perform (site.asking stem)).1.ident? =
        some ⟨stem ++ toString (allocatedUnder {} site stem history).length⟩ := by
      intro grants
      rw [perform_asking_of_admitted here ((admits stem).mpr grants), counts]
      rfl
    have refused : ¬ scope.Grants stem →
        session.perform (site.asking stem) = (.failed (.stemRefused stem), session) :=
      fun denied => perform_asking_of_refused here (denied ∘ (admits stem).mp)
    refine ⟨⟨fun answered => ?_, fun grants => ?_⟩, granted, refused⟩
    · by_contra denied
      rw [refused denied] at answered
      exact Bool.noConfusion answered
    · rw [granted grants]
      rfl
  · rw [Allocator.run_allocate, Allocator.run_allocateChecked,
      faithful_run history site allocator here]
  · rintro number rfl
    exact perform_existing here ident

/-- An allocator with an empty list lies inside a scope without a list, and that one inside a
scope that lists "p". -/
theorem closed_form_of_allocation_of_inner_scope :
    let top : Scope := { allowed := some ["p"] }
    let inner : Scope := ({ allowed := some [] } : Scope).placeIn (({} : Scope).placeIn top)
    let before : List Operation := [.openAllocator top, .allocate 0 (.fresh "p")]
    let opening : Operation := .openAllocator inner
    let after : List Operation := [.allocate 1 (.fresh "r"), .allocate 1 (.fresh "p"),
      .allocate 0 (.fresh "p"), .allocate 1 (.existing ⟨"r7"⟩), .allocate 1 (.fresh "r")]
    let session := (run {} (before ++ opening :: after)).2
    (run {} before).2.opens? opening = some (.alone 1, inner) ∧
    (session.perform (.allocate 1 (.fresh "r"))).1.ident? = some ⟨"r2"⟩ ∧
    session.perform (.allocate 1 (.fresh "p")) = (.failed (.stemRefused "p"), session) := by
  intro top inner before opening after session
  have opened : (run {} before).2.opens? opening = some (.alone 1, inner) := by decide +kernel
  obtain ⟨answers, -⟩ := closed_form_of_allocation before after opening (.alone 1) inner opened
  have granted : inner.Grants "r" := Scope.permits_iff.mp (by decide)
  have denied : ¬ inner.Grants "p" := fun grants =>
    absurd (Scope.permits_iff.mpr grants) (by decide)
  have earlier : (allocatedUnder {} (.alone 1) "r" (before ++ opening :: after)).length = 2 := by
    decide +kernel
  refine ⟨opened, ?_, (answers "p").2.2 denied⟩
  have answered := (answers "r").2.1 granted
  rw [earlier] at answered
  exact answered

end Session

end NameScope
