import NameScope.Proofs.Spelling
import NameScope.Proofs.Tracking

/-!
# How blocks are put together

A block is the declarations of its names, one after another. The declaration of a name is
spelled out by its own value, or else it is what a supplier puts together by a recipe: code
that the recipe adds, and the blocks of the emissions that it asks for, which are put
together in the same way. `Emission.Lays` says this of the pieces of a block and
`Emission.Yields` of the code that comes of a recipe; both tell besides in which order the
names are done.

The two relations speak of names, texts and recipes only. Emissions with suppliers that
follow recipes comply with them (`Emission.composes_declarations`), and put just those names
into the journal and the tracker that the relations tell.
-/

namespace NameScope

namespace Emission

variable {σ : Type}

mutual

/-- The names, of which those `seen` are passed over, have these `pieces`; the names in `done`
have been done then, in this order, the ones for the sake of a piece in front of its name. The
supplier follows `recipes?`, or is none where the block is not `served`. -/
inductive Lays (ledger : Ledger) (recipes? : Option (Recipes σ)) :
    Bool → Style → Set Handle → List Handle → List Handle → List Piece → Prop
  | nil {served : Bool} {style : Style} {seen : Set Handle} :
      Lays ledger recipes? served style seen [] [] []
  | skip {served : Bool} {style : Style} {seen : Set Handle} {handle : Handle}
      {rest done : List Handle} {pieces : List Piece} : handle ∈ seen →
      Lays ledger recipes? served style seen rest done pieces →
      Lays ledger recipes? served style seen (handle :: rest) done pieces
  | spell {served : Bool} {style : Style} {seen : Set Handle} {handle : Handle}
      {rest later : List Handle} {code : Fragment} {pieces : List Piece} : handle ∉ seen →
      ledger.spelled? style handle = some code →
      Lays ledger recipes? served style (insert handle seen) rest later pieces →
      Lays ledger recipes? served style seen (handle :: rest) (handle :: later)
        (⟨handle, code⟩ :: pieces)
  | supply {style : Style} {seen : Set Handle} {handle : Handle} {rest inner later : List Handle}
      {recipes : Recipes σ} {tracker : Tracker} {state : σ} {code : Fragment}
      {pieces : List Piece} : handle ∉ seen → ledger.binding? handle ≠ none →
      ledger.spelled? style handle = none → recipes? = some recipes →
      tracker.known = insert handle seen →
      Yields ledger recipes? (insert handle seen) (recipes handle tracker state) inner code →
      Lays ledger recipes? true style (insert handle seen ∪ {found | found ∈ inner}) rest later
        pieces →
      Lays ledger recipes? true style seen (handle :: rest) (inner ++ handle :: later)
        (⟨handle, code⟩ :: pieces)

/-- This code comes of the recipe where those names have been `seen`, with the blocks that it
has asked for in their places; the names in `done` have been done then, in this order. -/
inductive Yields (ledger : Ledger) (recipes? : Option (Recipes σ)) :
    Set Handle → Recipe σ → List Handle → Fragment → Prop
  | finish {seen : Set Handle} {state : σ} : Yields ledger recipes? seen (.finish state) [] ∅
  | add {seen : Set Handle} {more code : Fragment} {rest : Recipe σ} {done : List Handle} :
      Yields ledger recipes? seen rest done code →
      Yields ledger recipes? seen (.add more rest) done (more ++ code)
  | emit {seen : Set Handle} {errand : Errand} {state now : σ}
      {resume : Fragment → Tracker → σ → Recipe σ} {done later : List Handle}
      {pieces : List Piece} {tracker : Tracker} {code : Fragment} :
      Lays ledger recipes? errand.supplied errand.style seen errand.selection.toList done
        pieces →
      tracker.known = seen ∪ {found | found ∈ done} →
      Yields ledger recipes? (seen ∪ {found | found ∈ done})
        (resume (errand.style.spellBlock pieces) tracker now) later code →
      Yields ledger recipes? seen (.emit errand state resume) (done ++ later)
        (errand.style.spellBlock pieces ++ code)

end

/-- Whenever the work ends well, the names that were done are those that are put into the
journal, and those that are tracked anew; and they, the names tracked at first and the result
are in relation. -/
def Composes {α : Type} (relation : Set Handle → List Handle → α → Prop)
    (work : EmitM (Noted σ) α) : Prop :=
  ∀ before a after, work.run before = .ok a after →
    ∃ done, after.journal = before.journal ++ done ∧
      after.known = before.known ∪ {found | found ∈ done} ∧ relation before.known done a

/-- The names have pieces, and the block is made of them. -/
def Builds (ledger : Ledger) (recipes? : Option (Recipes σ)) (served : Bool) (style : Style)
    (names : List Handle) (seen : Set Handle) (done : List Handle) (block : Fragment) : Prop :=
  ∃ pieces, block = style.spellBlock pieces ∧
    Lays ledger recipes? served style seen names done pieces

/-- What a supplier may answer: code that comes of the recipe of the name. -/
def Answers (ledger : Ledger) (recipes? : Option (Recipes σ)) (served : Bool) (handle : Handle)
    (seen : Set Handle) (done : List Handle) (code? : Option Fragment) : Prop :=
  ∀ code, code? = some code → served = true ∧ ∃ recipes tracker state,
    recipes? = some recipes ∧ tracker.known = seen ∧
    Yields ledger recipes? seen (recipes handle tracker state) done code

section Blocks

variable {ledger : Ledger} {recipes? : Option (Recipes σ)} {served : Bool} {style : Style}
  {supply : Supplier (Noted σ)}

/-- The code of a name is its declaration, or what the supplier answers. -/
theorem composes_code (answers : ∀ handle,
      Composes (Answers ledger recipes? served handle) (supply handle)) (handle : Handle) :
    Composes (fun seen done code =>
        (ledger.spelled? style handle = some code ∧ done = []) ∨
        (ledger.spelled? style handle = none ∧ ledger.binding? handle ≠ none ∧
          Answers ledger recipes? served handle seen done (some code)))
      (code ledger style supply handle) := by
  intro before fragment after run
  rcases ok_code_cases run with ⟨ready, rfl⟩ | ⟨missing, bound, supplied⟩
  · rw [ready?_eq_spelled?] at ready
    exact ⟨[], by simp, by simp, .inl ⟨ready, rfl⟩⟩
  · rw [ready?_eq_spelled?] at missing
    obtain ⟨done, journal, known, answer⟩ := answers handle _ _ _ supplied
    exact ⟨done, journal, known, .inr ⟨missing, Option.ne_none_iff_exists'.mpr bound, answer⟩⟩

theorem composes_pieces (answers : ∀ handle,
      Composes (Answers ledger recipes? served handle) (supply handle)) (handles : List Handle) :
    Composes (fun seen done pieces => Lays ledger recipes? served style seen handles done pieces)
      (pieces ledger style supply handles) := by
  intro before emitted after run
  have lists := lists_of_run_pieces run
  clear run
  induction lists with
  | nil => exact ⟨[], by simp, by simp, .nil⟩
  | skip tracked lists ih =>
      obtain ⟨done, journal, known, lays⟩ := ih
      exact ⟨done, journal, known, .skip (Tracker.tracks_iff.mp tracked) lays⟩
  | @emit handle rest before middle after fragment later untracked coded lists ih =>
      rw [Tracker.tracks_eq_false_iff] at untracked
      obtain ⟨inner, journal, known, code⟩ := composes_code answers handle _ _ _ coded
      obtain ⟨done, journal', known', lays⟩ := ih
      have begun := Emitting.known_begin untracked
      have new : handle ∉ before.known := fun tracked => tracked untracked
      rw [Emitting.known_finish, known, begun] at known' lays
      rw [begun] at code
      -- what was done for the sake of the name stands in front of it
      refine ⟨inner ++ handle :: done, ?_, ?_, ?_⟩
      · rw [journal']
        show middle.journal ++ [handle] ++ done = _
        rw [journal]
        simp [Emitting.begin]
      · rw [known']
        ext other
        simp only [Set.mem_union, Set.mem_insert_iff, Set.mem_ofPred_eq, List.mem_append,
          List.mem_cons]
        tauto
      · rcases code with ⟨spelled, rfl⟩ | ⟨missing, bound, answer⟩
        · refine .spell new spelled ?_
          simpa using lays
        · obtain ⟨rfl, recipes, tracker, state, served, handed, yields⟩ := answer _ rfl
          exact .supply new bound missing served handed yields lays

/-- **A block is put together** from the declarations of its names. -/
theorem composes_declarations (answers : ∀ handle,
      Composes (Answers ledger recipes? served handle) (supply handle)) (selection : Selection) :
    Composes (Builds ledger recipes? served style selection.toList)
      (declarations ledger style supply selection) := by
  intro before block after run
  obtain ⟨emitted, listed, rfl⟩ := pieces_of_run_declarations run
  obtain ⟨done, journal, known, lays⟩ := composes_pieces answers _ _ _ _ listed
  exact ⟨done, journal, known, emitted, style.block_eq_spellBlock emitted, lays⟩

end Blocks

section Suppliers

variable {ledger : Ledger} {recipes? : Option (Recipes σ)}

theorem answers_none (served : Bool) (handle : Handle) :
    Composes (Answers ledger recipes? served handle)
      ((Supplier.none : Supplier (Noted σ)) handle) := by
  intro before code? after run
  cases run
  exact ⟨[], by simp, by simp, nofun⟩

/-- What comes of an errand with the tracker at hand. -/
theorem composes_run {supply : Supplier (Noted σ)} (answers : ∀ handle,
      Composes (Answers ledger recipes? true handle) (supply handle)) {errand : Errand}
    (handed : errand.tracking = .handed) :
    Composes (Builds ledger recipes? errand.supplied errand.style errand.selection.toList)
      (errand.run ledger supply) := by
  unfold Errand.run
  rw [handed]
  cases errand.supplied with
  | false => exact composes_declarations (answers_none false) errand.selection
  | true => exact composes_declarations answers errand.selection

/-- What comes of a recipe is put behind the code that there is. -/
theorem composes_follow {emit : Errand → EmitM (Noted σ) Fragment}
    (emits : ∀ errand : Errand, errand.tracking = .handed →
      Composes (Builds ledger recipes? errand.supplied errand.style errand.selection.toList)
        (emit errand))
    {recipe : Recipe σ} (handed : recipe.Handed) (code : Fragment) :
    Composes (fun seen done code? => ∀ whole, code? = some whole →
        ∃ more, whole = code ++ more ∧ Yields ledger recipes? seen recipe done more)
      (recipe.follow emit code) := by
  intro before code? after run
  induction recipe generalizing code before with
  | decline state =>
      cases run
      exact ⟨[], by simp, by simp [Emitting.known], nofun⟩
  | fail fault state => cases run
  | finish state =>
      cases run
      refine ⟨[], by simp, by simp [Emitting.known], ?_⟩
      rintro whole ⟨⟩
      exact ⟨∅, by simp, .finish⟩
  | add more rest ih =>
      obtain ⟨done, journal, known, yields⟩ := ih handed (code ++ more) before run
      refine ⟨done, journal, known, fun whole some => ?_⟩
      obtain ⟨further, rfl, yields⟩ := yields whole some
      exact ⟨more ++ further, Fragment.append_assoc .., .add yields⟩
  | emit errand state resume ih =>
      obtain ⟨tracking, rest⟩ := handed
      rw [Recipe.run_follow_emit] at run
      split at run
      · rename_i block now done
        obtain ⟨inner, journal, known, pieces, rfl, lays⟩ := emits errand tracking _ _ _ done
        obtain ⟨later, journal', known', yields⟩ := ih _ _ _ (rest _ _ _) _ now run
        rw [known] at known' yields
        refine ⟨inner ++ later, by rw [journal', journal, List.append_assoc], ?_, ?_⟩
        · rw [known']
          ext other
          simp only [Set.mem_union, Set.mem_ofPred_eq, List.mem_append, or_assoc]
          rfl
        · intro whole some
          obtain ⟨further, rfl, yields⟩ := yields whole some
          exact ⟨_, Fragment.append_assoc .., .emit lays known yields⟩
      · cases run

/-- Suppliers that follow recipes answer what comes of them. -/
theorem answers_supplier {recipes : Recipes σ}
    (handed : ∀ handle tracker state, (recipes handle tracker state).Handed) (depth : Nat)
    (handle : Handle) :
    Composes (Answers ledger (some recipes) true handle)
      (recipes.supplier ledger depth handle) := by
  induction depth generalizing handle with
  | zero =>
      intro before code? after run
      cases run
  | succ depth ih =>
      intro before code? after run
      rw [Recipes.run_supplier] at run
      obtain ⟨done, journal, known, yields⟩ := composes_follow
        (fun errand tracking => composes_run ih tracking) (handed handle _ _) ∅ _ _ _ run
      refine ⟨done, journal, known, fun code some => ?_⟩
      obtain ⟨more, rfl, yields⟩ := yields code some
      exact ⟨rfl, recipes, before.tracker, before.state.state, rfl, rfl, yields⟩

end Suppliers

end Emission

end NameScope
