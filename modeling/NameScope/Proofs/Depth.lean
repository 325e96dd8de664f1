import NameScope.Proofs.Agreement
import NameScope.Proofs.ExactlyOnce

/-!
# A depth that suffices

Suppliers that emit with the tracker they were handed are at work inside each other for
different names only, all of them bound: a name is started before its supplier is asked
for it. So an emission needs no greater depth than there are bound names, whatever the
suppliers select (`Emission.Call.not_endless`).
-/

namespace NameScope

/-- The names that are bound. -/
def Ledger.bound (ledger : Ledger) : Finset Handle := ledger.bindings.keys.toFinset

theorem Ledger.mem_bound {ledger : Ledger} {handle : Handle} {binding : Binding}
    (bound : ledger.binding? handle = some binding) : handle ∈ ledger.bound :=
  List.mem_toFinset.mpr (OrderedMap.mem_keys_iff.mpr ⟨binding, bound⟩)

/-- Names stay tracked. -/
def Emitting.Grows {σ : Type} (before after : Emitting σ) : Prop := before.known ⊆ after.known

section Depth

open Emitting

variable {σ : Type} {ledger : Ledger} {room : Nat}

theorem tame_grows : Tame (Grows (σ := σ)) where
  refl _ := subset_rfl
  trans first second := first.trans second
  known grows := grows
  begin untracked := (Set.subset_insert _ _).trans_eq (known_begin untracked).symm
  finish st handle := (known_finish st handle).symm.subset

theorem agree_change (change : σ → σ) :
    Agree Grows ledger.bound room (EmitM.modifyState change) (EmitM.modifyState change) :=
  fun _ _ => ⟨rfl, subset_rfl⟩

theorem agree_follow_of_handed {emit : Errand → EmitM (Noted σ) Fragment}
    (emits : ∀ errand : Errand, errand.tracking = .handed →
      Agree Grows ledger.bound room (emit errand) (emit errand))
    {recipe : Recipe σ} (handed : recipe.Handed) (code : Fragment) :
    Agree Grows ledger.bound room (recipe.follow emit code) (recipe.follow emit code) := by
  induction recipe generalizing code with
  | decline state =>
      exact agree_bind tame_grows (agree_change _) fun _ => agree_pure tame_grows none
  | fail fault state =>
      exact agree_bind tame_grows (agree_change _) fun _ => agree_stop tame_grows fault []
  | finish state =>
      exact agree_bind tame_grows (agree_change _) fun _ => agree_pure tame_grows (some code)
  | add more rest ih => exact ih handed (code ++ more)
  | emit errand state resume ih =>
      obtain ⟨tracking, rest⟩ := handed
      refine agree_bind tame_grows (agree_change _) fun _ => ?_
      refine agree_bind tame_grows (emits errand tracking) fun block => agree_get fun now => ?_
      exact ih block now.tracker now.state.state (rest block now.tracker now.state.state) _

/-- While the bound names that are untracked are no more than the depth, suppliers come to
an end: a name that one is asked for is bound and has been started, so fewer are untracked
when it emits. -/
theorem serves_of_handed {recipes : Recipes σ}
    (handed : ∀ handle tracker state, (recipes handle tracker state).Handed) {depth : Nat}
    (deep : room ≤ depth) (handle : Handle) :
    Serves Grows ledger ledger.bound room (recipes.supplier ledger depth)
      (recipes.supplier ledger depth) handle := by
  induction room generalizing depth handle with
  | zero =>
      intro before binding untracked bound lacking enough
      exact absurd (unseen_begin_lt (Ledger.mem_bound bound) untracked) (by omega)
  | succ room ih =>
      obtain ⟨depth, rfl⟩ : ∃ inner, depth = inner + 1 := ⟨depth - 1, by omega⟩
      intro before binding untracked bound lacking enough
      have fewer := unseen_begin_lt (Ledger.mem_bound bound) untracked
      have emits : ∀ errand : Errand, errand.tracking = .handed →
          Agree Grows ledger.bound room (errand.run ledger (recipes.supplier ledger depth))
            (errand.run ledger (recipes.supplier ledger depth)) := by
        intro errand tracking
        unfold Errand.run
        rw [tracking]
        refine agree_declarations tame_grows errand.style fun other _ => ?_
        cases errand.supplied with
        | true => exact ih (Nat.le_of_succ_le_succ deep) other
        | false => exact serves_none tame_grows ledger ledger.bound room other
      rw [Recipes.run_supplier]
      refine ⟨rfl, (agree_follow_of_handed emits (handed handle _ _) ∅ _ ?_).2.mono ?_⟩
      · exact Nat.le_of_lt_succ (fewer.trans_le enough)
      · exact fun after => (tame_grows.begin untracked).trans

/-- **A depth that suffices.** Calls whose suppliers use the tracker they were handed come
to an end. -/
theorem Emission.Call.not_endless {call : Call σ} (handed : call.Handed)
    (deep : call.ledger.bindings.keys.length ≤ call.depth) (before after : Emitting (Noted σ)) :
    call.run.run before ≠ .error .endless after := by
  have serves : ∀ handle, Serves Grows call.ledger call.ledger.bound call.depth call.supplier
      call.supplier handle := by
    intro handle
    unfold supplier
    cases served : call.recipes? with
    | none => exact serves_none tame_grows call.ledger call.ledger.bound call.depth handle
    | some recipes => exact serves_of_handed (handed recipes served) (Nat.le_refl _) handle
  have enough : before.unseen call.ledger.bound ≤ call.depth :=
    (before.unseen_le_card call.ledger.bound).trans ((List.toFinset_card_le _).trans deep)
  obtain ⟨-, ends⟩ := agree_declarations tame_grows call.style
    (fun handle (_ : handle ∈ call.selection.toList) => serves handle) before enough
  intro endless
  rw [run] at endless
  rw [endless] at ends
  exact ends

end Depth

end NameScope
