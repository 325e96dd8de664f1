import Mathlib.Data.List.Nodup
import NameScope.Proofs.Atoms
import NameScope.Proofs.Emission
import NameScope.Proofs.Grouping
import NameScope.Proofs.Spelling

/-!
# Blocks that run in a single pass

A block runs in a single pass if every declaration mentions only names that are
declared before it. The code of a value may mention names that were bound before
the value was; but a block lists names by stem, so a name may still be declared
before one that its code mentions (`Session.mentioned_before_declared`).
`Session.declared_before_use_iff` tells when that happens: exactly if some code
mentions a name whose stem came into use after the stem of its own name.
-/

namespace NameScope

namespace Value

/-- Whether the value can be declared without a supplier. -/
def isReady (value : Value) : Bool :=
  match value.kind with
  | .inline code? => code?.isSome
  | .imported source => decide source.Complete

/-- The identifiers in the code of the value. -/
def mentions (value : Value) : List Ident :=
  match value.kind with
  | .inline (some code) => code.idents
  | _ => []

end Value

namespace Ledger

/-- The identifiers in the code of the value of a name. -/
def mentions (ledger : Ledger) (handle : Handle) : List Ident :=
  match ledger.binding? handle with
  | some binding => binding.value.mentions
  | none => []

/-- Every identifier in the code of a piece's value is declared by an earlier piece. -/
def DeclaredBeforeUse (ledger : Ledger) (pieces : List Piece) : Prop :=
  ∀ before piece after, pieces = before ++ piece :: after →
    ∀ ident ∈ ledger.mentions piece.name, ∃ earlier ∈ before, earlier.name.ident = ident

end Ledger

/-- All values bound in the registry can be declared without a supplier, and their
code mentions no names but those that the registry bound earlier. -/
def Registry.SelfContained (registry : Registry) (ledger : Ledger) : Prop :=
  ∀ handle ∈ registry.handles,
    (∀ binding ∈ ledger.binding? handle, binding.value.isReady = true) ∧
    ∀ ident ∈ ledger.mentions handle, ∃ other ∈ registry.handles,
      other.ident = ident ∧ [other, handle].Sublist ledger.bindings.keys

instance (registry : Registry) (ledger : Ledger) : Decidable (registry.SelfContained ledger) :=
  inferInstanceAs (Decidable (∀ handle ∈ registry.handles, _ ∧ _))

/-! ## Pairs in lists without repetitions -/

section Pairs

variable {α : Type} {a b : α}

/-- What comes before an element of a list without repetitions stands in front of it. -/
theorem mem_of_pair_sublist {before after : List α} (nodup : (before ++ b :: after).Nodup)
    (pair : [a, b].Sublist (before ++ b :: after)) : a ∈ before := by
  rw [List.nodup_append, List.nodup_cons] at nodup
  obtain ⟨-, ⟨fresh, -⟩, apart⟩ := nodup
  obtain ⟨first, second, split, early, late⟩ := List.sublist_append_iff.mp pair
  match first, split with
  | [], split =>
      rw [List.nil_append] at split
      subst split
      cases late with
      | cons _ late => exact absurd (late.subset (by simp)) fresh
      | cons_cons _ late => exact absurd (late.subset (by simp)) fresh
  | [first], split =>
      obtain ⟨rfl, rfl⟩ : a = first ∧ [b] = second := by simpa using split
      exact early.subset (by simp)
  | first :: second' :: more, split =>
      obtain ⟨rfl, rfl, -⟩ : a = first ∧ b = second' ∧ [] = more ++ second := by simpa using split
      exact absurd rfl (apart b (early.subset (by simp)) b List.mem_cons_self)

theorem pair_sublist_of_mem {before : List α} (early : a ∈ before) (after : List α) :
    [a, b].Sublist (before ++ b :: after) :=
  (List.singleton_sublist.mpr early).append (List.singleton_sublist.mpr List.mem_cons_self)

/-- Two elements come in one order or the other. -/
theorem pair_sublist_total {l : List α} (inA : a ∈ l) (inB : b ∈ l) (apart : a ≠ b) :
    [a, b].Sublist l ∨ [b, a].Sublist l := by
  obtain ⟨before, after, rfl⟩ := List.append_of_mem inB
  rcases List.mem_append.mp inA with early | late
  · exact .inl (pair_sublist_of_mem early after)
  · have late := (List.mem_cons.mp late).resolve_left apart
    refine .inr (List.Sublist.trans ?_ (List.sublist_append_right before _))
    exact (List.singleton_sublist.mpr late).cons_cons b

theorem rel_of_pair_sublist {R : α → α → Prop} {l : List α} (ordered : l.Pairwise R)
    (pair : [a, b].Sublist l) : R a b :=
  List.pairwise_iff_forall_sublist.mp ordered pair

/-- The elements of a list without repetitions stand in the order of their places. -/
theorem pairwise_idxOf [DecidableEq α] {l : List α} (nodup : l.Nodup) :
    l.Pairwise fun a b => l.idxOf a < l.idxOf b := by
  rw [List.pairwise_iff_getElem]
  intro i j inI inJ less
  rw [nodup.idxOf_getElem i inI, nodup.idxOf_getElem j inJ]
  exact less

theorem pair_sublist_asymm [DecidableEq α] {l : List α} (nodup : l.Nodup)
    (pair : [a, b].Sublist l) : ¬ [b, a].Sublist l := by
  intro other
  have first := rel_of_pair_sublist (pairwise_idxOf nodup) pair
  have second := rel_of_pair_sublist (pairwise_idxOf nodup) other
  omega

end Pairs

/-! ## The order of a registry's names -/

section Order

variable {registry : Registry} {ledger : Ledger}

/-- Names come in the order in which their stems came into use, and names of one
stem in the order in which they were bound. -/
theorem Registry.Grouped.pairwise_handles (grouped : registry.Grouped ledger) :
    registry.handles.Pairwise fun a b =>
      registry.bound.keys.idxOf a.stem < registry.bound.keys.idxOf b.stem ∨
        a.stem = b.stem ∧ [a, b].Sublist ledger.bindings.keys := by
  unfold Registry.handles OrderedMap.values
  rw [List.flatMap_map, List.pairwise_flatMap]
  refine ⟨?_, ?_⟩
  · intro entry listed
    have here := OrderedMap.mem_entries_iff.mp listed
    rw [List.pairwise_iff_forall_sublist]
    intro a b pair
    have stems := grouped.stems _ _ here
    refine .inr ⟨?_, pair.trans (grouped.ordered _ _ here)⟩
    rw [stems a (pair.subset (by simp)), stems b (pair.subset (by simp))]
  · have places := pairwise_idxOf registry.bound.nodup_keys
    rw [List.pairwise_map] at places
    apply places.imp_of_mem
    intro first second inFirst inSecond less a inA b inB
    apply Or.inl
    rw [grouped.stems _ _ (OrderedMap.mem_entries_iff.mp inFirst) a inA,
      grouped.stems _ _ (OrderedMap.mem_entries_iff.mp inSecond) b inB]
    exact less

/-- What pieces mention is declared before, said of their names. -/
theorem Ledger.declaredBeforeUse_iff {pieces : List Piece}
    (nodup : (pieces.map Piece.name).Nodup) :
    ledger.DeclaredBeforeUse pieces ↔ ∀ handle ∈ pieces.map Piece.name,
      ∀ ident ∈ ledger.mentions handle,
        ∃ other, other.ident = ident ∧ [other, handle].Sublist (pieces.map Piece.name) := by
  constructor
  · intro declared handle held ident mentioned
    obtain ⟨piece, listed, rfl⟩ := List.mem_map.mp held
    obtain ⟨before, after, rfl⟩ := List.append_of_mem listed
    obtain ⟨earlier, among, same⟩ := declared before piece after rfl ident mentioned
    refine ⟨earlier.name, same, ?_⟩
    rw [List.map_append, List.map_cons]
    exact pair_sublist_of_mem (List.mem_map_of_mem among) _
  · intro declared before piece after split ident mentioned
    subst split
    obtain ⟨other, same, pair⟩ := declared piece.name (by simp) ident mentioned
    rw [List.map_append, List.map_cons] at nodup pair
    obtain ⟨earlier, among, rfl⟩ := List.mem_map.mp (mem_of_pair_sublist nodup pair)
    exact ⟨earlier, among, same⟩

/-- When every mentioned name was bound earlier, the names of the registry are in an
order to be declared in exactly if no name mentions one of a stem that came into
use later. -/
theorem Registry.SelfContained.ordered_iff (selfContained : registry.SelfContained ledger)
    (grouped : registry.Grouped ledger)
    (distinct : (registry.handles.map Handle.text).Nodup) :
    (∀ handle ∈ registry.handles, ∀ ident ∈ ledger.mentions handle,
      ∃ other, other.ident = ident ∧ [other, handle].Sublist registry.handles) ↔
    ∀ handle ∈ registry.handles, ∀ other ∈ registry.handles,
      other.ident ∈ ledger.mentions handle →
        registry.bound.keys.idxOf other.stem ≤ registry.bound.keys.idxOf handle.stem := by
  have order := grouped.pairwise_handles
  constructor
  · intro declared handle held other held' mentioned
    obtain ⟨first, ident, pair⟩ := declared handle held other.ident mentioned
    -- texts are distinct, so the name declared before is the one that is mentioned
    have same : first = other := List.inj_on_of_nodup_map distinct
      (pair.subset List.mem_cons_self) held' (congrArg Ident.text ident)
    rw [same] at pair
    rcases rel_of_pair_sublist order pair with less | ⟨stems, -⟩
    · exact Nat.le_of_lt less
    · exact Nat.le_of_eq (by rw [stems])
  · intro early handle held ident mentioned
    obtain ⟨-, earlier⟩ := selfContained handle held
    obtain ⟨other, held', rfl, bound⟩ := earlier ident mentioned
    refine ⟨other, rfl, ?_⟩
    have unequal : other ≠ handle := by
      intro same
      rw [same] at bound
      exact pair_sublist_asymm ledger.bindings.nodup_keys bound bound
    rcases pair_sublist_total held' held unequal with pair | pair
    · exact pair
    · -- the other order would have to come from a later stem, or from a later binding
      have place := early handle held other held' mentioned
      rcases rel_of_pair_sublist order pair with less | ⟨-, bound'⟩
      · exact absurd place (by omega)
      · exact absurd bound' (pair_sublist_asymm ledger.bindings.nodup_keys bound)

end Order

/-! ## The pieces of ready values -/

theorem Style.idents_spellImport (style : Style) (name : Ident) (source : Import) :
    (style.spellImport name source).idents = [name] := by
  unfold Style.spellImport
  split
  · simp [Fragment.concat]
  · simp [Fragment.concat]

theorem Style.idents_spellCode (style : Style) (name : Ident) (code : Fragment) :
    (style.spellCode name code).idents = name :: code.idents := by
  unfold Style.spellCode
  simp [Fragment.concat]

/-- A ready value gives a declaration of its name that mentions what its code mentions. -/
theorem Ledger.spelled?_of_isReady {ledger : Ledger} (style : Style) {handle : Handle}
    {binding : Binding} (bound : ledger.binding? handle = some binding)
    (ready : binding.value.isReady = true) :
    ∃ fragment, ledger.spelled? style handle = some fragment ∧
      fragment.idents = handle.ident :: ledger.mentions handle := by
  unfold Ledger.spelled? Ledger.mentions
  simp only [bound]
  unfold Value.isReady at ready
  unfold Value.mentions
  cases kind : binding.value.kind with
  | inline code? =>
      cases code? with
      | none => simp [kind] at ready
      | some code => exact ⟨_, rfl, style.idents_spellCode handle.ident code⟩
  | imported source =>
      rw [kind] at ready
      simp only [of_decide_eq_true ready, if_true]
      exact ⟨_, rfl, style.idents_spellImport handle.ident source⟩

/-- The pieces of all names bound in the registry, whose values are ready. -/
def Registry.pieces (registry : Registry) (ledger : Ledger) : List Piece :=
  registry.handles.map fun handle =>
    ⟨handle, (ledger.spelled? registry.style handle).getD ∅⟩

theorem Registry.names_pieces (registry : Registry) (ledger : Ledger) :
    (registry.pieces ledger).map Piece.name = registry.handles := by
  simp [pieces, List.map_map, Function.comp_def]

section Pieces

variable {registry : Registry} {ledger : Ledger}

/-- The pieces are the declarations of their names, which mention what the codes of the values
mention. -/
theorem Registry.SelfContained.spelled (selfContained : registry.SelfContained ledger)
    (grouped : registry.Grouped ledger) {piece : Piece} (listed : piece ∈ registry.pieces ledger) :
    ledger.spelled? registry.style piece.name = some piece.code ∧
      piece.code.idents = piece.name.ident :: ledger.mentions piece.name := by
  obtain ⟨handle, held, rfl⟩ := List.mem_map.mp listed
  obtain ⟨binding, bound⟩ := grouped.bound held
  obtain ⟨fragment, spelled, idents⟩ := Ledger.spelled?_of_isReady registry.style bound
    ((selfContained handle held).1 _ bound)
  simp only [spelled, Option.getD_some]
  exact ⟨trivial, idents⟩

/-- The block of all names of the registry is made of these pieces. -/
theorem Registry.SelfContained.run_declarations (selfContained : registry.SelfContained ledger)
    (grouped : registry.Grouped ledger) :
    ∃ after, (Emission.declarations ledger registry.style .none registry.selection).run
      { state := () } = .ok (registry.style.spellBlock (registry.pieces ledger)) after := by
  have ready : ∀ handle ∈ registry.selection.toList,
      Emission.ready? ledger registry.style handle =
        some ((ledger.spelled? registry.style handle).getD ∅) := by
    intro handle held
    rw [grouped.toList_selection] at held
    rw [Emission.ready?_eq_spelled?]
    exact (selfContained.spelled grouped (List.mem_map_of_mem held)).1
  obtain ⟨after, emitted⟩ := Emission.run_pieces_of_ready Supplier.none ready
    registry.selection.nodup_toList { state := () } (fun handle _ => rfl)
  refine ⟨after, ?_⟩
  rw [Emission.run_declarations, emitted, grouped.toList_selection, ← Style.block_eq_spellBlock]
  rfl

end Pieces

namespace Session

/-- **When a block runs in a single pass.** After any run, take a registry whose
values can all be declared without a supplier and mention earlier names of the
registry only, under distinct texts. The block of all its names consists of their
declarations, and everything is declared before it is mentioned exactly if no code
mentions a name whose stem came into use after the stem of its own name. -/
theorem declared_before_use_iff (operations : List Operation) (number : Nat)
    (registry : Registry) (here : (run {} operations).2.registries[number]? = some registry)
    (selfContained : registry.SelfContained (run {} operations).2.ledger)
    (distinct : (registry.handles.map Handle.text).Nodup) :
    let ledger := (run {} operations).2.ledger
    ∃ pieces after,
      (Emission.declarations ledger registry.style .none registry.selection).run
        { state := () } =
          .ok (.concat (pieces.map fun piece => piece.code ++ registry.style.lineEnd)) after ∧
      pieces.map Piece.name = registry.selection.toList ∧
      (∀ piece ∈ pieces, ledger.spelled? registry.style piece.name = some piece.code ∧
        piece.code.idents = piece.name.ident :: ledger.mentions piece.name) ∧
      (ledger.DeclaredBeforeUse pieces ↔
        ∀ handle ∈ registry.handles, ∀ other ∈ registry.handles,
          other.ident ∈ ledger.mentions handle →
            registry.bound.keys.idxOf other.stem ≤ registry.bound.keys.idxOf handle.stem) := by
  intro ledger
  have grouped : registry.Grouped ledger :=
    grouped_run operations registry (List.mem_of_getElem? here)
  have names := registry.names_pieces ledger
  have nodup : registry.handles.Nodup :=
    grouped.toList_selection ▸ registry.selection.nodup_toList
  obtain ⟨after, emitted⟩ := selfContained.run_declarations grouped
  refine ⟨registry.pieces ledger, after, emitted, names.trans grouped.toList_selection.symm,
    fun piece listed => selfContained.spelled grouped listed, ?_⟩
  rw [Ledger.declaredBeforeUse_iff (names.symm ▸ nodup), names]
  exact selfContained.ordered_iff grouped distinct

/-- Names under two stems that mention names of the first stem only. -/
theorem declared_before_use_of_first_stem :
    let value (id : Nat) (code : Fragment) : Value :=
      (Value.inline (some ⟨id, .unit⟩)).withCode code
    let operations : List Operation := [.openRegistry 0 {} {},
      .registerNew 0 "p" (value 0 (.text "1")), .registerNew 0 "q" (value 1 (.ident ⟨"p0"⟩)),
      .registerNew 0 "p" (value 2 (.ident ⟨"p0"⟩ ++ .text "+1"))]
    let session := (run {} operations).2
    ∃ registry pieces after, session.registries[0]? = some registry ∧
      registry.SelfContained session.ledger ∧ (registry.handles.map Handle.text).Nodup ∧
      (Emission.declarations session.ledger registry.style .none registry.selection).run
        { state := () } = .ok (registry.style.spellBlock pieces) after ∧
      (registry.style.spellBlock pieces).render =
        "const p0 = 1;const p1 = p0+1;const q0 = p0;" ∧
      pieces.map Piece.name = registry.selection.toList ∧
      session.ledger.DeclaredBeforeUse pieces := by
  intro value operations session
  let registry : Registry := session.registries.headD default
  have opened : session.registries[0]? = some registry := by decide +kernel
  have selfContained : registry.SelfContained session.ledger := by decide +kernel
  have distinct : (registry.handles.map Handle.text).Nodup := by decide +kernel
  obtain ⟨pieces, after, emitted, names, -, inOrder⟩ :=
    declared_before_use_iff operations 0 registry opened selfContained distinct
  have rendered : Emission.rendered? ((Emission.declarations session.ledger registry.style .none
      registry.selection).run { state := () }) =
        some "const p0 = 1;const p1 = p0+1;const q0 = p0;" := by
    decide +kernel
  rw [emitted] at rendered
  exact ⟨registry, pieces, after, opened, selfContained, distinct, emitted,
    Option.some.inj rendered, names, inOrder.mpr (by decide +kernel)⟩

/-- The second name under "p" mentions the one under "q" that was bound before it,
but is declared in front of it. -/
theorem mentioned_before_declared :
    let value (id : Nat) (code : Fragment) : Value :=
      (Value.inline (some ⟨id, .unit⟩)).withCode code
    let operations : List Operation := [.openRegistry 0 {} {},
      .registerNew 0 "p" (value 0 (.text "1")), .registerNew 0 "q" (value 1 (.text "2")),
      .registerNew 0 "p" (value 2 (.ident ⟨"q0"⟩ ++ .text "+1"))]
    let session := (run {} operations).2
    ∃ registry pieces after, session.registries[0]? = some registry ∧
      registry.SelfContained session.ledger ∧ (registry.handles.map Handle.text).Nodup ∧
      (Emission.declarations session.ledger registry.style .none registry.selection).run
        { state := () } = .ok (registry.style.spellBlock pieces) after ∧
      (registry.style.spellBlock pieces).render =
        "const p0 = 1;const p1 = q0+1;const q0 = 2;" ∧
      pieces.map Piece.name = registry.selection.toList ∧
      pieces.map (·.code.render) = ["const p0 = 1;", "const p1 = q0+1;", "const q0 = 2;"] ∧
      ¬ session.ledger.DeclaredBeforeUse pieces := by
  intro value operations session
  let registry : Registry := session.registries.headD default
  have opened : session.registries[0]? = some registry := by decide +kernel
  have selfContained : registry.SelfContained session.ledger := by decide +kernel
  have distinct : (registry.handles.map Handle.text).Nodup := by decide +kernel
  have grouped := grouped_run operations registry (List.mem_of_getElem? opened)
  have names := registry.names_pieces session.ledger
  obtain ⟨after, emitted⟩ := selfContained.run_declarations grouped
  refine ⟨registry, registry.pieces session.ledger, after, opened, selfContained, distinct,
    emitted, by decide +kernel, names.trans grouped.toList_selection.symm, by decide +kernel,
    fun declared => ?_⟩
  rw [Ledger.declaredBeforeUse_iff (by decide +kernel), names] at declared
  let second : Handle := ⟨2, ⟨"p1"⟩, "p"⟩
  obtain ⟨other, same, pair⟩ := declared second (by decide +kernel) ⟨"q0"⟩ (by decide +kernel)
  have behind : ∀ other ∈ registry.handles, other.ident = ⟨"q0"⟩ →
      ¬ [other, second].Sublist registry.handles := by decide +kernel
  exact behind other (pair.subset List.mem_cons_self) same pair

end Session

end NameScope
