import Mathlib.Data.Set.Card
import Mathlib.Logic.Relation

/-!
# Depth-first post-order

`PostOrder next seen roots order` says that a depth-first search from `roots`, which
passes over what it has `seen`, leaves the nodes in `order`, each behind the nodes
that were found below it. A search of a finite graph comes to an end
(`exists_postOrder`), leaves exactly the nodes that can be reached
(`PostOrder.mem_iff`), each once (`PostOrder.nodup`), and leaves a node behind its
successors unless it can be reached from them (`PostOrder.sublist`).
-/

namespace NameScope

variable {α : Type}

/-- The nodes in the order in which a depth-first search is done with them. -/
inductive PostOrder (next : α → List α) : Set α → List α → List α → Prop
  | nil (seen : Set α) : PostOrder next seen [] []
  | skip {seen : Set α} {node : α} {rest order : List α} : node ∈ seen →
      PostOrder next seen rest order → PostOrder next seen (node :: rest) order
  | visit {seen : Set α} {node : α} {rest below later : List α} : node ∉ seen →
      PostOrder next (insert node seen) (next node) below →
      PostOrder next (insert node seen ∪ {found | found ∈ below}) rest later →
      PostOrder next seen (node :: rest) (below ++ node :: later)

/-- One step from a node to one of its successors. -/
abbrev StepsTo (next : α → List α) (node successor : α) : Prop := successor ∈ next node

/-- Any number of steps. -/
abbrev LeadsTo (next : α → List α) : α → α → Prop := Relation.ReflTransGen (StepsTo next)

namespace PostOrder

variable {next : α → List α} {seen : Set α} {roots order : List α} {node : α}

theorem unseen (search : PostOrder next seen roots order) :
    ∀ node ∈ order, node ∉ seen := by
  induction search with
  | nil seen => exact fun _ held => absurd held List.not_mem_nil
  | skip known rest ih => exact ih
  | @visit seen first rest below later new inside after ihInside ihAfter =>
      intro node held known
      rcases List.mem_append.mp held with held | held
      · exact ihInside node held (.inr known)
      · rcases List.mem_cons.mp held with rfl | held
        · exact new known
        · exact ihAfter node held (.inl (.inr known))

/-- No node is left twice. -/
theorem nodup (search : PostOrder next seen roots order) : order.Nodup := by
  induction search with
  | nil seen => exact List.nodup_nil
  | skip known rest ih => exact ih
  | @visit seen first rest below later new inside after ihInside ihAfter =>
      have apart := after.unseen
      refine List.nodup_append.mpr ⟨ihInside, List.nodup_cons.mpr ⟨?_, ihAfter⟩, ?_⟩
      · intro held
        exact apart first held (.inl (.inl rfl))
      · -- what was found below counts as seen for the rest of the search
        intro node early other late same
        subst same
        rcases List.mem_cons.mp late with rfl | late
        · exact inside.unseen node early (.inl rfl)
        · exact apart node late (.inr early)

/-- Every node that is left can be reached from a root. -/
theorem reached (search : PostOrder next seen roots order) :
    ∀ node ∈ order, ∃ root ∈ roots, LeadsTo next root node := by
  induction search with
  | nil seen => exact fun _ held => absurd held List.not_mem_nil
  | skip known rest ih =>
      intro node held
      obtain ⟨root, among, leads⟩ := ih node held
      exact ⟨root, List.mem_cons_of_mem _ among, leads⟩
  | @visit seen first rest below later new inside after ihInside ihAfter =>
      intro node held
      rcases List.mem_append.mp held with held | held
      · obtain ⟨root, step, leads⟩ := ihInside node held
        exact ⟨first, List.mem_cons_self, .head step leads⟩
      · rcases List.mem_cons.mp held with rfl | held
        · exact ⟨node, List.mem_cons_self, .refl⟩
        · obtain ⟨root, among, leads⟩ := ihAfter node held
          exact ⟨root, List.mem_cons_of_mem _ among, leads⟩

/-- Every root has been seen or is left. -/
theorem roots_covered (search : PostOrder next seen roots order) :
    ∀ root ∈ roots, root ∈ seen ∨ root ∈ order := by
  induction search with
  | nil seen => exact fun _ among => absurd among List.not_mem_nil
  | skip known rest ih =>
      intro root among
      rcases List.mem_cons.mp among with rfl | among
      · exact .inl known
      · exact ih root among
  | @visit seen first rest below later new inside after ihInside ihAfter =>
      intro root among
      simp only [List.mem_append, List.mem_cons]
      rcases List.mem_cons.mp among with rfl | among
      · exact .inr (.inr (.inl rfl))
      · rcases ihAfter root among with ((rfl | known) | early) | late
        · exact .inr (.inr (.inl rfl))
        · exact .inl known
        · exact .inr (.inl early)
        · exact .inr (.inr (.inr late))

/-- What is left behind a node has its successors left, or seen before. -/
theorem successors_covered (search : PostOrder next seen roots order) :
    ∀ node ∈ order, ∀ successor ∈ next node, successor ∈ seen ∨ successor ∈ order := by
  induction search with
  | nil seen => exact fun _ held => absurd held List.not_mem_nil
  | skip known rest ih => exact ih
  | @visit seen first rest below later new inside after ihInside ihAfter =>
      intro node held successor step
      simp only [List.mem_append, List.mem_cons]
      have fromInside : successor ∈ insert first seen ∨ successor ∈ below →
          successor ∈ seen ∨ successor ∈ below ∨ successor = first ∨ successor ∈ later := by
        rintro ((rfl | known) | early)
        · exact .inr (.inr (.inl rfl))
        · exact .inl known
        · exact .inr (.inl early)
      rcases List.mem_append.mp held with held | held
      · exact fromInside (ihInside node held successor step)
      · rcases List.mem_cons.mp held with rfl | held
        · exact fromInside (inside.roots_covered successor step)
        · rcases ihAfter node held successor step with ((rfl | known) | early) | late
          · exact .inr (.inr (.inl rfl))
          · exact .inl known
          · exact .inr (.inl early)
          · exact .inr (.inr (.inr late))

/-- A search that has seen nothing leaves what can be reached from its roots. -/
theorem mem_iff (search : PostOrder next ∅ roots order) :
    node ∈ order ↔ ∃ root ∈ roots, LeadsTo next root node := by
  constructor
  · exact search.reached node
  · intro reachable
    obtain ⟨root, among, leads⟩ := reachable
    induction leads with
    | refl => exact (search.roots_covered root among).resolve_left (Set.notMem_empty root)
    | tail _ step ih =>
        exact (search.successors_covered _ ih _ step).resolve_left (Set.notMem_empty _)

/-- A successor that was not seen before the search stands in front of the node,
or the node can be reached from it. -/
theorem before_or_leadsTo (search : PostOrder next seen roots order) :
    ∀ node ∈ order, ∀ successor ∈ next node,
      successor ∈ seen ∨ [successor, node].Sublist order ∨ LeadsTo next successor node := by
  induction search with
  | nil seen => exact fun _ held => absurd held List.not_mem_nil
  | skip known rest ih => exact ih
  | @visit seen first rest below later new inside after ihInside ihAfter =>
      intro node held successor step
      have pair : ∀ {a b : α}, a ∈ below → b = first ∨ b ∈ later →
          [a, b].Sublist (below ++ first :: later) := by
        intro a b early late
        exact (List.singleton_sublist.mpr early).append
          (List.singleton_sublist.mpr (List.mem_cons.mpr late))
      rcases List.mem_append.mp held with early | notEarly
      · rcases ihInside node early successor step with (rfl | known) | ordered | leads
        · -- the successor is the node that the search is below of, still unfinished
          obtain ⟨root, below, leads⟩ := inside.reached node early
          exact .inr (.inr (.head below leads))
        · exact .inl known
        · exact .inr (.inl (ordered.trans (List.sublist_append_left _ _)))
        · exact .inr (.inr leads)
      · rcases List.mem_cons.mp notEarly with rfl | late
        · rcases inside.roots_covered successor step with (rfl | known) | early
          · exact .inr (.inr .refl)
          · exact .inl known
          · exact .inr (.inl (pair early (.inl rfl)))
        · rcases ihAfter node late successor step with ((rfl | known) | early) | ordered | leads
          · refine .inr (.inl (List.Sublist.trans ?_ (List.sublist_append_right below _)))
            exact (List.singleton_sublist.mpr late).cons_cons successor
          · exact .inl known
          · exact .inr (.inl (pair early (.inr late)))
          · refine .inr (.inl (ordered.trans ?_))
            exact (List.sublist_cons_self first later).trans (List.sublist_append_right below _)
          · exact .inr (.inr leads)

/-- **Successors come first.** A node stands behind a successor from which it cannot
be reached. -/
theorem sublist (search : PostOrder next ∅ roots order) {successor : α} (held : node ∈ order)
    (step : successor ∈ next node) (apart : ¬ LeadsTo next successor node) :
    [successor, node].Sublist order := by
  rcases search.before_or_leadsTo node held successor step with known | ordered | leads
  · exact absurd known (Set.notMem_empty successor)
  · exact ordered
  · exact absurd leads apart

end PostOrder

/-! ## Searches come to an end -/

/-- How many of the nodes have not been seen. -/
noncomputable def unseenCount (nodes : Finset α) (seen : Set α) : Nat :=
  ((nodes : Set α) \ seen).ncard

section Termination

variable {nodes : Finset α} {seen : Set α} {node : α}

private theorem finite_unseen (nodes : Finset α) (seen : Set α) :
    ((nodes : Set α) \ seen).Finite := nodes.finite_toSet.sdiff

theorem unseenCount_mono {more : Set α} (included : seen ⊆ more) :
    unseenCount nodes more ≤ unseenCount nodes seen :=
  Set.ncard_le_ncard (Set.sdiff_subset_sdiff_right included) (finite_unseen nodes seen)

theorem unseenCount_insert (among : node ∈ nodes) (new : node ∉ seen) :
    unseenCount nodes (insert node seen) < unseenCount nodes seen := by
  refine Set.ncard_lt_ncard ?_ (finite_unseen nodes seen)
  refine ⟨Set.sdiff_subset_sdiff_right (Set.subset_insert node seen), fun included => ?_⟩
  exact (included ⟨among, new⟩).2 (.inl rfl)

theorem unseenCount_empty (nodes : Finset α) : unseenCount nodes ∅ = nodes.card := by
  unfold unseenCount
  rw [Set.sdiff_empty, Set.ncard_coe_finset]

/-- A search of finitely many nodes comes to an end. -/
theorem exists_postOrder {next : α → List α}
    (closed : ∀ node ∈ nodes, ∀ successor ∈ next node, successor ∈ nodes)
    {roots : List α} (among : ∀ root ∈ roots, root ∈ nodes) (seen : Set α) :
    ∃ order, PostOrder next seen roots order := by
  -- a visit leaves fewer nodes unseen to the search below it
  induction bound : unseenCount nodes seen using Nat.strong_induction_on
    generalizing roots seen with
  | _ count below =>
      subst bound
      have within : ∀ seen' : Set α, seen ⊆ seen' → ∃ order, PostOrder next seen' roots order := by
        induction roots with
        | nil => exact fun seen' _ => ⟨[], .nil seen'⟩
        | cons root rest ih =>
            intro seen' included
            have later := ih fun other inRest => among other (List.mem_cons_of_mem _ inRest)
            have inside := among root List.mem_cons_self
            by_cases known : root ∈ seen'
            · obtain ⟨order, search⟩ := later seen' included
              exact ⟨order, .skip known search⟩
            · have fewer : unseenCount nodes (insert root seen') < unseenCount nodes seen :=
                (unseenCount_insert inside known).trans_le (unseenCount_mono included)
              obtain ⟨order, search⟩ := below _ fewer (closed root inside) _ rfl
              obtain ⟨order', search'⟩ := later (insert root seen' ∪ {found | found ∈ order})
                fun node known => .inl (.inr (included known))
              exact ⟨order ++ root :: order', .visit known search search'⟩
      exact within seen subset_rfl

end Termination

end NameScope
