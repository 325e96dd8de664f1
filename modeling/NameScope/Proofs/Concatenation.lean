import NameScope.Fragment

/-!
# Fragments under concatenation

Concatenation is associative and has the fragment without items as its neutral
element on both sides. Both rest on one fact: merging an item into the front of
items commutes with what is put behind them (`Item.foldr_prepend_prepend`).
-/

namespace NameScope

namespace Item

/-- Two texts in front of items merge with each other first or last, alike. -/
theorem prepend_text_append (s t : String) (items : List Item) :
    prepend (.text (s ++ t)) items = prepend (.text s) (prepend (.text t) items) := by
  by_cases noFirst : s = ""
  · simp [prepend, noFirst]
  · by_cases noSecond : t = ""
    · simp [prepend, noSecond]
    · cases items with
      | nil => simp [prepend, noFirst, noSecond]
      | cons head rest =>
          cases head with
          | ident name => simp [prepend, noFirst, noSecond]
          | text u => simp [prepend, noFirst, noSecond, String.append_assoc]

theorem foldr_prepend_prepend (item : Item) (items rest : List Item) :
    (item.prepend items).foldr prepend rest = item.prepend (items.foldr prepend rest) := by
  cases item with
  | ident name => rfl
  | text s =>
      by_cases vacant : s = ""
      · simp [prepend, vacant]
      · cases items with
        | nil => simp [prepend, vacant]
        | cons head more =>
            cases head with
            | ident name => simp [prepend, vacant]
            | text t =>
                -- the merged text is taken apart again to meet what follows
                have merged : prepend (.text s) (.text t :: more) = .text (s ++ t) :: more := by
                  simp [prepend, vacant]
                rw [merged, List.foldr_cons, prepend_text_append, List.foldr_cons]

/-- An item that stands first in a fragment is merged with nothing. -/
theorem prepend_of_canonical {item : Item} {rest : List Item}
    (canonical : Fragment.Canonical (item :: rest)) : item.prepend rest = item :: rest := by
  cases item with
  | ident name => rfl
  | text s =>
      have occupied : s ≠ "" := by
        rintro rfl
        exact canonical.occupied List.mem_cons_self
      cases rest with
      | nil => simp [prepend, occupied]
      | cons head more =>
          cases head with
          | ident name => simp [prepend, occupied]
          | text t => exact absurd rfl (canonical.merged [] s t more)

end Item

namespace Fragment

theorem items_append (a b : Fragment) : (a ++ b).items = a.items.foldr Item.prepend b.items := rfl

@[simp] theorem empty_append (a : Fragment) : ∅ ++ a = a := rfl

@[simp] theorem append_empty (a : Fragment) : a ++ ∅ = a := by
  apply Fragment.ext
  rw [items_append]
  have general : ∀ items, Canonical items → items.foldr Item.prepend [] = items := by
    intro items canonical
    induction items with
    | nil => rfl
    | cons item rest ih =>
        rw [List.foldr_cons, ih canonical.tail, Item.prepend_of_canonical canonical]
  exact general a.items a.canonical

theorem append_assoc (a b c : Fragment) : a ++ b ++ c = a ++ (b ++ c) := by
  apply Fragment.ext
  simp only [items_append]
  induction a.items with
  | nil => rfl
  | cons item rest ih => rw [List.foldr_cons, Item.foldr_prepend_prepend, ih, List.foldr_cons]

theorem concat_append (before after : List Fragment) :
    concat (before ++ after) = concat before ++ concat after := by
  induction before with
  | nil => rfl
  | cons first rest ih =>
      show first ++ concat (rest ++ after) = first ++ concat rest ++ concat after
      rw [ih, append_assoc]

end Fragment

end NameScope
