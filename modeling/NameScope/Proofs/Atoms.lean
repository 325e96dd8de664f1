import NameScope.Proofs.Concatenation

/-!
# Fragments by their atoms

The atoms of a fragment are the characters of its texts and its identifiers, each
identifier as one symbol. They forget how text was cut into pieces, and nothing else:
items in canonical form can be gathered from their atoms again
(`Item.gather_flatten`), and every list of atoms is that of some fragment. Under
concatenation, fragments are therefore the free monoid over atoms, and their text and
their identifiers are read off the atoms (`Fragment.free_over_atoms`).

Fragments are mostly built by pushing, one piece behind the other. A `Draft` is a
record of this, and `Draft.items` carries it out on a plain list, where only the last
item is looked at. What comes out are the items of the concatenation
(`Draft.items_eq`).
-/

namespace NameScope

/-- One symbol of a fragment. -/
inductive Atom where
  | char (c : Char)
  | ident (name : Ident)
deriving DecidableEq

namespace Atom

/-- The text of an atom. -/
def render : Atom → String
  | .char c => String.singleton c
  | .ident name => name.text

/-- The identifier of an atom that is one. -/
def ident? : Atom → Option Ident
  | .char _ => none
  | .ident name => some name

/-- The atom as an item by itself. -/
def item : Atom → Item
  | .char c => .text (String.singleton c)
  | .ident name => .ident name

end Atom

namespace Item

/-- The atoms of an item. -/
def atoms : Item → List Atom
  | .text s => s.toList.map .char
  | .ident name => [.ident name]

/-- The atoms of items, one item after the other. -/
def flatten (items : List Item) : List Atom := items.flatMap atoms

/-- The items that atoms make up. -/
def gather (atoms : List Atom) : List Item :=
  atoms.foldr (fun atom items => atom.item.prepend items) []

@[simp] theorem flatten_nil : flatten [] = [] := rfl

@[simp] theorem flatten_cons (item : Item) (items : List Item) :
    flatten (item :: items) = item.atoms ++ flatten items := rfl

@[simp] theorem flatten_append (items more : List Item) :
    flatten (items ++ more) = flatten items ++ flatten more :=
  List.flatMap_append

@[simp] theorem atoms_item (atom : Atom) : atom.item.atoms = [atom] := by
  cases atom with
  | char c => simp [Atom.item, atoms]
  | ident name => rfl

theorem atoms_text_append (s t : String) :
    (text (s ++ t)).atoms = (text s).atoms ++ (text t).atoms := by
  simp [atoms]

theorem flatten_prepend (item : Item) (items : List Item) :
    flatten (item.prepend items) = item.atoms ++ flatten items := by
  cases item with
  | ident name => rfl
  | text s =>
      by_cases vacant : s = ""
      · simp [prepend, atoms, vacant]
      · cases items with
        | nil => simp [prepend, vacant]
        | cons head rest =>
            cases head with
            | ident name => simp [prepend, vacant]
            | text t => simp [prepend, vacant, atoms_text_append]

/-! ## From atoms back to items -/

theorem canonical_gather (atoms : List Atom) : Fragment.Canonical (gather atoms) := by
  induction atoms with
  | nil => exact .nil
  | cons atom rest ih => exact ih.prepend atom.item

theorem flatten_gather (atoms : List Atom) : flatten (gather atoms) = atoms := by
  induction atoms with
  | nil => rfl
  | cons atom rest ih =>
      show flatten (atom.item.prepend (gather rest)) = atom :: rest
      rw [flatten_prepend, ih, atoms_item]
      rfl

/-- The atoms of one item are gathered in front of items like the item itself. -/
theorem gather_atoms_append (item : Item) (atoms : List Atom) :
    gather (item.atoms ++ atoms) = item.prepend (gather atoms) := by
  cases item with
  | ident name => rfl
  | text s =>
      -- one character after the other merges into what stands behind it
      have general : ∀ cs : List Char, gather (cs.map Atom.char ++ atoms) =
          prepend (.text (String.ofList cs)) (gather atoms) := by
        intro cs
        induction cs with
        | nil => simp [prepend]
        | cons c rest ih =>
            show prepend (Atom.char c).item (gather (rest.map Atom.char ++ atoms)) = _
            rw [ih, String.ofList_cons, prepend_text_append]
            rfl
      simpa [Item.atoms] using general s.toList

/-- **The atoms determine the items**, as far as these are in canonical form. -/
theorem gather_flatten {items : List Item} (canonical : Fragment.Canonical items) :
    gather (flatten items) = items := by
  induction items with
  | nil => rfl
  | cons item rest ih =>
      rw [flatten_cons, gather_atoms_append, ih canonical.tail, prepend_of_canonical canonical]

theorem flatten_inj {items others : List Item} (canonical : Fragment.Canonical items)
    (canonical' : Fragment.Canonical others) : flatten items = flatten others ↔ items = others := by
  constructor
  · intro same
    rw [← gather_flatten canonical, same, gather_flatten canonical']
  · exact congrArg flatten

/-- Items in canonical form have atoms, unless there are no items. -/
theorem flatten_eq_nil_iff {items : List Item} (canonical : Fragment.Canonical items) :
    flatten items = [] ↔ items = [] :=
  flatten_inj canonical .nil

/-! ## Text and identifiers -/

theorem render_eq (item : Item) : item.render = String.join (item.atoms.map Atom.render) := by
  cases item with
  | ident name => simp [Item.render, atoms, Atom.render]
  | text s =>
      apply String.toList_inj.mp
      simp [Item.render, atoms, String.toList_join, List.flatMap_map, Atom.render]

/-- Characters contain no identifier. -/
theorem filterMap_ident?_chars (cs : List Char) :
    (cs.map Atom.char).filterMap Atom.ident? = [] := by
  induction cs with
  | nil => rfl
  | cons c rest ih => exact ih

theorem ident?_eq (item : Item) : item.ident?.toList = item.atoms.filterMap Atom.ident? := by
  cases item with
  | ident name => rfl
  | text s => exact (filterMap_ident?_chars s.toList).symm

/-! ## Pushing -/

/-- Put an item behind others: text goes into the text that stands last, if there is
one, and empty text leaves nothing. -/
def push (items : List Item) : Item → List Item
  | .ident name => items ++ [.ident name]
  | .text s =>
    if s = "" then items
    else match items.getLast? with
      | some (.text last) => items.dropLast ++ [.text (last ++ s)]
      | _ => items ++ [.text s]

theorem flatten_push (items : List Item) (item : Item) :
    flatten (push items item) = flatten items ++ item.atoms := by
  cases item with
  | ident name => simp [push, atoms]
  | text s =>
      by_cases vacant : s = ""
      · simp [push, atoms, vacant]
      · rcases List.eq_nil_or_concat items with rfl | ⟨front, last, rfl⟩
        · simp [push, vacant]
        · cases last with
          | ident name => simp [push, vacant]
          | text t => simp [push, vacant, atoms_text_append]

theorem flatten_foldl_push (items more : List Item) :
    flatten (more.foldl push items) = flatten items ++ flatten more := by
  induction more generalizing items with
  | nil => simp
  | cons item rest ih => rw [List.foldl_cons, ih, flatten_push, flatten_cons, List.append_assoc]

end Item

namespace Fragment

namespace Canonical

theorem front {front : List Item} {last : Item} (h : Canonical (front ++ [last])) :
    Canonical front := by
  refine ⟨fun held => h.occupied (List.mem_append_left _ held), fun before s t after e => ?_⟩
  exact h.merged before s t (after ++ [last]) (by simp [e])

theorem concat {front : List Item} {last : Item} (h : Canonical front) (occupied : last ≠ .text "")
    (apart : ∀ before s t, last = .text t → front ≠ before ++ [.text s]) :
    Canonical (front ++ [last]) := by
  refine ⟨fun held => ?_, fun before s t after e => ?_⟩
  · rcases List.mem_append.mp held with held | held
    · exact h.occupied held
    · exact occupied (List.mem_singleton.mp held).symm
  · rcases List.eq_nil_or_concat after with rfl | ⟨after, end', rfl⟩
    · -- the two texts are the end of the list
      have split : front ++ [last] = (before ++ [.text s]) ++ [.text t] := by simp [e]
      obtain ⟨front_eq, last_eq⟩ := List.append_inj' split rfl
      exact apart before s t (List.cons.inj last_eq).1 front_eq
    · have split : front ++ [last] = (before ++ .text s :: .text t :: after) ++ [end'] := by
        simp [e]
      exact h.merged before s t after (List.append_inj' split rfl).1

/-- **One push** keeps the form. -/
theorem push {items : List Item} (h : Canonical items) (item : Item) :
    Canonical (Item.push items item) := by
  cases item with
  | ident name => exact h.concat (by simp) (by simp)
  | text s =>
      by_cases vacant : s = ""
      · simpa [Item.push, vacant] using h
      · rcases List.eq_nil_or_concat items with rfl | ⟨front, last, rfl⟩
        · have alone : Canonical ([] ++ [.text s]) := h.concat (by simpa) (by simp)
          simpa [Item.push, vacant] using alone
        · rw [List.concat_eq_append] at h ⊢
          cases last with
          | ident name =>
              have behind : Canonical (front ++ [.ident name] ++ [.text s]) :=
                h.concat (by simpa) (by simp)
              simpa [Item.push, vacant] using behind
          | text t =>
              -- the longer text follows what the shorter one followed
              have longer : Canonical (front ++ [.text (t ++ s)]) := by
                apply h.front.concat (by simp [vacant])
                intro before u v _ front_eq
                exact h.merged before u t [] (by simp [front_eq])
              simpa [Item.push, vacant] using longer

theorem foldl_push {items : List Item} (h : Canonical items) (more : List Item) :
    Canonical (more.foldl Item.push items) := by
  induction more generalizing items with
  | nil => exact h
  | cons item rest ih => exact ih (h.push item)

end Canonical

/-- The characters and identifiers of a fragment, in order. -/
def atoms (f : Fragment) : List Atom := Item.flatten f.items

/-- The fragment of a list of atoms. -/
def ofAtoms (atoms : List Atom) : Fragment := ⟨Item.gather atoms, Item.canonical_gather atoms⟩

@[simp] theorem atoms_ofAtoms (atoms : List Atom) : (ofAtoms atoms).atoms = atoms :=
  Item.flatten_gather atoms

theorem items_eq_iff {a b : Fragment} : a.items = b.items ↔ a.atoms = b.atoms :=
  (Item.flatten_inj a.canonical b.canonical).symm

@[simp] theorem atoms_append (a b : Fragment) : (a ++ b).atoms = a.atoms ++ b.atoms := by
  unfold atoms
  rw [items_append]
  induction a.items with
  | nil => rfl
  | cons item rest ih =>
      rw [List.foldr_cons, Item.flatten_prepend, ih, Item.flatten_cons, List.append_assoc]

theorem atoms_eq_nil_iff {f : Fragment} : f.atoms = [] ↔ f.isEmpty = true :=
  (Item.flatten_eq_nil_iff f.canonical).trans List.isEmpty_iff.symm

/-- The text of a fragment is that of its atoms. -/
theorem render_eq (f : Fragment) : f.render = String.join (f.atoms.map Atom.render) := by
  unfold render atoms
  induction f.items with
  | nil => rfl
  | cons item rest ih =>
      rw [List.map_cons, String.join_cons, ih, Item.render_eq, Item.flatten_cons, List.map_append,
        String.join_append]

/-- The identifiers of a fragment are those of its atoms. -/
theorem idents_eq (f : Fragment) : f.idents = f.atoms.filterMap Atom.ident? := by
  unfold idents atoms
  induction f.items with
  | nil => rfl
  | cons item rest ih =>
      rw [Item.flatten_cons, List.filterMap_append, ← Item.ident?_eq, ← ih]
      cases item with
      | text s => rfl
      | ident name => rfl

@[simp] theorem atoms_text (source : String) :
    (text source).atoms = source.toList.map Atom.char := by
  show Item.flatten (Item.prepend (.text source) []) = _
  rw [Item.flatten_prepend, Item.flatten_nil, List.append_nil]
  rfl

@[simp] theorem render_append (a b : Fragment) : (a ++ b).render = a.render ++ b.render := by
  rw [render_eq, render_eq, render_eq, atoms_append, List.map_append, String.join_append]

@[simp] theorem render_text (source : String) : (text source).render = source := by
  rw [render_eq, atoms_text]
  exact (Item.render_eq (.text source)).symm

@[simp] theorem idents_append (a b : Fragment) : (a ++ b).idents = a.idents ++ b.idents := by
  rw [idents_eq, idents_eq, idents_eq, atoms_append, List.filterMap_append]

@[simp] theorem idents_text (source : String) : (text source).idents = [] := by
  rw [idents_eq, atoms_text, Item.filterMap_ident?_chars]

@[simp] theorem idents_ident (name : Ident) : (ident name).idents = [name] := rfl

@[simp] theorem idents_literal (content : String) : (literal content).idents = [] :=
  idents_text _

/-- A concatenation can be pushed item by item. -/
theorem foldl_push_items (a b : Fragment) : b.items.foldl Item.push a.items = (a ++ b).items := by
  apply (Item.flatten_inj (a.canonical.foldl_push b.items) (a ++ b).canonical).mp
  rw [Item.flatten_foldl_push]
  exact (atoms_append a b).symm

theorem push_items (f : Fragment) (item : Item) :
    Item.push f.items item = (f ++ ⟨item.prepend [], Canonical.nil.prepend item⟩).items := by
  apply (Item.flatten_inj (f.canonical.push item) (f ++ _).canonical).mp
  rw [Item.flatten_push]
  refine Eq.trans ?_ (atoms_append f _).symm
  show _ = _ ++ Item.flatten (item.prepend [])
  rw [Item.flatten_prepend, Item.flatten_nil, List.append_nil]
  rfl

end Fragment

/-! ## Drafts -/

/-- How a fragment is put together: it begins with nothing, a text or an identifier, and
then pieces are pushed behind it. A piece may have been drafted as well, and a draft may
be pushed behind itself. -/
inductive Draft where
  | empty
  | text (source : String)
  | ident (name : Ident)
  | pushText (draft : Draft) (source : String)
  | pushIdent (draft : Draft) (name : Ident)
  | pushLiteral (draft : Draft) (content : String)
  | pushDraft (draft more : Draft)

namespace Draft

/-- The items that come about, each pushed behind those that are there. -/
def items : Draft → List Item
  | .empty => []
  | .text source => Item.push [] (.text source)
  | .ident name => [.ident name]
  | .pushText draft source => Item.push draft.items (.text source)
  | .pushIdent draft name => Item.push draft.items (.ident name)
  | .pushLiteral draft content => Item.push draft.items (.text (StringLiteral.ofString content))
  | .pushDraft draft more => more.items.foldl Item.push draft.items

/-- The fragment that is drafted. -/
def fragment : Draft → Fragment
  | .empty => ∅
  | .text source => .text source
  | .ident name => .ident name
  | .pushText draft source => draft.fragment ++ .text source
  | .pushIdent draft name => draft.fragment ++ .ident name
  | .pushLiteral draft content => draft.fragment ++ .literal content
  | .pushDraft draft more => draft.fragment ++ more.fragment

/-- Pushing comes to the same as concatenation. -/
theorem items_eq (draft : Draft) : draft.items = draft.fragment.items := by
  induction draft with
  | empty => rfl
  | text source =>
      show Item.push (∅ : Fragment).items (.text source) = _
      rw [Fragment.push_items]
      rfl
  | ident name => rfl
  | pushText draft source ih =>
      show Item.push draft.items (.text source) = _
      rw [ih, Fragment.push_items]
      rfl
  | pushIdent draft name ih =>
      show Item.push draft.items (.ident name) = _
      rw [ih, Fragment.push_items]
      rfl
  | pushLiteral draft content ih =>
      show Item.push draft.items (.text (StringLiteral.ofString content)) = _
      rw [ih, Fragment.push_items]
      rfl
  | pushDraft draft more ih ih' =>
      show more.items.foldl Item.push draft.items = _
      rw [ih, ih', Fragment.foldl_push_items]
      rfl

end Draft

namespace Fragment

/-- **Fragments are the free monoid over atoms.** In whatever is drafted, no text is empty
and none stands directly before another, and the drafted fragment has the same items. So the
items are the same exactly if the atoms are, and every list of atoms is that of a fragment.
One fragment behind another is what pushing its items one by one comes to; this joins the
atoms, the texts and the identifiers, is associative, and leaves a fragment alone if the other
one is empty. Text and identifiers are those of the atoms, and a fragment is empty exactly if
it has no atoms, which is more than to have no text. -/
theorem free_over_atoms :
    (∀ draft : Draft, Canonical draft.items ∧ draft.items = draft.fragment.items) ∧
    (∀ a b : Draft, a.items = b.items ↔ Item.flatten a.items = Item.flatten b.items) ∧
    (∀ a b : Fragment, a.items = b.items ↔ a.atoms = b.atoms) ∧
    (∀ atoms : List Atom, ∃ f : Fragment, f.atoms = atoms) ∧
    (∀ a b : Fragment, (a ++ b).items = b.items.foldl Item.push a.items ∧
      (a ++ b).atoms = a.atoms ++ b.atoms ∧ (a ++ b).render = a.render ++ b.render ∧
      (a ++ b).idents = a.idents ++ b.idents) ∧
    (∀ a b c : Fragment, a ++ b ++ c = a ++ (b ++ c) ∧ ∅ ++ a = a ∧ a ++ ∅ = a) ∧
    (∀ f : Fragment, f.render = String.join (f.atoms.map Atom.render) ∧
      f.idents = f.atoms.filterMap Atom.ident?) ∧
    (∀ f : Fragment, f.isEmpty = true ↔ f.atoms = []) ∧
    ∃ f : Fragment, f.render = "" ∧ f.isEmpty = false := by
  have canonical : ∀ draft : Draft, Canonical draft.items := by
    intro draft
    rw [draft.items_eq]
    exact draft.fragment.canonical
  refine ⟨fun draft => ⟨canonical draft, draft.items_eq⟩, ?_, fun a b => items_eq_iff, ?_, ?_, ?_,
    fun f => ⟨render_eq f, idents_eq f⟩, fun f => atoms_eq_nil_iff.symm, ?_⟩
  · exact fun a b => (Item.flatten_inj (canonical a) (canonical b)).symm
  · exact fun atoms => ⟨ofAtoms atoms, atoms_ofAtoms atoms⟩
  · exact fun a b => ⟨(foldl_push_items a b).symm, atoms_append a b, render_append a b,
      idents_append a b⟩
  · exact fun a b c => ⟨append_assoc a b c, empty_append a, append_empty a⟩
  · -- an identifier without a text is there all the same
    exact ⟨.ident ⟨""⟩, rfl, rfl⟩

end Fragment

end NameScope
