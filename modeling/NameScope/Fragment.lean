import NameScope.Ident
import NameScope.Json.StringLiteral

/-!
# Fragments of generated code

A `Fragment` is a sequence of items, each either source text or an identifier.
Fragments are put together with `++` from `Fragment.text`, `Fragment.ident` and
`Fragment.literal`. Concatenation merges text with text and drops text without
characters, so how a text was cut into pieces never shows; an identifier is
always an item of its own, even one with an empty text. The type carries the
proof that its items have this form.

Nothing here looks into the text. Whoever builds a fragment answers for its
being well-formed code.
-/

namespace NameScope

/-- One piece of a fragment. -/
inductive Item where
  /-- Source text, written as it stands. -/
  | text (source : String)
  /-- An identifier. -/
  | ident (name : Ident)
deriving DecidableEq, Inhabited

namespace Item

/-- The text of an item. -/
def render : Item → String
  | .text s => s
  | .ident name => name.text

/-- The identifier of an item that is one. -/
def ident? : Item → Option Ident
  | .text _ => none
  | .ident name => some name

/-- Put an item in front of others: text merges with text that follows it, and
empty text leaves nothing. -/
def prepend : Item → List Item → List Item
  | .ident name, rest => .ident name :: rest
  | .text s, rest =>
    if s = "" then rest
    else match rest with
      | .text next :: more => .text (s ++ next) :: more
      | rest => .text s :: rest

end Item

/-- What the items of a fragment satisfy: no text is empty, and no text stands
directly before another. -/
structure Fragment.Canonical (items : List Item) : Prop where
  occupied : Item.text "" ∉ items
  merged : ∀ before s t after, items ≠ before ++ .text s :: .text t :: after

namespace Fragment.Canonical

theorem nil : Canonical [] := ⟨List.not_mem_nil, by simp⟩

theorem tail {a : Item} {rest : List Item} (h : Canonical (a :: rest)) : Canonical rest :=
  ⟨fun held => h.occupied (List.mem_cons_of_mem _ held), fun before s t after e =>
    h.merged (a :: before) s t after (e ▸ rfl)⟩

theorem cons {a : Item} {rest : List Item} (h : Canonical rest) (occupied : a ≠ .text "")
    (apart : ∀ s t more, a = .text s → rest ≠ .text t :: more) : Canonical (a :: rest) := by
  refine ⟨fun held => ?_, fun before s t after e => ?_⟩
  · rcases List.mem_cons.1 held with e | held
    · exact occupied e.symm
    · exact h.occupied held
  · cases before with
    | nil =>
      obtain ⟨head, rest⟩ := List.cons.inj e
      exact apart s t after head rest
    | cons first before => exact h.merged before s t after (List.cons.inj e).2

/-- Putting an item in front keeps the form. -/
theorem prepend {items : List Item} (h : Canonical items) (item : Item) :
    Canonical (item.prepend items) := by
  cases item with
  | ident name => exact h.cons (by simp) (by simp)
  | text s =>
    by_cases vacant : s = ""
    · simpa [Item.prepend, vacant] using h
    · match items with
      | [] => simpa [Item.prepend, vacant] using h.cons (a := .text s) (by simpa) (by simp)
      | .ident name :: rest =>
        simpa [Item.prepend, vacant] using h.cons (a := .text s) (by simpa) (by simp)
      | .text t :: rest =>
        simpa [Item.prepend, vacant] using h.tail.cons (a := .text (s ++ t)) (by simp [vacant])
          (fun _ u more _ e => h.merged [] t u more (e ▸ rfl))

end Fragment.Canonical

/-- An ordered fragment of generated code. -/
structure Fragment where
  items : List Item := []
  canonical : Fragment.Canonical items := by exact Fragment.Canonical.nil

namespace Fragment

/-- The fragment without items. -/
def empty : Fragment := {}

instance : EmptyCollection Fragment := ⟨empty⟩

instance : Inhabited Fragment := ⟨empty⟩

instance : DecidableEq Fragment := fun a b =>
  if h : a.items = b.items then
    isTrue (by cases a; cases b; cases h; rfl)
  else isFalse (fun e => h (e ▸ rfl))

@[ext] theorem ext {a b : Fragment} (h : a.items = b.items) : a = b := by
  cases a; cases b; cases h; rfl

/-- Source text. -/
def text (source : String) : Fragment where
  items := Item.prepend (.text source) []
  canonical := Canonical.nil.prepend _

/-- A single identifier. -/
def ident (name : Ident) : Fragment where
  items := Item.prepend (.ident name) []
  canonical := Canonical.nil.prepend _

/-- A text as a string literal. -/
def literal (content : String) : Fragment := .text (StringLiteral.ofString content)

/-- One fragment after another. -/
def append (a b : Fragment) : Fragment where
  items := a.items.foldr Item.prepend b.items
  canonical := by
    induction a.items with
    | nil => exact b.canonical
    | cons item rest ih => exact ih.prepend item

instance : Append Fragment := ⟨append⟩

/-- Whether the fragment has no items. -/
def isEmpty (f : Fragment) : Bool := f.items.isEmpty

/-- The identifiers of the fragment, in order of appearance. -/
def idents (f : Fragment) : List Ident := f.items.filterMap Item.ident?

/-- The text of the fragment. -/
def render (f : Fragment) : String := String.join (f.items.map Item.render)

/-- Several fragments, one after another. -/
def concat : List Fragment → Fragment
  | [] => ∅
  | f :: rest => f ++ concat rest

end Fragment

end NameScope
