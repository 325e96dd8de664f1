import NameScope.Style
import NameScope.Json.Value

/-!
# Reading a style

A style is read from a JSON text in one of two forms. An object gives the flags
by name: a missing flag is off, no flag is given twice, and members of other
names are passed over. An array gives the flags by position, in the order
`es5`, `esm`, `lines`; those left out at the end are off.
-/

namespace NameScope.Style

/-- The flags that the members read so far have given. -/
structure Draft where
  es5 : Option Bool := none
  esm : Option Bool := none
  lines : Option Bool := none

/-- The style of a draft: a flag not given is off. -/
def Draft.style (draft : Draft) : Style where
  es5 := draft.es5.getD false
  esm := draft.esm.getD false
  lines := draft.lines.getD false

/-- The flag that a value gives, where none was given before. -/
def flag? (given : Option Bool) (value : Json.Value) : Option (Option Bool) :=
  match given, value with
  | none, .bool flag => some (some flag)
  | _, _ => none

/-- Take one member of an object. A key has to be a text even if no flag has
that name. -/
def Draft.member? (draft : Draft) (member : List Nat × Json.Value) : Option Draft := do
  let key ← StringLiteral.joinUnits? member.1
  match String.ofList key with
  | "es5" => return { draft with es5 := ← flag? draft.es5 member.2 }
  | "esm" => return { draft with esm := ← flag? draft.esm member.2 }
  | "lines" => return { draft with lines := ← flag? draft.lines member.2 }
  | _ => return draft

/-- The style of a JSON value. -/
def ofJson? : Json.Value → Option Style
  | .object members => (members.foldlM Draft.member? {}).map Draft.style
  | .array [] => some {}
  | .array [.bool es5] => some { es5 }
  | .array [.bool es5, .bool esm] => some { es5, esm }
  | .array [.bool es5, .bool esm, .bool lines] => some { es5, esm, lines }
  | _ => none

/-- The style of a JSON text. -/
def ofText? (text : String) : Option Style := do
  let value ← Json.Value.ofText? text
  ofJson? value

end NameScope.Style
