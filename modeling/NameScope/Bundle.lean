import NameScope.Emission

/-!
# Bundles

A `Bundle` lists the exports of a module that runs by itself: either one default
export or any number of named ones. The module opens with a directive. For every
export there follow its statement and the declarations that the exported name
needs and that do not stand above it already; all exports share one tracker.
-/

namespace NameScope

/-- One export of a module. -/
inductive Export where
  | standard (entry : Handle)
  | named (name : String) (entry : Handle)

namespace Export

/-- The name that is exported. -/
def entry : Export → Handle
  | .standard handle => handle
  | .named _ handle => handle

/-- A letter, an underscore or a dollar sign. -/
def startsIdentifier (c : Char) : Bool := c.isAlpha || c = '_' || c = '$'

/-- A letter, a digit, an underscore or a dollar sign. -/
def continuesIdentifier (c : Char) : Bool := startsIdentifier c || c.isDigit

/-- Whether a text can stand as the name of an export. Letters and digits are
those of ASCII. -/
def isIdentifier (text : String) : Bool :=
  match text.toList with
  | [] => false
  | c :: rest => startsIdentifier c && rest.all continuesIdentifier

/-- The statement `target = entry;`. -/
def assign (target : String) (entry : Handle) : Fragment :=
  .text (target ++ " = ") ++ .ident entry.ident ++ .text ";"

/-- The statement of an export. -/
def statement (style : Style) : Export → Except Fault Fragment
  | .standard handle =>
    if style.esm then
      .ok (assign "export const validate" handle ++ style.separator
        ++ .text "export default " ++ .ident handle.ident ++ .text ";")
    else
      .ok (assign "module.exports" handle ++ style.separator
        ++ assign "module.exports.default" handle)
  | .named name handle =>
    if isIdentifier name then
      .ok (assign ((if style.esm then "export const " else "exports.") ++ name) handle)
    else .error (.badExportName name)

end Export

/-- The exports of a module. -/
structure Bundle where
  standard? : Option Handle := none
  /-- Export names with what they export, in order. -/
  named : List (String × Handle) := []
deriving DecidableEq

namespace Bundle

variable {σ : Type}

/-- Set the default export; the last one set counts. -/
def exportDefault (bundle : Bundle) (entry : Handle) : Bundle :=
  { bundle with standard? := some entry }

/-- Add a named export. -/
def exportAs (bundle : Bundle) (name : String) (entry : Handle) : Bundle :=
  { bundle with named := bundle.named ++ [(name, entry)] }

/-- The exports in order, if they are of one kind and there are any. -/
def exports (bundle : Bundle) : Except Fault (List Export) :=
  match bundle.standard?, bundle.named with
  | none, [] => .error .noExports
  | some _, _ :: _ => .error .mixedExports
  | some entry, [] => .ok [.standard entry]
  | none, named => .ok (named.map fun (name, entry) => .named name entry)

/-- The statement of an export and the declarations that it adds. -/
def exportBlock (ledger : Ledger) (style : Style) (supply : Supplier σ) (item : Export) :
    EmitM σ Fragment := do
  match item.statement style with
  | .error fault => EmitM.fail fault
  | .ok statement =>
    let body ← Emission.declarations ledger style supply (.ofList [item.entry])
    return statement ++ style.separator ++ body

/-- The blocks of exports, one after another. -/
def exportBlocks (ledger : Ledger) (style : Style) (supply : Supplier σ) :
    List Export → EmitM σ Fragment
  | [] => pure ∅
  | item :: rest => do
    let block ← exportBlock ledger style supply item
    let later ← exportBlocks ledger style supply rest
    return block ++ later

/-- The directive that opens the module. -/
def directive (style : Style) : Fragment := .text "\"use strict\";" ++ style.separator

/-- The code of the module, with the tracker at hand. -/
def assemble (ledger : Ledger) (style : Style) (supply : Supplier σ) (bundle : Bundle) :
    EmitM σ Fragment :=
  match bundle.exports with
  | .error fault => EmitM.fail fault
  | .ok items => do
    let blocks ← exportBlocks ledger style supply items
    return directive style ++ blocks

/-- The code of the module, with a tracker of its own. -/
def render (ledger : Ledger) (style : Style) (supply : Supplier σ) (bundle : Bundle) :
    EmitM σ Fragment :=
  EmitM.apart (assemble ledger style supply bundle)

/-- The names that a bundle exports. -/
def entries (bundle : Bundle) : List Handle :=
  bundle.standard?.toList ++ bundle.named.map Prod.snd

end Bundle

end NameScope
