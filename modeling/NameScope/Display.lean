import NameScope.Fragment
import NameScope.Ledger
import NameScope.Text.Quoted

/-!
# Diagnostic texts

How identifiers, fragments, names and tables are shown to a developer. Texts
stand in quotes, except for the text of a bare identifier.
-/

namespace NameScope

open Text (quoted)

/-- The text of an identifier as it is. -/
def Ident.display (ident : Ident) : String := "Name(" ++ ident.text ++ ")"

/-- The text of a fragment. -/
def Fragment.display (fragment : Fragment) : String := "Code(" ++ quoted fragment.render ++ ")"

/-- A slot with its parts. -/
def Slot.display (slot : Slot) : String :=
  "ScopePath \x7b property: " ++ quoted slot.stem ++ ", item_index: "
    ++ toString slot.index ++ " \x7d"

/-- A name with its slot, if it is bound. -/
def Handle.display (ledger : Ledger) (handle : Handle) : String :=
  let slot := match ledger.binding? handle with
    | none => "None"
    | some binding => "Some(" ++ binding.slot.display ++ ")"
  "ValueScopeName \x7b name: " ++ quoted handle.text ++ ", scope_path: " ++ slot ++ " \x7d"

/-- The number of references under every stem of a table. -/
def Table.display (table : Table) : String :=
  let columns := table.columns.entries.map fun (stem, refs) =>
    quoted stem ++ ": " ++ toString refs.length
  "\x7b" ++ String.intercalate ", " columns ++ "\x7d"

end NameScope
