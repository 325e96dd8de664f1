/-!
# Identifiers

An `Ident` is an identifier as it stands in generated code. Two identifiers are
the same exactly when their texts are; making texts differ is the work of
whoever hands identifiers out.
-/

namespace NameScope

/-- An identifier in generated code. -/
structure Ident where
  text : String
deriving DecidableEq, Inhabited

namespace Ident

/-- The identifiers of a list without repetitions, in the order of their texts
(character by character, by code point). -/
def distinctSorted (idents : List Ident) : List Ident :=
  idents.eraseDups.mergeSort (fun a b => decide (a.text ≤ b.text))

end Ident

end NameScope
