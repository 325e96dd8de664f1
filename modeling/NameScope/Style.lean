import NameScope.Fragment

/-!
# Output style

A `Style` is a choice among the three conventions of the generated code: which
keyword declares a variable, how modules are loaded, and whether every
declaration ends a line.
-/

namespace NameScope

/-- The keyword of a variable declaration. -/
inductive Keyword where
  | const
  | letBinding
  | var
deriving DecidableEq, Repr

/-- The text of a keyword. -/
def Keyword.text : Keyword → String
  | .const => "const"
  | .letBinding => "let"
  | .var => "var"

/-- The conventions of the generated code. -/
structure Style where
  /-- Declare with `var` instead of `const`. -/
  es5 : Bool := false
  /-- Load modules by `import` statements instead of `require` calls. -/
  esm : Bool := false
  /-- End every declaration with a line break. -/
  lines : Bool := false
deriving DecidableEq, Repr, Inhabited

namespace Style

/-- The keyword of declarations. -/
def keyword (style : Style) : Keyword := if style.es5 then .var else .const

/-- What follows every declaration. -/
def separator (style : Style) : Fragment := if style.lines then .text "\n" else ∅

/-- The declaration of `name` with the value `code`. -/
def declare (style : Style) (name : Ident) (code : Fragment) : Fragment :=
  .text (style.keyword.text ++ " ") ++ .ident name ++ .text " = " ++ code ++ .text ";"

end Style

end NameScope
