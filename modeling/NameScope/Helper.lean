import NameScope.Value

/-!
# Runtime helpers

Helpers are functions of the runtime package that generated code may call. A
helper is registered like any other value and becomes an import in standalone
code.
-/

namespace NameScope

/-- A helper of the runtime package. -/
structure Helper where
  /-- The path of its module, without a file extension. -/
  package : String
  /-- The binding that the module offers. -/
  binding : String
deriving DecidableEq

namespace Helper

/-- Structural equality of two JSON values. -/
def equal : Helper := ⟨"sable/dist/runtime/equal", "default"⟩

/-- The helpers there are. -/
def all : List Helper := [equal]

/-- The helper in the module `package`. -/
def find? (package : String) : Option Helper := all.find? (·.package = package)

/-- The import that loads the helper. -/
def source (helper : Helper) : Import := ⟨helper.package, helper.binding⟩

/-- The expression that loads the helper without an import statement. -/
def code (helper : Helper) : Fragment :=
  .text "require(" ++ .literal helper.package ++ .text (")." ++ helper.binding)

/-- The helper as a value. Its key is the package, so one stem never holds a
helper twice, whatever the reference. -/
def value (helper : Helper) (ref? : Option Ref) : Value :=
  (Value.imported ref? helper.source).withKey (.text helper.package)

end Helper

end NameScope
