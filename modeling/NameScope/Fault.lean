import NameScope.Value

/-!
# Faults

A `Fault` is the cause for which an allocation, a registration or an emission
fails; `Fault.message` words it.
-/

namespace NameScope

/-- Why an operation fails. -/
inductive Fault where
  /-- The scope may not allocate under this stem. -/
  | stemRefused (stem : String)
  /-- A value without a reference was to be bound under this stem. -/
  | missingRef (stem : String)
  /-- The name was bound before. -/
  | alreadyBound (name : String)
  /-- The name was to be emitted but is not bound. -/
  | unbound (name : String)
  /-- Nothing gives code for the value of the name. -/
  | noCode (name : String) (value : Value)
  /-- A module without exports. -/
  | noExports
  /-- A module with a default export and named exports. -/
  | mixedExports
  /-- The name of an export is no identifier. -/
  | badExportName (name : String)
deriving DecidableEq

namespace Fault

/-- The wording of a fault. -/
def message : Fault → String
  | .stemRefused stem => "prefix \"" ++ stem ++ "\" is not allowed in this scope"
  | .missingRef stem => "reference must be passed in value (prefix \"" ++ stem ++ "\")"
  | .alreadyBound name => "name \"" ++ name ++ "\" is already bound to a value"
  | .unbound name => "name \"" ++ name ++ "\" has no value"
  | .noCode name _ => "\"code\" for " ++ name ++ " not defined"
  | .noExports => "standalone module needs a default export or at least one named export"
  | .mixedExports =>
    "standalone module takes either a default export or named exports, not both"
  | .badExportName name => "invalid export name \"" ++ name ++ "\""

/-- The identifier that a fault is about, if it is about one. -/
def name? : Fault → Option String
  | .alreadyBound name | .unbound name | .noCode name _ | .badExportName name => some name
  | .stemRefused _ | .missingRef _ | .noExports | .mixedExports => none

end Fault

end NameScope
