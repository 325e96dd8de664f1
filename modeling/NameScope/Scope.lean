/-!
# Scopes

A `Scope` says under which stems names may be allocated. It may list the stems
it allows, and it lies inside other scopes. Two rules keep scopes apart:

* a scope with a non-empty list refuses every stem that is not on it;
* a scope refuses every stem that is on the list of a scope around it.
-/

namespace NameScope

/-- Which stems a scope allows, and what the scopes around it list. -/
structure Scope where
  /-- The stems listed, if there is a list. -/
  allowed : Option (List String) := none
  /-- The lists of the scopes around this one, innermost first. -/
  enclosing : List (Option (List String)) := []
deriving DecidableEq, Repr, Inhabited

namespace Scope

/-- The scope with `stems` as its list. -/
def restrictTo (scope : Scope) (stems : List String) : Scope :=
  { scope with allowed := some stems }

/-- The scope placed directly inside `parent`. -/
def placeIn (scope parent : Scope) : Scope :=
  { scope with enclosing := parent.allowed :: parent.enclosing }

/-- Whether a list, if there is one, names the stem. -/
def lists (allowed : Option (List String)) (stem : String) : Bool :=
  allowed.any (·.contains stem)

/-- Whether a scope around this one lists the stem. -/
def reserved (scope : Scope) (stem : String) : Bool :=
  scope.enclosing.any (lists · stem)

/-- Whether the scope has a non-empty list that lacks the stem. -/
def excludes (scope : Scope) (stem : String) : Bool :=
  scope.allowed.any fun stems => !stems.isEmpty && !stems.contains stem

/-- Whether names may be allocated under the stem. -/
def permits (scope : Scope) (stem : String) : Bool :=
  !scope.reserved stem && !scope.excludes stem

end Scope

end NameScope
