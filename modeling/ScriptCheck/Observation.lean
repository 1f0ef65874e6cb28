import ScriptCheck.Announcement
import ScriptCheck.Validate

/-!
# Validation under observation

`Script.observed watch` validates a script and applies `watch` to the state before and after the
check of every expression in the second pass, wherever the expression stands. All else is as in
`Script.validate`. An observer that leaves alone all states with a certain property, and spoils
every other one, shows whether each observed state has the property: it does if validation under
observation gives what validation gives.
-/

namespace ScriptCheck

/-- The part with an observer that sees the state before and after the check. -/
def Part.observed (watch : Checker → Checker) : Part → Part := announced fun _ => modify watch

/-- An expression as its surroundings see it, under observation of all its parts. -/
def Expr.observed (watch : Checker → Checker) (e : Expr) : Part := e.wrapped (Part.observed watch)

/-- Checks a script against a library, with an observer of the second pass. -/
def Script.observed (watch : Checker → Checker) (registry : Registry) (script : Script) :
    Validation :=
  script.validateWith (Expr.observed watch) registry

/-- An observer that does nothing is not noticed. -/
theorem Script.observed_id (registry : Registry) (script : Script) :
    script.observed id registry = script.validate registry :=
  rfl

end ScriptCheck
