import ScriptCheck.Check.Expr

/-!
# Checks that announce their scopes

A rule gets the number of a scope, and it opens scopes and gives their numbers to the checks of its
parts. `Expr.announced` is the check of an expression in which every check of a subexpression
announces the number of its scope before it starts and again after it has ended. An announcement
that does nothing as long as the scope is open, and anything whatsoever if it is not, shows whether
checks only ever use scopes that are open: they do if the check with announcements gives what the
check gives.
-/

namespace ScriptCheck

/-- The part with the number of the scope announced before and after the check. -/
def Part.announced (announce : Nat → CheckM Unit) (part : Part) : Part :=
  { part with
    check := fun id hint => do
      announce id
      let ty ← part.check id hint
      announce id
      return ty }

/-- An expression that announces the scopes in which it and its subexpressions are checked. -/
def Expr.announced (announce : Nat → CheckM Unit) (e : Expr) : Part :=
  e.wrapped (Part.announced announce)

end ScriptCheck
