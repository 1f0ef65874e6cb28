import ScriptCheck.Observation
import ScriptCheck.Report.Excerpt

/-!
# Sums that leave the words

Offsets, lines and characters are kept in words of 32 bits. Sums are formed of them in two places:
when an annotation is checked, for the end of the name in front of its type arguments, and when a
diagnostic is shown, for its line and character counted from one. A sum that leaves the words breaks
off the computation. The computations concerned stand here once more, as such that may break off.

Sums are also formed in silence, while the type of an expression is inferred. `Script.sums` finds
them in a validation in which nothing is muted: every name in front of type arguments is marked
with a token there, which ends where the name ends.
-/

namespace ScriptCheck

/-- The largest number that a word holds. -/
def wordMax : Nat := 4294967295

/-- Why a computation breaks off. -/
inductive Overflow where
  /-- A sum leaves the words. -/
  | sum
  /-- The calls of a comparison without an end fill the stack. -/
  | stack
deriving DecidableEq

namespace Overflow

/-- The wording of the complaint. -/
def message : Overflow → String
  | .sum => "attempt to add with overflow"
  | .stack => "stack overflow"

/-- The value, unless one of the sums that are formed on the way to it leaves the words. -/
def guard {α : Type} (sums : List Nat) (value : α) : Except Overflow α :=
  if sums.all (· ≤ wordMax) then .ok value else .error .sum

end Overflow

/-! ## Ranges and diagnostics -/

/-- The leading bytes of a range, as `Range.leading` gives them. -/
def Range.leading? (r : Range) (count : Nat) : Except Overflow Range :=
  let name := r.leading count
  Overflow.guard [name.stop.offset, name.stop.character] name

namespace Diagnostic

/-- The line and the character of a diagnostic, counted from one. -/
def sums (d : Diagnostic) : List Nat := [d.range.start.line + 1, d.range.start.character + 1]

/-- A diagnostic on one line. -/
def display? (d : Diagnostic) : Except Overflow String := Overflow.guard d.sums d.display

/-- A diagnostic for a tool. -/
def toLine? (d : Diagnostic) (source fileName : String) : Except Overflow String :=
  Overflow.guard d.sums (d.toLine source fileName)

end Diagnostic

/-! ## Validation -/

/-- The state with all inferences forgotten that are under way. -/
def Checker.unmuted (c : Checker) : Checker := { c with muted := 0 }

namespace Declare

/-- The tokens that are passed over in silence when an item is entered. A value is looked at only
for a new constant without a type. -/
def constTokens (s : Symbols) : Item → List Token
  | .const decl =>
    if s.constants.contains decl.name.name || decl.type.isSome then []
    else
      ((inference (decl.value.observed Checker.unmuted)).run
        { view := { symbols := s } }).2.report.tokens
  | _ => []

/-- The tokens that the first pass passes over. -/
def silentTokens (all : List Item) : DeclareM (List Token) := do
  each importItem all
  each structItem all
  each typeItem all
  each functionItem all
  return (← collect constTokens constItem all).flatten

end Declare

/-- The end of a token. -/
def Token.ends (t : Token) : List Nat := [t.range.stop.offset, t.range.stop.character]

namespace Script

/-- The tokens that the first pass passes over. -/
def silentTokens (registry : Registry) (script : Script) : List Token :=
  ((Declare.silentTokens script.items).run
    { symbols := { registry, moduleName := script.name } }).1

/-- The tokens of the second pass, with those that it passes over. -/
def loudTokens (registry : Registry) (script : Script) : List Token :=
  let start : Checker := { view := { symbols := (script.declarations registry).symbols } }
  ((Check.items (Expr.observed Checker.unmuted) script.items).run start).2.report.tokens

/-- The ends of all names that validation comes across, in silence or not. -/
def sums (registry : Registry) (script : Script) : List Nat :=
  (script.silentTokens registry ++ script.loudTokens registry).flatMap Token.ends

/-- Checks a script against a library. -/
def validate? (registry : Registry) (script : Script) : Except Overflow Validation :=
  Overflow.guard (script.sums registry) (script.validate registry)

end Script

end ScriptCheck
