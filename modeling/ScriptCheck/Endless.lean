import ScriptCheck.Overflow

/-!
# Comparisons without an end

A comparison of types that comes back to its own question has no end (`Symbols.verdict?`), and its
calls fill the stack. Validation breaks off there. `Script.ends` goes through both passes once more
and asks whether all comparisons that they make have an end. What is asked while types are checked
comes to `Comparing.noting`, which notes the comparisons without one.
-/

namespace ScriptCheck

namespace Check

/-- Notes a comparison without an end among the diagnostics, and goes on as if the type were
refused. -/
@[reducible]
def Comparing.noting : Comparing where
  ask expected found := do
    match (← symbols).verdict? expected found with
    | some answer => return answer
    | none =>
      modify fun c =>
        { c with report :=
          { c.report with
            diagnostics := c.report.diagnostics ++ [⟨.error, .mismatch expected found, {}⟩] } }
      return false

/-- Whether all comparisons of a check have an end. It runs in silence, so that nothing else is
noted. -/
def ends {α : Type} (s : Symbols) (check : Comparing → CheckM α) : Bool :=
  ((check .noting).run
    { view := { symbols := s }, muted := 1 }).2.report.diagnostics.isEmpty

end Check

namespace Declare

/-- Whether all comparisons have an end that are made when the functions of an item are entered.
Overloads are compared with their struct, and those of a block in the same symbols: a new overload
changes no answer. -/
def functionEnds (s : Symbols) : Item → Bool
  | .operators decl =>
    match s.selfOf? decl.name.name with
    | some self => decl.functions.all fun f =>
      (classifyWith s.verdict? { symbols := s, self } self.ty f).isSome
    | none => true
  | _ => true

/-- Whether all comparisons have an end that are made when a constant is entered. -/
def constEnds (s : Symbols) : Item → Bool
  | .const decl =>
    s.constants.contains decl.name.name || decl.type.isSome ||
      Check.ends s fun _ => inference decl.value.part
  | _ => true

/-- Whether all comparisons of the first pass have an end. -/
def ends (all : List Item) : DeclareM Bool := do
  each importItem all
  each structItem all
  each typeItem all
  let functions ← collect functionEnds functionItem all
  let constants ← collect constEnds constItem all
  return (functions ++ constants).all id

end Declare

namespace Script

/-- Whether all comparisons of a validation have an end. -/
def ends (registry : Registry) (script : Script) : Bool :=
  ((Declare.ends script.items).run { symbols := { registry, moduleName := script.name } }).1 &&
    Check.ends (script.declarations registry).symbols fun _ =>
      Check.items Expr.part script.items

/-- Checks a script against a library, if the check has an end. -/
def check? (registry : Registry) (script : Script) : Except Overflow Validation :=
  if script.ends registry then script.validate? registry else .error .stack

end Script

end ScriptCheck
