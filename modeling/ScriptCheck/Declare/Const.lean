import ScriptCheck.Check.Expr
import ScriptCheck.Declare.State

/-!
# Constants

A constant without a type has the type of its value, which is inferred against the symbols declared
so far. Constants come last, so that their values may use every function of the script.
-/

namespace ScriptCheck.Declare

/-- The check of an expression at module level, in silence. -/
def inference (value : Part) : CheckM Ty := do
  let id ← Check.openScope none .block
  Check.infer value id none

/-- The type of an expression at module level. -/
def inferred (s : Symbols) (value : Expr) : Ty :=
  ((inference value.part).run { view := { symbols := s } }).1

/-- The type of a constant. -/
def constType (decl : ConstDecl) (s : Symbols) : Ty :=
  match decl.type with
  | some spec => spec.resolve { symbols := s }
  | none => inferred s decl.value

/-- The entry for a constant. -/
def constValue (decl : ConstDecl) (s : Symbols) : Value :=
  { ty := constType decl s, definition := s.define decl.name.range
    description := decl.description }

/-- Enters a constant. -/
def const (decl : ConstDecl) : DeclareM Unit :=
  let name := decl.name.name
  enterNew .constant name decl.name.range (·.constants.contains name) fun s =>
    { s with constants := s.constants.insert name (constValue decl s) }

end ScriptCheck.Declare
