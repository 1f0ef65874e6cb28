import ScriptCheck.Check.State

/-!
# Operators

The rules for unary and binary operators. A unary operator is looked up in the prefix table of its
operand, with `Unit` on the other side. A binary one is looked up in the suffix table of the left
operand first and in the prefix table of the right operand second. Conjunction and disjunction take
truth values only.
-/

namespace ScriptCheck.Check

variable [Comparing]

/-- The first of the given overloads that accepts the other operand. -/
def search (overloads : Symbols → List Overload) (other : Ty) : CheckM (Option Overload) := do
  Overload.pickWith Comparing.ask other (overloads (← symbols))

/-- The type of `op operand`, given the type of the operand. -/
def unaryOf (range : Range) (op : Operator) (ty : Ty) : CheckM Ty := do
  if ty.isUnknown then return .unknown
  match ← search (·.prefixOverloads ty op) Ty.unit with
  | some found => return found.result
  | none =>
    error (.unsupported (.unary op ty)) range
    return .unknown

/-- The rule for `op operand`. -/
def unary (range : Range) (op : Operator) (operand : Part) (id : Nat) : CheckM Ty := do
  unaryOf range op (← operand.check id none)

/-- The type of `left op right`, given the types of the operands. -/
def apply (range : Range) (left : Ty) (op : Operator) (right : Ty) : CheckM Ty := do
  if left.isUnknown || right.isUnknown then return .unknown
  match ← search (·.suffixOverloads left op) right with
  | some found => return found.result
  | none =>
    match ← search (·.prefixOverloads right op) left with
    | some found => return found.result
    | none =>
      error (.unsupported (.binary op left right)) range
      return .unknown

/-- The rule for `left op right`. -/
def binary (range : Range) (left : Part) (op : Operator) (right : Part) (id : Nat) : CheckM Ty := do
  if op.isLogical then
    require left Ty.bool id
    require right Ty.bool id
    return Ty.bool
  else
    let l ← left.check id none
    let r ← right.check id none
    apply range l op r

end ScriptCheck.Check
