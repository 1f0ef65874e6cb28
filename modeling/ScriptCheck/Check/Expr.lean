import ScriptCheck.Check.Call
import ScriptCheck.Check.Control
import ScriptCheck.Check.Literal

/-!
# Checking expressions

`Expr.wrapped` puts the rules together, by recursion on the expression. Every expression, after its
rule, records its type at its range. All parts may be put into a wrapper, which then sees every
check of a subexpression; a check without one is `Expr.part`.
-/

namespace ScriptCheck

/-- The part with the given rule, which records the type that the rule finds. -/
def Part.ofRule (range : Range) (rule : Nat → Option Ty → CheckM Ty) : Part :=
  { range, check := fun id hint => Check.typed range (rule id hint) }

namespace Expr

variable [Check.Comparing]

mutual
/-- An expression as its surroundings see it, with all parts put into a wrapper. -/
def wrapped (wrap : Part → Part) : Expr → Part
  | .int r _ => wrap (.ofRule r fun _ _ => return Ty.int)
  | .float r _ => wrap (.ofRule r fun _ _ => return Ty.float)
  | .bool r _ => wrap (.ofRule r fun _ _ => return Ty.bool)
  | .string r _ => wrap (.ofRule r fun _ _ => return Ty.string)
  | .var r module name => wrap (.ofRule r fun id _ => Check.var module name id)
  | .call r module name typeArgs args =>
    wrap (.ofRule r fun id hint => Check.call module name typeArgs (wrappedList wrap args) id hint)
  | .methodCall r target name args =>
    wrap (.ofRule r fun id hint =>
      Check.methodCall (target.wrapped wrap) name (wrappedList wrap args) id hint)
  | .field r target name => wrap (.ofRule r fun id _ => Check.field (target.wrapped wrap) name id)
  | .index r target position =>
    wrap (.ofRule r fun id _ => Check.index (target.wrapped wrap) (position.wrapped wrap) id)
  | .unary r op operand =>
    wrap (.ofRule r fun id _ => Check.unary r op (operand.wrapped wrap) id)
  | .binary r left op right =>
    wrap (.ofRule r fun id _ => Check.binary r (left.wrapped wrap) op (right.wrapped wrap) id)
  | .block r expressions =>
    wrap (.ofRule r fun id hint => Check.block (wrappedList wrap expressions) id hint)
  | .declare r isConst binding type value =>
    wrap (.ofRule r fun id _ => Check.declare r isConst binding type (value.wrapped wrap) id)
  | .assign r name op value =>
    wrap (.ofRule r fun id _ => Check.assign name op (value.wrapped wrap) id)
  | .fieldAssign r target name op value =>
    wrap (.ofRule r fun id _ =>
      Check.fieldAssign (target.wrapped wrap) name op (value.wrapped wrap) id)
  | .ifThen r condition thenBranch elseBranch =>
    wrap (.ofRule r fun id hint =>
      Check.ifThen (condition.wrapped wrap) (thenBranch.wrapped wrap) (wrapped? wrap elseBranch) id
        hint)
  | .whileLoop r condition body =>
    wrap (.ofRule r fun id _ => Check.whileLoop (condition.wrapped wrap) (body.wrapped wrap) id)
  | .forLoop r binding source body =>
    wrap (.ofRule r fun id _ =>
      Check.forLoop binding (source.wrapped wrap) (body.wrapped wrap) id)
  | .breakLoop r => wrap (.ofRule r fun id _ => Check.leaveLoop .breakLoop r id)
  | .continueLoop r => wrap (.ofRule r fun id _ => Check.leaveLoop .continueLoop r id)
  | .returnValue r value =>
    wrap (.ofRule r fun id _ => Check.returnValue r (wrapped? wrap value) id)
  | .lambda r params body =>
    wrap { Part.ofRule r fun id hint => Check.lambda r params (body.wrapped wrap) id hint with
      isLambda := true }
  | .array r elements =>
    wrap (.ofRule r fun id hint => Check.array r (wrappedList wrap elements) id hint)
  | .tuple r items => wrap (.ofRule r fun id hint => Check.tuple (wrappedList wrap items) id hint)
  | .record r items =>
    wrap (.ofRule r fun id hint => Check.record (wrappedItems wrap items) id hint)
  | .interval r low high _ =>
    wrap (.ofRule r fun id _ => Check.interval (low.wrapped wrap) (high.wrapped wrap) id)
  | .bracket r inner =>
    wrap { Part.ofRule r fun id hint => (inner.wrapped wrap).check id hint with
      isLambda := (inner.wrapped wrap).isLambda }

/-- The wrapped parts of a list of expressions. -/
def wrappedList (wrap : Part → Part) : List Expr → List Part
  | [] => []
  | e :: rest => e.wrapped wrap :: wrappedList wrap rest

/-- The wrapped parts of record items. -/
def wrappedItems (wrap : Part → Part) : List (Ident × Expr) → List (Ident × Part)
  | [] => []
  | (name, e) :: rest => (name, e.wrapped wrap) :: wrappedItems wrap rest

/-- The wrapped part of an expression that may be missing. -/
def wrapped? (wrap : Part → Part) : Option Expr → Option Part
  | none => none
  | some e => some (e.wrapped wrap)
end

/-- An expression as its surroundings see it. -/
def part (e : Expr) : Part := e.wrapped id

/-- The parts of a list of expressions. -/
def parts (es : List Expr) : List Part := wrappedList id es

/-- The parts of record items. -/
def itemParts (items : List (Ident × Expr)) : List (Ident × Part) := wrappedItems id items

/-- The part of an expression that may be missing. -/
def part? (e : Option Expr) : Option Part := wrapped? id e

@[simp]
theorem part_isLambda : (e : Expr) → e.part.isLambda = e.isLambda
  | .bracket _ inner => part_isLambda inner
  | .lambda _ _ _ => rfl
  | .int .. | .float .. | .bool .. | .string .. | .var .. | .call .. | .methodCall .. | .field ..
  | .index .. | .unary .. | .binary .. | .block .. | .declare .. | .assign .. | .fieldAssign ..
  | .ifThen .. | .whileLoop .. | .forLoop .. | .breakLoop .. | .continueLoop ..
  | .returnValue .. | .array .. | .tuple .. | .record .. | .interval .. => rfl

theorem parts_eq_map (es : List Expr) : parts es = es.map part := by
  induction es with
  | nil => rfl
  | cons e rest ih => exact congrArg (e.part :: ·) ih

/-- Checks an expression in a scope, with the type that the surroundings expect. -/
def check (e : Expr) (id : Nat) (hint : Option Ty) : CheckM Ty := e.part.check id hint

/-- The type of an expression, without a trace in the report or the scopes. -/
def infer (e : Expr) (id : Nat) (hint : Option Ty) : CheckM Ty := Check.infer e.part id hint

end Expr

end ScriptCheck
