import ScriptCheck.Script.TypeSpec

/-!
# Expressions

The language has no statements: a block is a list of expressions and has the value of the last one,
declarations and loops have the value `Unit`. Every node carries the range it was read from.
-/

namespace ScriptCheck

/-- What a `let` or a `for` binds. -/
inductive Binding where
  | single (name : Ident)
  /-- Several names, by position for tuples and by field name for records. -/
  | tuple (names : List Ident)
deriving Inhabited

/-- A parameter of a lambda. -/
structure LambdaParam where
  name : Ident
  type : Option TypeSpec := none
deriving Inhabited

/-- An expression. -/
inductive Expr where
  | int (range : Range) (value : Int)
  | float (range : Range) (value : Float)
  | bool (range : Range) (value : Bool)
  | string (range : Range) (value : String)
  /-- `name` or `module::name`. -/
  | var (range : Range) (scope : Option Ident) (name : Ident)
  /-- `name(args)`, `module::name(args)` or `name<T>(args)`. -/
  | call (range : Range) (scope : Option Ident) (name : Ident) (typeArgs : List TypeSpec)
      (args : List Expr)
  | methodCall (range : Range) (target : Expr) (name : Ident) (args : List Expr)
  | field (range : Range) (target : Expr) (name : Ident)
  | index (range : Range) (target position : Expr)
  | unary (range : Range) (op : Operator) (operand : Expr)
  | binary (range : Range) (left : Expr) (op : Operator) (right : Expr)
  | block (range : Range) (expressions : List Expr)
  /-- A `let`, or a `const` inside a block. -/
  | declare (range : Range) (isConst : Bool) (binding : Binding) (type : Option TypeSpec)
      (value : Expr)
  /-- `name = value`, or `name op= value`. -/
  | assign (range : Range) (name : Ident) (op : Option Operator) (value : Expr)
  /-- `target.name = value`, or `target.name op= value`. -/
  | fieldAssign (range : Range) (target : Expr) (name : Ident) (op : Option Operator)
      (value : Expr)
  | ifThen (range : Range) (condition thenBranch : Expr) (elseBranch : Option Expr)
  | whileLoop (range : Range) (condition body : Expr)
  | forLoop (range : Range) (binding : Binding) (source body : Expr)
  | breakLoop (range : Range)
  | continueLoop (range : Range)
  | returnValue (range : Range) (value : Option Expr)
  | lambda (range : Range) (params : List LambdaParam) (body : Expr)
  | array (range : Range) (elements : List Expr)
  | tuple (range : Range) (items : List Expr)
  | record (range : Range) (items : List (Ident × Expr))
  /-- `low..high`, or `low...high` if the end belongs to the range. -/
  | interval (range : Range) (low high : Expr) (inclusive : Bool)
  | bracket (range : Range) (inner : Expr)
deriving Inhabited

namespace Expr

/-- The range of an expression. -/
def range : Expr → Range
  | .int r _ | .float r _ | .bool r _ | .string r _ | .var r _ _ | .call r _ _ _ _
  | .methodCall r _ _ _ | .field r _ _ | .index r _ _ | .unary r _ _ | .binary r _ _ _
  | .block r _ | .declare r _ _ _ _ | .assign r _ _ _ | .fieldAssign r _ _ _ _
  | .ifThen r _ _ _ | .whileLoop r _ _ | .forLoop r _ _ _ | .breakLoop r | .continueLoop r
  | .returnValue r _ | .lambda r _ _ | .array r _ | .tuple r _ | .record r _
  | .interval r _ _ _ | .bracket r _ => r

/-- Whether an expression is a lambda, possibly in brackets. -/
def isLambda : Expr → Bool
  | .lambda _ _ _ => true
  | .bracket _ inner => inner.isLambda
  | _ => false

/-- Whether an expression has the value `Unit` whatever its parts are. -/
def isStatement : Expr → Bool
  | .declare .. | .assign .. | .fieldAssign .. | .whileLoop .. | .forLoop .. => true
  | _ => false

mutual
/-- Where the value of a body comes from: the last expression of a block. -/
def resultRange : Expr → Range
  | .block r expressions => lastRange r expressions
  | e => e.range

/-- The result range of the last of several expressions. -/
def lastRange (default : Range) : List Expr → Range
  | [] => default
  | [e] => e.resultRange
  | _ :: rest => lastRange default rest
end

end Expr

end ScriptCheck
