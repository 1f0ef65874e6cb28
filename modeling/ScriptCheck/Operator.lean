/-!
# Operators

The operators of scripts and of operator tables in library descriptions. Both write an operator as
its symbol. Functions in an `impl operators` block overload six of them, under names of their own.
-/

namespace ScriptCheck

/-- An operator of the language. -/
inductive Operator where
  | add | sub | mul | div | mod | pow
  | bitAnd | bitOr | bitXor | bitNot
  | eq | notEq | lt | le | gt | ge
  | boolAnd | boolOr | not
deriving DecidableEq, Inhabited

/-- A symbol that no operator has. -/
structure UnknownOperator where
  symbol : String
deriving DecidableEq

/-- The wording of the complaint about an unknown symbol. -/
def UnknownOperator.message (e : UnknownOperator) : String :=
  "unknown operator `" ++ e.symbol ++ "`"

namespace Operator

/-- All operators. -/
def all : List Operator :=
  [add, sub, mul, div, mod, pow, bitAnd, bitOr, bitXor, bitNot, eq, notEq, lt, le, gt, ge,
    boolAnd, boolOr, not]

/-- How an operator is written. -/
def symbol : Operator → String
  | add => "+"
  | sub => "-"
  | mul => "*"
  | div => "/"
  | mod => "%"
  | pow => "**"
  | bitAnd => "&"
  | bitOr => "|"
  | bitXor => "^"
  | bitNot => "~"
  | eq => "=="
  | notEq => "!="
  | lt => "<"
  | le => "<="
  | gt => ">"
  | ge => ">="
  | boolAnd => "&&"
  | boolOr => "||"
  | not => "!"

/-- The operator that is written as `text`. -/
def ofSymbol? (text : String) : Option Operator := all.find? fun op => op.symbol == text

/-- The operator that is written as `text`, or a complaint. -/
def parse (text : String) : Except UnknownOperator Operator :=
  match ofSymbol? text with
  | some op => .ok op
  | none => .error ⟨text⟩

/-- Conjunction and disjunction take two truth values and have no overloads. -/
def isLogical : Operator → Bool
  | boolAnd | boolOr => true
  | _ => false

/-- Each operator is read back from its symbol. -/
@[simp]
theorem ofSymbol?_symbol (op : Operator) : ofSymbol? op.symbol = some op := by
  cases op <;> decide

end Operator

/-- How many operands an overload takes. -/
inductive Arity where
  | unary
  | binary
deriving DecidableEq

/-- The number of parameters of an overload. -/
def Arity.parameterCount : Arity → Nat
  | .unary => 1
  | .binary => 2

/-- The functions that an `impl operators` block may hold, with what each of them overloads. -/
def overloadNames : List (String × Operator × Arity) :=
  [("unary_minus", .sub, .unary), ("add", .add, .binary), ("sub", .sub, .binary),
    ("mul", .mul, .binary), ("div", .div, .binary), ("mod", .mod, .binary)]

/-- The operator that a function of the given name overloads. -/
def overload? (name : String) : Option (Operator × Arity) :=
  (overloadNames.find? fun entry => entry.1 == name).map Prod.snd

end ScriptCheck
