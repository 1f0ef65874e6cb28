import ScriptCheck.Operator
import ScriptCheck.Source.Position
import ScriptCheck.Ty.Display

/-!
# Diagnostics

A `Problem` is the cause of a complaint, with what is needed to word it; `Problem.message` is the
one place that words them. Each problem belongs to a `Category` with a fixed code. A `Diagnostic`
is a problem at a range of the source, as an error or a warning. Warnings are kept for consequences
of an unknown type.
-/

namespace ScriptCheck

/-- How serious a diagnostic is. -/
inductive Severity where
  | warn
  | error
deriving DecidableEq

/-- The kind of symbol that a complaint is about. -/
inductive SymbolKind where
  | var | constant | function | type | struct | field | method | module | parameter
  /-- Anything that a module exports. -/
  | symbol
deriving DecidableEq

/-- The word for a kind of symbol. -/
def SymbolKind.word : SymbolKind → String
  | .var => "variable"
  | .constant => "constant"
  | .function => "function"
  | .type => "type"
  | .struct => "struct"
  | .field => "field"
  | .method => "method"
  | .module => "module"
  | .parameter => "parameter"
  | .symbol => "symbol"

/-- Why a function of an `impl operators` block overloads nothing. -/
inductive OverloadFault where
  | unknownName
  | unaryArity (found : Nat)
  | binaryArity (found : Nat)
  | unaryOperand
  | noStructOperand
deriving DecidableEq

/-- What there are too many or too few of. -/
inductive Counted where
  | arguments (callee : String)
  | typeArguments (name : String)
  | destructured
  | lambdaParams
deriving DecidableEq

/-- What cannot be assigned to. -/
inductive Fixed where
  | constant | parameter | function
deriving DecidableEq

/-- What a type does not support. -/
inductive Unsupported where
  | index (target : Ty)
  | iteration (source : Ty)
  | destructuring (value : Ty)
  | assignment (what : Fixed) (name : String)
  | fieldAssignment (field owner : String)
  | unary (op : Operator) (operand : Ty)
  | binary (op : Operator) (left right : Ty)
deriving DecidableEq

/-- An expression that leaves its place. -/
inductive Jump where
  | breakLoop | continueLoop | returnValue
deriving DecidableEq

/-- What is wrong with a declaration. -/
inductive BadDeclaration where
  | noReceiver (method struct : String)
  | untypedParam (name : String)
deriving DecidableEq

/-- What has no type that could be found out. -/
inductive Uninferred where
  | var (name : String)
  | lambdaParam (name : String)
  | emptyArray
deriving DecidableEq

/-- The cause of a complaint. -/
inductive Problem where
  | duplicate (kind : SymbolKind) (name : String)
  /-- The owner is the type or module in which the symbol was looked for. -/
  | undefined (kind : SymbolKind) (name : String) (owner : Option String)
  | notCallable (name : String) (ty : Ty)
  | mismatch (expected found : Ty)
  | badOverload (name struct : String) (fault : OverloadFault)
  | count (what : Counted) (expected found : Nat)
  | unsupported (what : Unsupported)
  | misplaced (jump : Jump)
  | badDeclaration (what : BadDeclaration)
  | uninferred (what : Uninferred)
deriving DecidableEq

/-- The classes of problems. -/
inductive Category where
  | duplicateSymbol
  | undefinedSymbol
  | notCallable
  | typeMismatch
  | invalidOperatorDeclaration
  | arityMismatch
  | unsupportedOperation
  | invalidControlFlow
  | invalidDeclaration
  | inferenceFailure
deriving DecidableEq

namespace Category

/-- The name of a category. -/
def name : Category → String
  | duplicateSymbol => "DuplicateSymbol"
  | undefinedSymbol => "UndefinedSymbol"
  | notCallable => "NotCallable"
  | typeMismatch => "TypeMismatch"
  | invalidOperatorDeclaration => "InvalidOperatorDeclaration"
  | arityMismatch => "ArityMismatch"
  | unsupportedOperation => "UnsupportedOperation"
  | invalidControlFlow => "InvalidControlFlow"
  | invalidDeclaration => "InvalidDeclaration"
  | inferenceFailure => "InferenceFailure"

/-- The code of a category. -/
def code : Category → String
  | duplicateSymbol => "E0001"
  | undefinedSymbol => "E0002"
  | notCallable => "E0003"
  | typeMismatch => "E0004"
  | invalidOperatorDeclaration => "E0005"
  | arityMismatch => "E0006"
  | unsupportedOperation => "E0007"
  | invalidControlFlow => "E0008"
  | invalidDeclaration => "E0009"
  | inferenceFailure => "E0010"

end Category

/-! ## Wording -/

/-- A text in backquotes. -/
def ticked (text : String) : String := "`" ++ text ++ "`"

/-- What is wrong with the overload called `name` for a struct. -/
def OverloadFault.message (name struct : String) : OverloadFault → String
  | .unknownName =>
    ticked name ++ " is not an operator; expected one of " ++
      ", ".intercalate (overloadNames.map Prod.fst)
  | .unaryArity found =>
    "unary operator " ++ ticked name ++ " takes exactly 1 parameter, found " ++ toString found
  | .binaryArity found =>
    "binary operator " ++ ticked name ++ " takes exactly 2 parameters, found " ++ toString found
  | .unaryOperand =>
    "parameter of unary operator " ++ ticked name ++ " must accept " ++ ticked struct
  | .noStructOperand =>
    "one parameter of operator " ++ ticked name ++ " must accept " ++ ticked struct

/-- What is counted. -/
def Counted.message : Counted → String
  | .arguments callee => "arguments for " ++ ticked callee
  | .typeArguments name => "type arguments for " ++ ticked name
  | .destructured => "tuple destructuring"
  | .lambdaParams => "lambda parameters"

/-- The word for what cannot be assigned to. -/
def Fixed.word : Fixed → String
  | .constant => "constant"
  | .parameter => "parameter"
  | .function => "function"

/-- The wording of what a type does not support. -/
def Unsupported.message : Unsupported → String
  | .index target => ticked target.display ++ " does not support index access"
  | .iteration source => ticked source.display ++ " cannot be iterated"
  | .destructuring value => "cannot destructure " ++ ticked value.display
  | .assignment what name => "cannot assign to " ++ what.word ++ " " ++ ticked name
  | .fieldAssignment field owner =>
    "field " ++ ticked field ++ " of " ++ ticked owner ++ " is read-only"
  | .unary op operand =>
    "no prefix operator " ++ ticked op.symbol ++ " for " ++ ticked operand.display
  | .binary op left right =>
    "no operator " ++ ticked op.symbol ++ " for " ++ ticked left.display ++ " and " ++
      ticked right.display

/-- The keyword of a jump. -/
def Jump.word : Jump → String
  | .breakLoop => "break"
  | .continueLoop => "continue"
  | .returnValue => "return"

/-- What is wrong with a declaration. -/
def BadDeclaration.message : BadDeclaration → String
  | .noReceiver method struct =>
    "method " ++ ticked method ++ " of " ++ ticked struct ++
      " must take `self` as its first parameter"
  | .untypedParam name => "parameter " ++ ticked name ++ " requires a type"

/-- What could not be inferred. -/
def Uninferred.message : Uninferred → String
  | .var name => "type of " ++ ticked name ++ " could not be inferred"
  | .lambdaParam name => "type of lambda parameter " ++ ticked name ++ " could not be inferred"
  | .emptyArray => "type of empty array could not be inferred"

namespace Problem

/-- The category of a problem. -/
def category : Problem → Category
  | .duplicate .. => .duplicateSymbol
  | .undefined .. => .undefinedSymbol
  | .notCallable .. => .notCallable
  | .mismatch .. => .typeMismatch
  | .badOverload .. => .invalidOperatorDeclaration
  | .count .. => .arityMismatch
  | .unsupported .. => .unsupportedOperation
  | .misplaced .. => .invalidControlFlow
  | .badDeclaration .. => .invalidDeclaration
  | .uninferred .. => .inferenceFailure

/-- The text of a problem. -/
def message : Problem → String
  | .duplicate kind name => "duplicate " ++ kind.word ++ " " ++ ticked name
  | .undefined kind name (some owner) =>
    "undefined " ++ kind.word ++ " " ++ ticked name ++ " in " ++ ticked owner
  | .undefined kind name none => "undefined " ++ kind.word ++ " " ++ ticked name
  | .notCallable name ty => ticked name ++ " of type " ++ ticked ty.display ++ " is not callable"
  | .mismatch expected found =>
    "type mismatch: expected " ++ ticked expected.display ++ ", found " ++ ticked found.display
  | .badOverload name struct fault => fault.message name struct
  | .count what expected found =>
    what.message ++ ": expected " ++ toString expected ++ ", found " ++ toString found
  | .unsupported what => what.message
  | .misplaced .returnValue => "`return` outside of a function"
  | .misplaced jump => ticked jump.word ++ " outside of a loop"
  | .badDeclaration what => what.message
  | .uninferred what => what.message

/-- The note that a source excerpt puts under the marked text. -/
def label : Problem → String
  | .duplicate kind _ => kind.word ++ " already declared"
  | .undefined _ _ (some owner) => "not found in " ++ ticked owner
  | .undefined _ _ none => "not found in this scope"
  | .notCallable _ ty => ticked ty.display ++ " is not a function"
  | .mismatch expected found =>
    "expected " ++ ticked expected.display ++ ", found " ++ ticked found.display
  | .badOverload .. => "invalid operator overload"
  | .count _ expected _ => "expected " ++ toString expected
  | .misplaced jump => ticked jump.word ++ " not allowed here"
  | .unsupported _ | .badDeclaration _ | .uninferred _ => "here"

/-- How a value of the wrong type could be turned into one of the expected type. -/
def conversion? (expected found : Ty) : Option String :=
  let toText :=
    if expected = Ty.string ∧ found ≠ .unknown then some "use to_string()" else none
  match expected with
  | .option inner => if inner = found then some "wrap in Some(...)" else toText
  | .result ok _ => if ok = found then some "wrap in Ok(...)" else toText
  | _ => toText

/-- A hint on how to mend the problem. -/
def help? : Problem → Option String
  | .mismatch expected found => conversion? expected found
  | .count _ expected found =>
    some (if found < expected then "missing " ++ toString (expected - found)
      else toString (found - expected) ++ " too many")
  | .uninferred _ => some "add a type annotation"
  | _ => none

end Problem

/-- A problem at a place in the source. -/
structure Diagnostic where
  severity : Severity
  problem : Problem
  range : Range
deriving DecidableEq

namespace Diagnostic

/-- Whether a diagnostic is an error. -/
def isError (d : Diagnostic) : Bool := d.severity == .error

/-- A diagnostic on one line, after its line and character counted from one. -/
def display (d : Diagnostic) : String :=
  toString (d.range.start.line + 1) ++ ":" ++ toString (d.range.start.character + 1) ++ ": " ++
    d.problem.message

end Diagnostic

end ScriptCheck
