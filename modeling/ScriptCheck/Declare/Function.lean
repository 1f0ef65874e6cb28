import ScriptCheck.Declare.State
import ScriptCheck.Ty.Assignable

/-!
# Functions, methods and operators

An `impl` block gives methods to a struct of the script, an `impl operators` block overloads
operators for it. An overload belongs to the suffix table of the struct if its left parameter
accepts the struct, and to the prefix table if its right parameter does; the left one counts first.
A unary overload belongs to the prefix table, with `Unit` for the other operand.
-/

namespace ScriptCheck.Declare

/-- The symbols once something has changed about a struct. -/
def withInfo (s : Symbols) (name : String) (change : StructInfo → StructInfo) : Symbols :=
  { s with structs := s.structs.insert name (change ((s.structs.get? name).getD {})) }

/-- The entry for a function or a method. -/
def functionValue (view : View) (decl : FunctionDecl) (isMethod : Bool) : Value :=
  { ty := .function (signature view decl isMethod)
    definition := view.symbols.define decl.name.range
    description := decl.description }

/-- Whether a method takes a receiver. -/
def hasReceiver (decl : FunctionDecl) : Bool :=
  decl.params.head?.any fun p => p.name.name == "self"

/-! ## Overloads -/

/-- The operator table of a struct that an overload belongs to. -/
inductive Side where
  | prefixSide
  | suffixSide
deriving DecidableEq

/-- What a function of an `impl operators` block overloads, given who answers whether a type accepts
another. -/
def classifyWith {m : Type → Type} [Monad m] (ask : Ty → Ty → m Bool) (view : View) (self : Ty)
    (decl : FunctionDecl) : m (Except OverloadFault (Operator × Side × Overload)) :=
  let sig := signature view decl false
  let overload (other : Ty) : Overload :=
    { other, result := sig.result, definition := view.symbols.define decl.name.range }
  match overload? decl.name.name, sig.params with
  | none, _ => return .error .unknownName
  | some (op, .unary), [operand] => do
    if ← ask operand.ty self then return .ok (op, .prefixSide, overload Ty.unit)
    else return .error .unaryOperand
  | some (_, .unary), params => return .error (.unaryArity params.length)
  | some (op, .binary), [left, right] => do
    if ← ask left.ty self then return .ok (op, .suffixSide, overload right.ty)
    else if ← ask right.ty self then return .ok (op, .prefixSide, overload left.ty)
    else return .error .noStructOperand
  | some (_, .binary), params => return .error (.binaryArity params.length)

/-- What a function of an `impl operators` block overloads. -/
def classify (view : View) (self : Ty) (decl : FunctionDecl) :
    Except OverloadFault (Operator × Side × Overload) :=
  (classifyWith (fun a b => pure (view.symbols.accepts a b)) view self decl : Id _).run

/-- Appends an overload to a table. -/
def addOverload (table : Table Operator (List Overload)) (op : Operator) (overload : Overload) :
    Table Operator (List Overload) :=
  table.insert op ((table.get? op).getD [] ++ [overload])

/-- Adds an overload to the operator table it belongs to. -/
def withOverload (info : StructInfo) (op : Operator) (overload : Overload) : Side → StructInfo
  | .prefixSide =>
    { info with prefixOperators := addOverload info.prefixOperators op overload }
  | .suffixSide =>
    { info with suffixOperators := addOverload info.suffixOperators op overload }

/-! ## Entries -/

/-- What a function is declared for. -/
inductive Owner where
  /-- The script, outside of all blocks. -/
  | module
  /-- The struct of an `impl` block. -/
  | methods (self : SelfType)
  /-- The struct of an `impl operators` block. -/
  | operators (self : SelfType)

/-- The symbols with a function, or what stands in its way. -/
def withFunction (owner : Owner) (decl : FunctionDecl) (s : Symbols) : Except Problem Symbols :=
  let name := decl.name.name
  match owner with
  | .module =>
    if s.functions.contains name then .error (.duplicate .function name)
    else
      .ok { s with
        functions := s.functions.insert name (functionValue { symbols := s } decl false) }
  | .methods self =>
    if hasReceiver decl then
      if ((s.structs.get? self.name).getD {}).methods.contains name then
        .error (.duplicate .method name)
      else
        .ok (withInfo s self.name fun info =>
          { info with
            methods := info.methods.insert name (functionValue { symbols := s, self } decl true) })
    else .error (.badDeclaration (.noReceiver name self.name))
  | .operators self =>
    match classify { symbols := s, self } self.ty decl with
    | .ok (op, side, overload) =>
      .ok (withInfo s self.name fun info => withOverload info op overload side)
    | .error fault => .error (.badOverload name self.name fault)

/-- Enters a function, a method or an operator overload. -/
def enterFunction (owner : Owner) (decl : FunctionDecl) : DeclareM Unit :=
  makeEntry decl.name.range (withFunction owner decl)

/-- Enters the functions of a block for the struct that it extends. Complains if there is none. -/
def block (owner : SelfType → Owner) (decl : ImplDecl) : DeclareM Unit := do
  match (← symbols).selfOf? decl.name.name with
  | some self => each (enterFunction (owner self)) decl.functions
  | none => fail (.undefined .struct decl.name.name none) decl.name.range

end ScriptCheck.Declare
