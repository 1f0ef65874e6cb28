import ScriptCheck.Json.Reader
import ScriptCheck.Script.Item
import ScriptCheck.Source.Json

/-!
# Reading scripts from JSON

Scripts come from the parser as JSON. `Script.ofJson?` accepts a value as a script and
`Script.read?` a text. Annotations and expressions are always objects; all other records and nodes
may be arrays as well.
-/

namespace ScriptCheck

open Decoder

/-! ## Names and annotations -/

/-- Accepts a name with its range. -/
def Ident.ofJson? : Decoder Ident := keyed ["name", "range"] fun json => do
  return { name := ← member "name" string json, range := ← member "range" Range.ofJson? json }

namespace TypeSpec

/-- The forms of an annotation. -/
def kinds : List String := ["Named", "Array", "Option", "Result", "Tuple", "Record", "Function"]

/-- Accepts the item of a record annotation. -/
def itemOfJson? (spec : Decoder TypeSpec) : Decoder (String × TypeSpec) :=
    keyed ["name", "typeSpec"] fun json => do
  return (← member "name" string json, ← member "typeSpec" spec json)

/-- Accepts an annotation, given the decoder of the annotations inside it. -/
def ofJsonLevel (spec : Decoder TypeSpec) : Decoder TypeSpec := fun json => do
  let range ← member "range" Range.ofJson? json
  match ← member "kind" (formIndex kinds) json with
  | "Named" =>
    return .named range (← member? "namespace" string json) (← member "name" string json)
      (← memberD "genericArgs" (list spec) [] json)
  | "Array" => return .array range (← member "element" spec json)
  | "Option" => return .option range (← member "inner" spec json)
  | "Result" => return .result range (← member "ok" spec json) (← member "err" spec json)
  | "Tuple" => return .tuple range (← member "items" (list spec) json)
  | "Record" => return .record range (← member "items" (list (itemOfJson? spec)) json)
  | "Function" =>
    return .function range (← memberD "isAsync" bool false json)
      (← member "parameters" (list spec) json) (← member "returnType" spec json)
  | _ => none

/-- Accepts an annotation. -/
def ofJson? : Decoder TypeSpec := tree ofJsonLevel

end TypeSpec

/-! ## Expressions -/

/-- Accepts an operator: its symbol, or an object with the symbol as its only key. -/
def Operator.ofJson? : Decoder Operator
  | .str s => Operator.ofSymbol? s
  | .obj [(key, .null)] => Operator.ofSymbol? key
  | .obj [(key, .obj [])] => Operator.ofSymbol? key
  | _ => none

namespace Binding

/-- The forms of a binding. -/
def kinds : List String := ["Single", "Tuple"]

/-- Accepts a binding. -/
def ofJson? : Decoder Binding := fun json => do
  match ← node (formIndex kinds) json with
  | ("Single", members) => return .single (← keyed ["name"] (member "name" Ident.ofJson?) members)
  | ("Tuple", members) =>
    return .tuple (← keyed ["names"] (member "names" (list Ident.ofJson?)) members)
  | _ => none

end Binding

/-- Accepts a lambda parameter, whose type may be missing. -/
def LambdaParam.ofJson? : Decoder LambdaParam := keyed ["name", "typeSpec"] fun json => do
  return {
    name := ← member "name" Ident.ofJson? json
    type := ← member? "typeSpec" TypeSpec.ofJson? json }

namespace Expr

/-- The forms of an expression. -/
def kinds : List String :=
  ["Int", "Float", "Bool", "String", "Variable", "Call", "MethodCall", "Field", "Index", "Unary",
    "Binary", "Block", "Let", "Assign", "FieldAssign", "If", "While", "For", "Break", "Continue",
    "Return", "Lambda", "Array", "Tuple", "Record", "Range", "Bracket"]

/-- Accepts the item of a record. -/
def itemOfJson? (expr : Decoder Expr) : Decoder (Ident × Expr) :=
    keyed ["name", "value"] fun json => do
  return (← member "name" Ident.ofJson? json, ← member "value" expr json)

/-- Accepts an expression of the given form at the given range, given the decoder of the
expressions inside it. Each member that the form has is decoded once, so that the work stays in
proportion to the size of the value. -/
def ofJsonKind (expr : Decoder Expr) (range : Range) (kind : String) : Decoder Expr :=
    fun json => do
  let name := member "name" Ident.ofJson?
  let value := member "value" expr
  let target := member "target" expr
  let body := member "body" expr
  let op? := member? "op" Operator.ofJson?
  match kind with
  | "Int" => return .int range (← member "value" integer json)
  | "Float" => return .float range (← member "value" real json)
  | "Bool" => return .bool range (← member "value" Decoder.bool json)
  | "String" => return .string range (← member "value" Decoder.string json)
  | "Variable" => return .var range (← member? "namespace" Ident.ofJson? json) (← name json)
  | "Call" =>
    return .call range (← member? "namespace" Ident.ofJson? json) (← name json)
      (← memberD "typeArgs" (list TypeSpec.ofJson?) [] json) (← member "args" (list expr) json)
  | "MethodCall" =>
    return .methodCall range (← target json) (← name json) (← member "args" (list expr) json)
  | "Field" => return .field range (← target json) (← name json)
  | "Index" => return .index range (← target json) (← member "index" expr json)
  | "Unary" =>
    return .unary range (← member "op" Operator.ofJson? json) (← member "operand" expr json)
  | "Binary" =>
    return .binary range (← member "left" expr json) (← member "op" Operator.ofJson? json)
      (← member "right" expr json)
  | "Block" => return .block range (← member "expressions" (list expr) json)
  | "Let" =>
    return .declare range (← memberD "isConst" Decoder.bool false json)
      (← member "binding" Binding.ofJson? json) (← member? "typeSpec" TypeSpec.ofJson? json)
      (← value json)
  | "Assign" => return .assign range (← name json) (← op? json) (← value json)
  | "FieldAssign" =>
    return .fieldAssign range (← target json) (← name json) (← op? json) (← value json)
  | "If" =>
    return .ifThen range (← member "condition" expr json) (← member "thenBranch" expr json)
      (← member? "elseBranch" expr json)
  | "While" => return .whileLoop range (← member "condition" expr json) (← body json)
  | "For" =>
    return .forLoop range (← member "binding" Binding.ofJson? json) (← member "source" expr json)
      (← body json)
  | "Break" => return .breakLoop range
  | "Continue" => return .continueLoop range
  | "Return" => return .returnValue range (← member? "value" expr json)
  | "Lambda" =>
    return .lambda range (← member "parameters" (list LambdaParam.ofJson?) json) (← body json)
  | "Array" => return .array range (← member "elements" (list expr) json)
  | "Tuple" => return .tuple range (← member "items" (list expr) json)
  | "Record" => return .record range (← member "items" (list (itemOfJson? expr)) json)
  | "Range" =>
    return .interval range (← member "from" expr json) (← member "to" expr json)
      (← memberD "inclusive" Decoder.bool false json)
  | "Bracket" => return .bracket range (← member "inner" expr json)
  | _ => none

/-- Accepts an expression, given the decoder of the expressions inside it. -/
def ofJsonLevel (expr : Decoder Expr) : Decoder Expr := fun json => do
  let range ← member "range" Range.ofJson? json
  ofJsonKind expr range (← member "kind" (formIndex kinds) json) json

/-- Accepts an expression. -/
def ofJson? : Decoder Expr := tree ofJsonLevel

end Expr

/-! ## Items -/

namespace Import

/-- The forms of an import. -/
def kinds : List String := ["Module", "Names", "All"]

/-- Accepts what an import brings in. -/
def ofJson? : Decoder Import := fun json => do
  match ← node (formIndex kinds) json with
  | ("Module", members) =>
    return .module (← keyed ["alias"] (member? "alias" Ident.ofJson?) members)
  | ("Names", members) =>
    return .names (← keyed ["names"] (member "names" (list Ident.ofJson?)) members)
  | ("All", members) => keyed [] (fun _ => some .all) members
  | _ => none

end Import

/-- Accepts an import. -/
def UseDecl.ofJson? : Decoder UseDecl := keyed ["module", "import", "range"] fun json => do
  return {
    module := ← member "module" Ident.ofJson? json
    imports := ← member "import" Import.ofJson? json
    range := ← member "range" Range.ofJson? json }

/-- Accepts a constant, whose type may be missing. -/
def ConstDecl.ofJson? : Decoder ConstDecl :=
  keyed ["name", "isPub", "description", "typeSpec", "value", "range"] fun json => do
  return {
    name := ← member "name" Ident.ofJson? json
    isPub := ← memberD "isPub" bool false json
    description := ← memberD "description" string "" json
    type := ← member? "typeSpec" TypeSpec.ofJson? json
    value := ← member "value" Expr.ofJson? json
    range := ← member "range" Range.ofJson? json }

/-- Accepts a parameter, whose type and default value may be missing. -/
def ParamDecl.ofJson? : Decoder ParamDecl :=
  keyed ["name", "typeSpec", "defaultValue"] fun json => do
  return {
    name := ← member "name" Ident.ofJson? json
    type := ← member? "typeSpec" TypeSpec.ofJson? json
    default := ← member? "defaultValue" Expr.ofJson? json }

/-- Accepts a function. -/
def FunctionDecl.ofJson? : Decoder FunctionDecl :=
  keyed ["name", "isPub", "isAsync", "description", "parameters", "returnType", "body",
      "range"] fun json => do
  return {
    name := ← member "name" Ident.ofJson? json
    isPub := ← memberD "isPub" bool false json
    isAsync := ← memberD "isAsync" bool false json
    description := ← memberD "description" string "" json
    params := ← member "parameters" (list ParamDecl.ofJson?) json
    result := ← member "returnType" TypeSpec.ofJson? json
    body := ← member "body" Expr.ofJson? json
    range := ← member "range" Range.ofJson? json }

/-- Accepts a field, whose default value may be missing. -/
def FieldDecl.ofJson? : Decoder FieldDecl :=
  keyed ["name", "typeSpec", "description", "defaultValue"] fun json => do
  return {
    name := ← member "name" Ident.ofJson? json
    type := ← member "typeSpec" TypeSpec.ofJson? json
    description := ← memberD "description" string "" json
    default := ← member? "defaultValue" Expr.ofJson? json }

/-- Accepts a struct. -/
def StructDecl.ofJson? : Decoder StructDecl :=
  keyed ["name", "isPub", "description", "fields", "range"] fun json => do
  return {
    name := ← member "name" Ident.ofJson? json
    isPub := ← memberD "isPub" bool false json
    description := ← memberD "description" string "" json
    fields := ← member "fields" (list FieldDecl.ofJson?) json
    range := ← member "range" Range.ofJson? json }

/-- Accepts a type alias. -/
def AliasDecl.ofJson? : Decoder AliasDecl :=
  keyed ["name", "isPub", "description", "typeSpec", "range"] fun json => do
  return {
    name := ← member "name" Ident.ofJson? json
    isPub := ← memberD "isPub" bool false json
    description := ← memberD "description" string "" json
    type := ← member "typeSpec" TypeSpec.ofJson? json
    range := ← member "range" Range.ofJson? json }

/-- Accepts a block of functions that stand under the given key. -/
def ImplDecl.ofJson? (functions : String) : Decoder ImplDecl :=
    keyed ["name", functions, "range"] fun json => do
  return {
    name := ← member "name" Ident.ofJson? json
    functions := ← member functions (list FunctionDecl.ofJson?) json
    range := ← member "range" Range.ofJson? json }

namespace Item

/-- The forms of an item. -/
def kinds : List String :=
  ["Use", "Const", "Function", "Struct", "TypeAlias", "Impl", "ImplOperators"]

/-- Accepts an item. Its form is given by name. -/
def ofJson? : Decoder Item := fun json => do
  match ← node (formName kinds) json with
  | ("Use", members) => return .use (← UseDecl.ofJson? members)
  | ("Const", members) => return .const (← ConstDecl.ofJson? members)
  | ("Function", members) => return .function (← FunctionDecl.ofJson? members)
  | ("Struct", members) => return .struct (← StructDecl.ofJson? members)
  | ("TypeAlias", members) => return .typeAlias (← AliasDecl.ofJson? members)
  | ("Impl", members) => return .methods (← ImplDecl.ofJson? "methods" members)
  | ("ImplOperators", members) => return .operators (← ImplDecl.ofJson? "functions" members)
  | _ => none

end Item

namespace Script

/-- The members of a script. -/
def keys : List String := ["name", "description", "items"]

/-- Accepts a script, whose description may be missing. -/
def ofJson? : Decoder Script := keyed keys fun json => do
  return {
    name := ← member "name" string json
    description := ← memberD "description" string "" json
    items := ← member "items" (list Item.ofJson?) json }

/-- Accepts a value that could be the content of a text, that is, one whose members of use nest no
deeper. -/
def ofValue? : Decoder Script := fun json =>
  let script := json.restrict keys.contains
  if script.depth ≤ Json.maxDepth then ofJson? script else none

/-- Reads a script from a text. -/
def read? (text : String) : Option Script := (Json.readMembers? keys.contains text).bind ofJson?

end Script

end ScriptCheck
