import ScriptCheck.Script.Item
import ScriptCheck.Source.Json

/-!
# Writing scripts as JSON

The inverse of reading. Every member is written, also one that has its default.
-/

namespace ScriptCheck

/-! ## Names and annotations -/

/-- A node of the given form at the given range. -/
def Json.node (kind : String) (range : Range) (members : List (String × Json)) : Json :=
  .obj (("kind", .str kind) :: members ++ [("range", range.toJson)])

def Ident.toJson (i : Ident) : Json := .obj [("name", .str i.name), ("range", i.range.toJson)]

namespace TypeSpec

mutual
def toJson : TypeSpec → Json
  | .named range scope name args =>
    .node "Named" range
      [("namespace", .opt .str scope), ("name", .str name), ("genericArgs", .arr (toJsonList args))]
  | .array range element => .node "Array" range [("element", element.toJson)]
  | .option range inner => .node "Option" range [("inner", inner.toJson)]
  | .result range ok err => .node "Result" range [("ok", ok.toJson), ("err", err.toJson)]
  | .tuple range items => .node "Tuple" range [("items", .arr (toJsonList items))]
  | .record range items => .node "Record" range [("items", .arr (toJsonItems items))]
  | .function range isAsync params ret =>
    .node "Function" range
      [("isAsync", .bool isAsync), ("parameters", .arr (toJsonList params)),
        ("returnType", ret.toJson)]

/-- `toJson` on each annotation of a list. -/
def toJsonList : List TypeSpec → List Json
  | [] => []
  | spec :: rest => spec.toJson :: toJsonList rest

/-- Record items as objects. -/
def toJsonItems : List (String × TypeSpec) → List Json
  | [] => []
  | (name, spec) :: rest =>
    .obj [("name", .str name), ("typeSpec", spec.toJson)] :: toJsonItems rest
end

end TypeSpec

/-! ## Expressions -/

def Operator.toJson (op : Operator) : Json := .str op.symbol

def Binding.toJson : Binding → Json
  | .single name => .obj [("kind", .str "Single"), ("name", name.toJson)]
  | .tuple names => .obj [("kind", .str "Tuple"), ("names", .arr (names.map Ident.toJson))]

def LambdaParam.toJson (p : LambdaParam) : Json :=
  .obj [("name", p.name.toJson), ("typeSpec", .opt TypeSpec.toJson p.type)]

namespace Expr

mutual
def toJson : Expr → Json
  | .int r value => .node "Int" r [("value", .int value)]
  | .float r value => .node "Float" r [("value", .real value)]
  | .bool r value => .node "Bool" r [("value", .bool value)]
  | .string r value => .node "String" r [("value", .str value)]
  | .var r module name =>
    .node "Variable" r [("namespace", .opt Ident.toJson module), ("name", name.toJson)]
  | .call r module name typeArgs args =>
    .node "Call" r
      [("namespace", .opt Ident.toJson module), ("name", name.toJson),
        ("typeArgs", .arr (typeArgs.map TypeSpec.toJson)), ("args", .arr (toJsonList args))]
  | .methodCall r target name args =>
    .node "MethodCall" r
      [("target", target.toJson), ("name", name.toJson), ("args", .arr (toJsonList args))]
  | .field r target name => .node "Field" r [("target", target.toJson), ("name", name.toJson)]
  | .index r target position =>
    .node "Index" r [("target", target.toJson), ("index", position.toJson)]
  | .unary r op operand => .node "Unary" r [("op", op.toJson), ("operand", operand.toJson)]
  | .binary r left op right =>
    .node "Binary" r [("left", left.toJson), ("op", op.toJson), ("right", right.toJson)]
  | .block r expressions => .node "Block" r [("expressions", .arr (toJsonList expressions))]
  | .declare r isConst binding type value =>
    .node "Let" r
      [("isConst", .bool isConst), ("binding", binding.toJson),
        ("typeSpec", .opt TypeSpec.toJson type), ("value", value.toJson)]
  | .assign r name op value =>
    .node "Assign" r
      [("name", name.toJson), ("op", .opt Operator.toJson op), ("value", value.toJson)]
  | .fieldAssign r target name op value =>
    .node "FieldAssign" r
      [("target", target.toJson), ("name", name.toJson), ("op", .opt Operator.toJson op),
        ("value", value.toJson)]
  | .ifThen r condition thenBranch elseBranch =>
    .node "If" r
      [("condition", condition.toJson), ("thenBranch", thenBranch.toJson),
        ("elseBranch", toJsonOpt elseBranch)]
  | .whileLoop r condition body =>
    .node "While" r [("condition", condition.toJson), ("body", body.toJson)]
  | .forLoop r binding source body =>
    .node "For" r
      [("binding", binding.toJson), ("source", source.toJson), ("body", body.toJson)]
  | .breakLoop r => .node "Break" r []
  | .continueLoop r => .node "Continue" r []
  | .returnValue r value => .node "Return" r [("value", toJsonOpt value)]
  | .lambda r params body =>
    .node "Lambda" r
      [("parameters", .arr (params.map LambdaParam.toJson)), ("body", body.toJson)]
  | .array r elements => .node "Array" r [("elements", .arr (toJsonList elements))]
  | .tuple r items => .node "Tuple" r [("items", .arr (toJsonList items))]
  | .record r items => .node "Record" r [("items", .arr (toJsonItems items))]
  | .interval r low high inclusive =>
    .node "Range" r
      [("from", low.toJson), ("to", high.toJson), ("inclusive", .bool inclusive)]
  | .bracket r inner => .node "Bracket" r [("inner", inner.toJson)]

/-- `toJson` on each expression of a list. -/
def toJsonList : List Expr → List Json
  | [] => []
  | e :: rest => e.toJson :: toJsonList rest

/-- Record items as objects. -/
def toJsonItems : List (Ident × Expr) → List Json
  | [] => []
  | (name, e) :: rest => .obj [("name", name.toJson), ("value", e.toJson)] :: toJsonItems rest

/-- An expression, or `null` in its absence. -/
def toJsonOpt : Option Expr → Json
  | none => .null
  | some e => e.toJson
end

end Expr

/-! ## Items -/

def Import.toJson : Import → Json
  | .module shortName => .obj [("kind", .str "Module"), ("alias", .opt Ident.toJson shortName)]
  | .names idents => .obj [("kind", .str "Names"), ("names", .arr (idents.map Ident.toJson))]
  | .all => .obj [("kind", .str "All")]

def ParamDecl.toJson (d : ParamDecl) : Json :=
  .obj
    [("name", d.name.toJson), ("typeSpec", .opt TypeSpec.toJson d.type),
      ("defaultValue", .opt Expr.toJson d.default)]

/-- The members of a function besides its form. -/
def FunctionDecl.members (d : FunctionDecl) : List (String × Json) :=
  [("name", d.name.toJson), ("isPub", .bool d.isPub), ("isAsync", .bool d.isAsync),
    ("description", .str d.description), ("parameters", .arr (d.params.map ParamDecl.toJson)),
    ("returnType", d.result.toJson), ("body", d.body.toJson)]

/-- A function inside a block. -/
def FunctionDecl.toJson (d : FunctionDecl) : Json :=
  .obj (d.members ++ [("range", d.range.toJson)])

def FieldDecl.toJson (d : FieldDecl) : Json :=
  .obj
    [("name", d.name.toJson), ("typeSpec", d.type.toJson), ("description", .str d.description),
      ("defaultValue", .opt Expr.toJson d.default)]

def Item.toJson : Item → Json
  | .use d => .node "Use" d.range [("module", d.module.toJson), ("import", d.imports.toJson)]
  | .const d =>
    .node "Const" d.range
      [("name", d.name.toJson), ("isPub", .bool d.isPub), ("description", .str d.description),
        ("typeSpec", .opt TypeSpec.toJson d.type), ("value", d.value.toJson)]
  | .function d => .node "Function" d.range d.members
  | .struct d =>
    .node "Struct" d.range
      [("name", d.name.toJson), ("isPub", .bool d.isPub), ("description", .str d.description),
        ("fields", .arr (d.fields.map FieldDecl.toJson))]
  | .typeAlias d =>
    .node "TypeAlias" d.range
      [("name", d.name.toJson), ("isPub", .bool d.isPub), ("description", .str d.description),
        ("typeSpec", d.type.toJson)]
  | .methods d =>
    .node "Impl" d.range
      [("name", d.name.toJson), ("methods", .arr (d.functions.map FunctionDecl.toJson))]
  | .operators d =>
    .node "ImplOperators" d.range
      [("name", d.name.toJson), ("functions", .arr (d.functions.map FunctionDecl.toJson))]

def Script.toJson (s : Script) : Json :=
  .obj
    [("name", .str s.name), ("description", .str s.description),
      ("items", .arr (s.items.map Item.toJson))]

end ScriptCheck
