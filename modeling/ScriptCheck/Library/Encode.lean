import ScriptCheck.Json.Basic
import ScriptCheck.Library.Registry

/-!
# Writing library descriptions as JSON

The inverse of reading. Every member is written, also one that has its default, except the missing
arguments of a type reference.
-/

namespace ScriptCheck

namespace TypeRef

mutual
def toJson : TypeRef → Json
  | .builtin name => .obj [("kind", .str "Builtin"), ("name", .str name)]
  | .generic name => .obj [("kind", .str "Generic"), ("name", .str name)]
  | .standard module name args =>
    .obj
      ([("kind", .str "Standard"), ("module", .str module), ("name", .str name)] ++
        if args.isEmpty then [] else [("genericArgs", .arr (toJsonList args))])
  | .array param => .obj [("kind", .str "Array"), ("param", param.toJson)]
  | .option param => .obj [("kind", .str "Option"), ("param", param.toJson)]
  | .result ok err =>
    .obj [("kind", .str "Result"), ("param1", ok.toJson), ("param2", err.toJson)]
  | .tuple params => .obj [("kind", .str "Tuple"), ("params", .arr (toJsonList params))]
  | .record names params =>
    .obj
      [("kind", .str "Record"), ("names", .strs names), ("params", .arr (toJsonList params))]
  | .function isAsync params ret =>
    .obj
      [("kind", .str "Function"), ("isAsync", .bool isAsync),
        ("params", .arr (toJsonList params)), ("returnType", ret.toJson)]

/-- `toJson` on each reference of a list. -/
def toJsonList : List TypeRef → List Json
  | [] => []
  | ref :: rest => ref.toJson :: toJsonList rest
end

end TypeRef

namespace Library

def ConstantInfo.toJson (c : ConstantInfo) : Json :=
  .obj
    [("name", .str c.name), ("description", .str c.description), ("type", c.type.toJson)]

def ParameterInfo.toJson (p : ParameterInfo) : Json :=
  .obj [("name", .str p.name), ("type", p.type.toJson), ("hasDefault", .bool p.hasDefault)]

def FunctionInfo.toJson (f : FunctionInfo) : Json :=
  .obj
    [("name", .str f.name), ("description", .str f.description), ("isAsync", .bool f.isAsync),
      ("genericParameters", .strs f.generics),
      ("parameters", .arr (f.params.map ParameterInfo.toJson)), ("returnType", f.result.toJson)]

def FieldInfo.toJson (f : FieldInfo) : Json :=
  .obj
    [("type", f.type.toJson), ("description", .str f.description),
      ("readOnly", .bool f.readOnly)]

def MethodInfo.toJson (m : MethodInfo) : Json :=
  .obj
    [("parameters", .arr (m.params.map ParameterInfo.toJson)), ("returnType", m.result.toJson),
      ("isAsync", .bool m.isAsync), ("description", .str m.description),
      ("genericParameters", .strs m.generics)]

def OverloadInfo.toJson (o : OverloadInfo) : Json :=
  .obj [("otherType", o.other.toJson), ("resultType", o.result.toJson)]

/-- A table as an object. -/
def tableToJson {α : Type} (encode : α → Json) (table : Table String α) : Json :=
  .obj (table.entries.map fun (key, value) => (key, encode value))

/-- An operator table as an object. -/
def overloadsToJson (table : Table String (List OverloadInfo)) : Json :=
  tableToJson (fun overloads => .arr (overloads.map OverloadInfo.toJson)) table

def TypeInfo.toJson (t : TypeInfo) : Json :=
  .obj
    [("name", .str t.name), ("description", .str t.description),
      ("genericParameters", .strs t.generics),
      ("fields", tableToJson FieldInfo.toJson t.fields),
      ("methods", tableToJson MethodInfo.toJson t.methods),
      ("prefixOperators", overloadsToJson t.prefixOperators),
      ("suffixOperators", overloadsToJson t.suffixOperators),
      ("forInSource", .opt TypeRef.toJson t.forInSource),
      ("indexAccess", .opt TypeRef.toJson t.indexAccess),
      ("assignableFrom", .arr (t.assignableFrom.map TypeRef.toJson)),
      ("assignableFromAny", .bool t.assignableFromAny)]

def ModuleInfo.toJson (m : ModuleInfo) : Json :=
  .obj
    [("name", .str m.name), ("description", .str m.description),
      ("constants", .arr (m.constants.map ConstantInfo.toJson)),
      ("functions", .arr (m.functions.map FunctionInfo.toJson)),
      ("types", .arr (m.types.map TypeInfo.toJson))]

end Library

end ScriptCheck
