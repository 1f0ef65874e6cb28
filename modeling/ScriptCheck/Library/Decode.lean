import ScriptCheck.Json.Reader
import ScriptCheck.Json.Decoder
import ScriptCheck.Library.Registry

/-!
# Reading library descriptions from JSON

Descriptions and type references are records and nodes in the sense of `Decoder`, so each may be an
object or an array.

A registry is a list of modules, or an object of modules under their names. In the object the key
names a module that has no name of its own, and modules are entered in the order of the keys.
-/

namespace ScriptCheck

open Decoder

namespace TypeRef

/-- The forms of a type reference. -/
def kinds : List String :=
  ["Builtin", "Generic", "Standard", "Array", "Option", "Result", "Tuple", "Record", "Function"]

/-- Accepts the members of a type reference of the given form, given the decoder of the references
inside it. -/
def ofJsonKind (ref : Decoder TypeRef) : (kind : String) → Decoder TypeRef
  | "Builtin" => keyed ["name"] fun json => do return .builtin (← member "name" string json)
  | "Generic" => keyed ["name"] fun json => do return .generic (← member "name" string json)
  | "Standard" => keyed ["module", "name", "genericArgs"] fun json => do
    return .standard (← member "module" string json) (← member "name" string json)
      (← memberD "genericArgs" (list ref) [] json)
  | "Array" => keyed ["param"] fun json => do return .array (← member "param" ref json)
  | "Option" => keyed ["param"] fun json => do return .option (← member "param" ref json)
  | "Result" => keyed ["param1", "param2"] fun json => do
    return .result (← member "param1" ref json) (← member "param2" ref json)
  | "Tuple" => keyed ["params"] fun json => do
    return .tuple (← member "params" (list ref) json)
  | "Record" => keyed ["names", "params"] fun json => do
    return .record (← member "names" (list string) json) (← member "params" (list ref) json)
  | "Function" => keyed ["isAsync", "params", "returnType"] fun json => do
    return .function (← memberD "isAsync" bool false json) (← member "params" (list ref) json)
      (← member "returnType" ref json)
  | _ => fun _ => none

/-- Accepts a type reference, given the decoder of the references inside it. -/
def ofJsonLevel (ref : Decoder TypeRef) : Decoder TypeRef := fun json => do
  let (kind, members) ← node (formIndex kinds) json
  ofJsonKind ref kind members

/-- Accepts a type reference inside a description. -/
def ofJson? : Decoder TypeRef := tree ofJsonLevel

/-- Accepts a type reference that stands alone. Its own form is given by name. -/
def ofValue? : Decoder TypeRef := fun json => do
  let (kind, members) ← node (formName kinds) json
  ofJsonKind ofJson? kind members

end TypeRef

namespace Library

/-- Accepts a constant. -/
def ConstantInfo.ofJson? : Decoder ConstantInfo :=
  keyed ["name", "description", "type"] fun json => do
  return {
    name := ← member "name" string json
    description := ← memberD "description" string "" json
    type := ← member "type" TypeRef.ofJson? json }

/-- Accepts a parameter. -/
def ParameterInfo.ofJson? : Decoder ParameterInfo :=
  keyed ["name", "type", "hasDefault"] fun json => do
  return {
    name := ← member "name" string json
    type := ← member "type" TypeRef.ofJson? json
    hasDefault := ← memberD "hasDefault" bool false json }

/-- Accepts a function. -/
def FunctionInfo.ofJson? : Decoder FunctionInfo :=
  keyed ["name", "description", "isAsync", "genericParameters", "parameters",
      "returnType"] fun json => do
  return {
    name := ← member "name" string json
    description := ← memberD "description" string "" json
    isAsync := ← memberD "isAsync" bool false json
    generics := ← memberD "genericParameters" (list string) [] json
    params := ← memberD "parameters" (list ParameterInfo.ofJson?) [] json
    result := ← member "returnType" TypeRef.ofJson? json }

/-- Accepts a field. -/
def FieldInfo.ofJson? : Decoder FieldInfo :=
  keyed ["type", "description", "readOnly"] fun json => do
  return {
    type := ← member "type" TypeRef.ofJson? json
    description := ← memberD "description" string "" json
    readOnly := ← memberD "readOnly" bool false json }

/-- Accepts a method. -/
def MethodInfo.ofJson? : Decoder MethodInfo :=
  keyed ["parameters", "returnType", "isAsync", "description", "genericParameters"] fun json => do
  return {
    params := ← memberD "parameters" (list ParameterInfo.ofJson?) [] json
    result := ← member "returnType" TypeRef.ofJson? json
    isAsync := ← memberD "isAsync" bool false json
    description := ← memberD "description" string "" json
    generics := ← memberD "genericParameters" (list string) [] json }

/-- Accepts an overload. -/
def OverloadInfo.ofJson? : Decoder OverloadInfo := keyed ["otherType", "resultType"] fun json => do
  return {
    other := ← member "otherType" TypeRef.ofJson? json
    result := ← member "resultType" TypeRef.ofJson? json }

/-- Accepts an operator table. -/
def overloadsOfJson? : Decoder (Table String (List OverloadInfo)) :=
  table (list OverloadInfo.ofJson?)

/-- Accepts a type. All but its name may be missing. -/
def TypeInfo.ofJson? : Decoder TypeInfo :=
  keyed ["name", "description", "genericParameters", "fields", "methods",
      "prefixOperators", "suffixOperators", "forInSource", "indexAccess", "assignableFrom",
      "assignableFromAny"] fun json => do
  return {
    name := ← member "name" string json
    description := ← memberD "description" string "" json
    generics := ← memberD "genericParameters" (list string) [] json
    fields := ← memberD "fields" (table FieldInfo.ofJson?) {} json
    methods := ← memberD "methods" (table MethodInfo.ofJson?) {} json
    prefixOperators := ← memberD "prefixOperators" overloadsOfJson? {} json
    suffixOperators := ← memberD "suffixOperators" overloadsOfJson? {} json
    forInSource := ← member? "forInSource" TypeRef.ofJson? json
    indexAccess := ← member? "indexAccess" TypeRef.ofJson? json
    assignableFrom := ← memberD "assignableFrom" (list TypeRef.ofJson?) [] json
    assignableFromAny := ← memberD "assignableFromAny" bool false json }

/-- Accepts a module. Everything may be missing. -/
def ModuleInfo.ofJson? : Decoder ModuleInfo :=
  keyed ["name", "description", "constants", "functions", "types"] fun json => do
  return {
    name := ← memberD "name" string "" json
    description := ← memberD "description" string "" json
    constants := ← memberD "constants" (list ConstantInfo.ofJson?) [] json
    functions := ← memberD "functions" (list FunctionInfo.ofJson?) [] json
    types := ← memberD "types" (list TypeInfo.ofJson?) [] json }

end Library

namespace Registry

open Library

/-- Gives a module without a name the name of its key. -/
def nameByKey (entry : String × ModuleInfo) : ModuleInfo :=
  if entry.2.name.isEmpty then { entry.2 with name := entry.1 } else entry.2

/-- Accepts the modules of a registry. -/
def modulesOfJson? : Decoder (List ModuleInfo)
  | .arr items => all ModuleInfo.ofJson? items
  | json => do return (← table ModuleInfo.ofJson? json).entries.map nameByKey

/-- Accepts a registry in either form. -/
def ofJson? : Decoder Registry := fun json => (modulesOfJson? json).map ofModules

/-- Accepts a value that could be the content of a text, that is, one that nests no deeper. -/
def ofValue? : Decoder Registry := fun json =>
  if json.depth ≤ Json.maxDepth then ofJson? json else none

/-- Reads a registry from a text. -/
def read? (text : String) : Option Registry := (Json.read? text).bind ofJson?

end Registry

end ScriptCheck
