import ScriptCheck.Table
import ScriptCheck.Library.TypeRef

/-!
# Library descriptions

What a library module exports: constants, functions and types, each with its signature in terms of
type references. Member and operator tables of a type are in the order of their names. The order of
the overloads of one operator matters, because lookup takes the first that fits.
-/

namespace ScriptCheck.Library

/-- A constant of a module. -/
structure ConstantInfo where
  name : String
  description : String := ""
  type : TypeRef

/-- A parameter of a function or method. -/
structure ParameterInfo where
  name : String
  type : TypeRef
  hasDefault : Bool := false

/-- A function of a module. -/
structure FunctionInfo where
  name : String
  description : String := ""
  isAsync : Bool := false
  generics : List String := []
  params : List ParameterInfo := []
  result : TypeRef

/-- A field of a type. -/
structure FieldInfo where
  type : TypeRef
  description : String := ""
  readOnly : Bool := false

/-- A method of a type. -/
structure MethodInfo where
  params : List ParameterInfo := []
  result : TypeRef
  isAsync : Bool := false
  description : String := ""
  generics : List String := []

/-- An overload of an operator: the type of the other operand and the type of the result. -/
structure OverloadInfo where
  other : TypeRef
  result : TypeRef

/-- A type of a module. -/
structure TypeInfo where
  name : String
  description : String := ""
  generics : List String := []
  fields : Table String FieldInfo := {}
  methods : Table String MethodInfo := {}
  prefixOperators : Table String (List OverloadInfo) := {}
  suffixOperators : Table String (List OverloadInfo) := {}
  /-- The type of the elements when a value is iterated. -/
  forInSource : Option TypeRef := none
  /-- The type of the elements when a value is indexed. -/
  indexAccess : Option TypeRef := none
  /-- The types whose values are also accepted. -/
  assignableFrom : List TypeRef := []
  /-- Whether values of every type are accepted. -/
  assignableFromAny : Bool := false

/-- A module. -/
structure ModuleInfo where
  name : String := ""
  description : String := ""
  constants : List ConstantInfo := []
  functions : List FunctionInfo := []
  types : List TypeInfo := []

/-- The last entry called `name`, so that a later export replaces an earlier one. -/
def findLast? {α : Type} (nameOf : α → String) (name : String) (exports : List α) : Option α :=
  exports.reverse.find? fun entry => nameOf entry == name

namespace ModuleInfo

/-- The type that the module exports under `name`. -/
def type? (m : ModuleInfo) (name : String) : Option TypeInfo := findLast? TypeInfo.name name m.types

/-- The function that the module exports under `name`. -/
def function? (m : ModuleInfo) (name : String) : Option FunctionInfo :=
  findLast? FunctionInfo.name name m.functions

/-- The constant that the module exports under `name`. -/
def constant? (m : ModuleInfo) (name : String) : Option ConstantInfo :=
  findLast? ConstantInfo.name name m.constants

end ModuleInfo

end ScriptCheck.Library
