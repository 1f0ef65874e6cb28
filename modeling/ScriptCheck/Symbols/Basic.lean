import ScriptCheck.Library.Registry
import ScriptCheck.Source.Position

/-!
# Symbol tables

What a script declares and imports at module level. The first pass over a script fills these
tables, the second only reads them. A symbol carries the place of its declaration; a symbol from
the library has none.

A struct has its fields in one place, `StructInfo.fields`. Record types that name the struct carry
a copy of the fields which may be older than that list.
-/

namespace ScriptCheck

/-- The place where a symbol is declared. -/
structure Definition where
  moduleName : String
  range : Range
deriving DecidableEq

/-- A constant, a function or a method. -/
structure Value where
  ty : Ty
  definition : Option Definition := none
  description : String := ""
deriving DecidableEq

/-- Whether a value comes from the library and not from the script. -/
def Value.isLibrary (v : Value) : Bool := v.definition.isNone

/-- A name for a type: a struct, an alias or an import. -/
structure TypeAlias where
  ty : Ty
  definition : Option Definition := none
  isStruct : Bool := false
deriving DecidableEq

/-- An overload of an operator: the type of the other operand and the type of the result. -/
structure Overload where
  other : Ty
  result : Ty
  definition : Option Definition := none
deriving DecidableEq

/-- Fields, methods and operators of a struct of the script. Methods are without their receiver. -/
structure StructInfo where
  fields : List (String × Ty) := []
  fieldDefinitions : Table String Definition := {}
  fieldDescriptions : Table String String := {}
  methods : Table String Value := {}
  prefixOperators : Table Operator (List Overload) := {}
  suffixOperators : Table Operator (List Overload) := {}
deriving DecidableEq

/-- The symbol tables of a script. -/
structure Symbols where
  registry : Registry
  moduleName : String
  constants : Table String Value := {}
  functions : Table String Value := {}
  /-- Names of modules as the script writes them, with the modules they stand for. -/
  modules : Table String String := {}
  types : Table String TypeAlias := {}
  structs : Table String StructInfo := {}

namespace Symbols

/-- The place of a declaration in this script. -/
def define (s : Symbols) (range : Range) : Definition := ⟨s.moduleName, range⟩

/-- The full name of a struct of this script. -/
def qualify (s : Symbols) (name : String) : QName := ⟨s.moduleName, name⟩

/-- The struct called `name`, if it belongs to this script. -/
def struct? (s : Symbols) (name : QName) : Option StructInfo :=
  if name.module = s.moduleName then s.structs.get? name.name else none

/-- The struct that a record type names, if it belongs to this script. -/
def structOf? (s : Symbols) : Ty → Option StructInfo
  | .record (some name) _ => s.struct? name
  | _ => none

end Symbols

end ScriptCheck
