import ScriptCheck.Library.Descriptor
import ScriptCheck.Operator

/-!
# The prelude

The types that every script can use without an import: the primitive types with their operators,
and `Cell`, `ArrayBuilder` and `Range`. They belong to no module. All tables are written in the
order of their names.
-/

namespace ScriptCheck.Library.Prelude

/-! ## Shorthands -/

/-- A reference to a type of the prelude. -/
def ref (name : String) : TypeRef := .builtin name

/-- The same overloads for several operators, as pairs of the other operand's and the result's
type. -/
def overloads (ops : List Operator) (pairs : List (String × String)) :
    List (String × List OverloadInfo) :=
  ops.map fun op => (op.symbol, pairs.map fun (other, result) => ⟨ref other, ref result⟩)

/-- A field that scripts cannot assign. -/
def readOnly (type : TypeRef) (description : String) : FieldInfo := ⟨type, description, true⟩

/-- A method without generic parameters of its own. -/
def method (params : List ParameterInfo) (result : TypeRef) (description : String) : MethodInfo :=
  { params, result, description }

def toStringMethod : MethodInfo := method [] (ref "string") "Convert the value to a string"

/-! ## Primitive types -/

def int : TypeInfo :=
  let arithmetic := [("int", "int"), ("float", "float")]
  let comparison := [("int", "bool"), ("float", "bool")]
  let bitwise := [("int", "int")]
  { name := "int"
    description := "Integer number"
    fields := ⟨[("abs", readOnly (ref "int") "Absolute value"),
      ("to_float", readOnly (ref "float") "Value converted to float")]⟩
    methods := ⟨[("to_string", toStringMethod)]⟩
    prefixOperators := ⟨overloads [.sub, .bitNot] [("Unit", "int")]⟩
    suffixOperators := ⟨overloads [.notEq] comparison ++ overloads [.mod] arithmetic ++
      overloads [.bitAnd] bitwise ++ overloads [.mul, .pow, .add, .sub, .div] arithmetic ++
      overloads [.lt, .le, .eq, .gt, .ge] comparison ++ overloads [.bitXor, .bitOr] bitwise⟩ }

def float : TypeInfo :=
  let arithmetic := [("float", "float")]
  let comparison := [("float", "bool")]
  { name := "float"
    description := "Floating point number"
    fields := ⟨[("abs", readOnly (ref "float") "Absolute value"),
      ("is_nan", readOnly (ref "bool") "Check if value is NaN"),
      ("to_int", readOnly (ref "int") "Value truncated to int")]⟩
    methods := ⟨[("to_string", toStringMethod)]⟩
    prefixOperators := ⟨overloads [.sub] [("Unit", "float")]⟩
    suffixOperators := ⟨overloads [.notEq] comparison ++
      overloads [.mod, .mul, .pow, .add, .sub, .div] arithmetic ++
      overloads [.lt, .le, .eq, .gt, .ge] comparison⟩
    assignableFrom := [ref "int"] }

def bool : TypeInfo :=
  { name := "bool"
    description := "Boolean value"
    methods := ⟨[("to_string", toStringMethod)]⟩
    prefixOperators := ⟨overloads [.not] [("Unit", "bool")]⟩
    suffixOperators := ⟨overloads [.notEq, .bitAnd, .eq, .bitXor, .bitOr] [("bool", "bool")]⟩ }

def string : TypeInfo :=
  { name := "string"
    description := "String value"
    fields := ⟨[("length", readOnly (ref "int") "Length of the string"),
      ("to_lower", readOnly (ref "string") "Lower case copy"),
      ("to_upper", readOnly (ref "string") "Upper case copy")]⟩
    methods := ⟨[
      ("contains", method [⟨"other", ref "string", false⟩] (ref "bool")
        "Check if the string contains a substring"),
      ("split", method [⟨"separator", ref "string", false⟩] (.array (ref "string"))
        "Split the string at a separator")]⟩
    suffixOperators := ⟨overloads [.notEq] [("string", "bool")] ++
      overloads [.add] [("string", "string")] ++
      overloads [.lt, .le, .eq, .gt, .ge] [("string", "bool")]⟩
    indexAccess := some (ref "string") }

def unit : TypeInfo :=
  { name := "Unit", description := "Unit value", assignableFromAny := true }

/-! ## Generic and iterable types -/

def cell : TypeInfo :=
  let element : TypeRef := .generic "T"
  { name := "Cell"
    description := "Mutable shared value"
    generics := ["T"]
    fields := ⟨[("value", ⟨element, "Current value of the cell", false⟩)]⟩
    methods := ⟨[("update", method [⟨"updater", .function false [element] element, false⟩]
      (.standard "" "Cell" [element]) "Atomically update the value of the cell")]⟩ }

def arrayBuilder : TypeInfo :=
  let element : TypeRef := .generic "T"
  { name := "ArrayBuilder"
    description := "Builder for arrays of unknown size"
    generics := ["T"]
    fields := ⟨[("length", readOnly (ref "int") "Number of elements appended so far")]⟩
    methods := ⟨[
      ("append", method [⟨"element", element, false⟩] (.standard "" "ArrayBuilder" [element])
        "Append an element"),
      ("result", method [] (.array element) "Build the resulting array")]⟩ }

def range : TypeInfo :=
  let image : TypeRef := .generic "U"
  { name := "Range"
    description := "Range of integers"
    fields := ⟨[("from", readOnly (ref "int") "Start of the range (inclusive)"),
      ("length", readOnly (ref "int") "Number of elements in the range"),
      ("to", readOnly (ref "int") "End of the range")]⟩
    methods := ⟨[
      ("map",
        { params := [⟨"mapper", .function false [ref "int"] image, false⟩]
          result := .array image
          description := "Map every element of the range"
          generics := ["U"] }),
      ("reverse", method [] (.array (ref "int")) "Reversed elements")]⟩
    forInSource := some (ref "int") }

/-- All types of the prelude. -/
def types : List TypeInfo := [int, float, bool, string, unit, cell, arrayBuilder, range]

/-- The type of the prelude that is called `name`. -/
def type? (name : String) : Option TypeInfo := types.find? fun t => t.name == name

end ScriptCheck.Library.Prelude
