import ScriptCheck.Ty.Assignable
import ScriptCheck.Ty.Display

/-!
# Members and operators of types

Fields, methods and operators that a type offers, and the types of its elements. Library types
answer from their description, under the arguments they are applied to. Arrays, options, results
and tuples have fixed members. Structs of the script answer from its symbol tables.

Next to each lookup stands the list of all names: `fieldNames` beside `field?` and `methodNames`
beside `method?`, both sorted.
-/

namespace ScriptCheck

/-- A field of a type. -/
structure FieldType where
  ty : Ty
  readOnly : Bool
  description : String := ""
  definition : Option Definition := none
deriving DecidableEq

/-- A method of a type, without its receiver. -/
structure MethodType where
  signature : Signature Ty
  description : String := ""
  definition : Option Definition := none
deriving DecidableEq

/-- Whether an overload is taken for the other operand, given who answers whether a type accepts
another. An overload for `Unit` is the unary one and is taken for a `Unit` operand only, which in
turn takes no other. -/
def Overload.takenWith {m : Type → Type} [Monad m] (ask : Ty → Ty → m Bool) (other : Ty)
    (o : Overload) : m Bool :=
  if o.other.isUnit == other.isUnit then ask o.other other else return false

/-- The first overload that is taken for the other operand. -/
def Overload.pickWith {m : Type → Type} [Monad m] (ask : Ty → Ty → m Bool) (other : Ty) :
    List Overload → m (Option Overload)
  | [] => return none
  | o :: rest => do
    if ← o.takenWith ask other then return some o
    else pickWith ask other rest

/-- Names in alphabetical order. -/
def sortNames (names : List String) : List String := names.mergeSort fun a b => decide (a ≤ b)

/-! ## Fixed members -/

/-- The number that a text of decimal digits stands for. A plus sign may come first. -/
def index? (text : List Char) : Option Nat :=
  let digits := match text with
    | '+' :: rest => rest
    | _ => text
  if digits.isEmpty || !digits.all Char.isDigit then none
  else some (digits.foldl (fun n c => n * 10 + (c.toNat - '0'.toNat)) 0)

namespace Ty

/-- The field of a tuple, which is called `_1`, `_2` and so on. -/
def tupleItem? (items : List Ty) (name : String) : Option Ty :=
  match name.toList with
  | '_' :: rest =>
    match index? rest with
    | some (n + 1) => items[n]?
    | _ => none
  | _ => none

/-- The fields of an array. -/
def arrayField? (name : String) : Option FieldType :=
  if name = "length" then some ⟨int, true, "Length of the array", none⟩
  else if name = "is_empty" then some ⟨bool, true, "Check if the array is empty", none⟩
  else none

/-- The fields of an option. -/
def optionField? (inner : Ty) (name : String) : Option FieldType :=
  if name = "defined" then some ⟨bool, true, "Check if the option has a value", none⟩
  else if name = "value" then some ⟨inner, true, "Value of the option", none⟩
  else none

/-- The fields of a result. -/
def resultField? (ok err : Ty) (name : String) : Option FieldType :=
  if name = "success" then some ⟨bool, true, "Check if the result is successful", none⟩
  else if name = "value" then some ⟨ok, true, "Successful value", none⟩
  else if name = "error" then some ⟨err, true, "Error value", none⟩
  else none

/-- The type of functions that map `source` to the placeholder `target`. -/
def mapperTo (target : String) (source : Ty) : Ty := fn [source] (.placeholder target)

/-- The type of functions that test an element. -/
def predicateOn (element : Ty) : Ty := fn [element] bool

/-- The methods of an array. -/
def arrayMethod? (element : Ty) (name : String) : Option MethodType :=
  let predicate : List (Param Ty) := [⟨"predicate", predicateOn element, false⟩]
  if name = "map" then
    some ⟨{ generics := ["U"], params := [⟨"mapper", mapperTo "U" element, false⟩],
            result := .array (.placeholder "U") }, "Map the content of the array", none⟩
  else if name = "filter" then
    some ⟨{ params := predicate, result := .array element },
      "Filter the content of the array by a predicate", none⟩
  else if name = "exists" then
    some ⟨{ params := predicate, result := bool },
      "Check if an item of the array matches a predicate", none⟩
  else if name = "find" then
    some ⟨{ params := predicate, result := .option element },
      "Find the first item of the array matching a predicate", none⟩
  else if name = "reverse" then
    some ⟨{ params := [], result := .array element }, "Reversed copy of the array", none⟩
  else if name = "slice" then
    some ⟨{ params := [⟨"start", int, false⟩, ⟨"end", int, true⟩], result := .array element },
      "Get a slice of the array", none⟩
  else if name = "to_string" then
    some ⟨{ params := [], result := string }, "Get string representation of the array", none⟩
  else none

/-- The methods of an option. -/
def optionMethod? (inner : Ty) (name : String) : Option MethodType :=
  if name = "map" then
    some ⟨{ generics := ["U"], params := [⟨"mapper", mapperTo "U" inner, false⟩],
            result := .option (.placeholder "U") }, "", none⟩
  else if name = "value_or" then
    some ⟨{ params := [⟨"default", inner, false⟩], result := inner }, "", none⟩
  else if name = "ok_or" then
    some ⟨{ generics := ["E"], params := [⟨"error", .placeholder "E", false⟩],
            result := .result inner (.placeholder "E") }, "", none⟩
  else none

/-- The methods of a result. -/
def resultMethod? (ok err : Ty) (name : String) : Option MethodType :=
  if name = "map" then
    some ⟨{ generics := ["U"], params := [⟨"mapper", mapperTo "U" ok, false⟩],
            result := .result (.placeholder "U") err }, "", none⟩
  else if name = "map_err" then
    some ⟨{ generics := ["F"], params := [⟨"mapper", mapperTo "F" err, false⟩],
            result := .result ok (.placeholder "F") }, "", none⟩
  else none

end Ty

namespace Symbols

/-! ## Library types -/

/-- What the arguments of an applied library type bind its generic parameters to. -/
def typeBindings (s : Symbols) : Ty → Bindings
  | .applied base args =>
    match s.registry.type? base with
    | some info => Table.ofList (info.generics.zip args)
    | none => {}
  | _ => {}

/-- A field of a library type. -/
def libraryField? (s : Symbols) (t : Ty) (name : String) : Option FieldType := do
  let info ← s.registry.infoOf? t
  let field ← info.fields.get? name
  return ⟨field.type.resolve s.registry (s.typeBindings t), field.readOnly, field.description, none⟩

/-- The signature of a method of a library type. Generic parameters of the method stay open and
hide those of the type. -/
def methodSignature (s : Symbols) (t : Ty) (m : Library.MethodInfo) : Signature Ty :=
  let bound := m.generics.foldl (fun b g => b.insert g (.placeholder g)) (s.typeBindings t)
  { isAsync := m.isAsync
    generics := m.generics
    params := s.registry.paramTypes bound m.params
    result := m.result.resolve s.registry bound }

/-- A method of a library type. -/
def libraryMethod? (s : Symbols) (t : Ty) (name : String) : Option MethodType := do
  let info ← s.registry.infoOf? t
  let m ← info.methods.get? name
  return ⟨s.methodSignature t m, m.description, none⟩

/-! ## Fields and methods -/

/-- A field of a struct of the script. -/
def structField? (info : StructInfo) (name : String) : Option FieldType :=
  (findItem? name info.fields).map fun ty =>
    ⟨ty, false, (info.fieldDescriptions.get? name).getD "", info.fieldDefinitions.get? name⟩

/-- A method of a struct of the script. -/
def structMethod? (info : StructInfo) (name : String) : Option MethodType := do
  let m ← info.methods.get? name
  let signature ← m.ty.signature?
  return ⟨signature, m.description, m.definition⟩

/-- The field `name` of a type. -/
def field? (s : Symbols) (t : Ty) (name : String) : Option FieldType :=
  match t with
  | .array _ => Ty.arrayField? name
  | .option inner => Ty.optionField? inner name
  | .result ok err => Ty.resultField? ok err name
  | .tuple items => (Ty.tupleItem? items name).map fun ty => ⟨ty, false, "", none⟩
  | .record _ items =>
    match s.structOf? t with
    | some info => structField? info name
    | none => (findItem? name items).map fun ty => ⟨ty, false, "", none⟩
  | .named _ | .applied _ _ => s.libraryField? t name
  | .unknown | .function _ | .placeholder _ => none

/-- The names of all fields of a type, sorted. -/
def fieldNames (s : Symbols) (t : Ty) : List String :=
  sortNames <|
    match t with
    | .array _ => ["is_empty", "length"]
    | .option _ => ["defined", "value"]
    | .result _ _ => ["error", "success", "value"]
    | .tuple items => (List.range items.length).map fun i => "_" ++ toString (i + 1)
    | .record _ items =>
      match s.structOf? t with
      | some info => info.fields.map Prod.fst
      | none => items.map Prod.fst
    | .named _ | .applied _ _ => ((s.registry.infoOf? t).map fun info => info.fields.keys).getD []
    | .unknown | .function _ | .placeholder _ => []

/-- The method `name` of a type. -/
def method? (s : Symbols) (t : Ty) (name : String) : Option MethodType :=
  match t with
  | .array element => Ty.arrayMethod? element name
  | .option inner => Ty.optionMethod? inner name
  | .result ok err => Ty.resultMethod? ok err name
  | .record _ _ => (s.structOf? t).bind fun info => structMethod? info name
  | .named _ | .applied _ _ => s.libraryMethod? t name
  | .unknown | .tuple _ | .function _ | .placeholder _ => none

/-- The names of all methods of a type, sorted. -/
def methodNames (s : Symbols) (t : Ty) : List String :=
  sortNames <|
    match t with
    | .array _ => ["exists", "filter", "find", "map", "reverse", "slice", "to_string"]
    | .option _ => ["map", "ok_or", "value_or"]
    | .result _ _ => ["map", "map_err"]
    | .record _ _ => ((s.structOf? t).map fun info => info.methods.keys).getD []
    | .named _ | .applied _ _ => ((s.registry.infoOf? t).map fun info => info.methods.keys).getD []
    | .unknown | .tuple _ | .function _ | .placeholder _ => []

/-! ## Operators -/

/-- The first overload that accepts the other operand. -/
def pick? (s : Symbols) (overloads : List Overload) (other : Ty) : Option Overload :=
  (Overload.pickWith (fun a b => pure (s.accepts a b)) other overloads : Id _).run

/-- The overloads in a library type's operator table. -/
def libraryOverloads (s : Symbols) (t : Ty) (overloads : List Library.OverloadInfo) :
    List Overload :=
  let bound := s.typeBindings t
  overloads.map fun o =>
    ⟨o.other.resolve s.registry bound, o.result.resolve s.registry bound, none⟩

/-- The overloads of an operator in a table of a struct of the script, or else of a library type. -/
def overloadsIn (own : StructInfo → Table Operator (List Overload))
    (library : Library.TypeInfo → Table String (List Library.OverloadInfo)) (s : Symbols) (t : Ty)
    (op : Operator) : List Overload :=
  match s.structOf? t with
  | some info => ((own info).get? op).getD []
  | none =>
    match s.registry.infoOf? t with
    | some info => s.libraryOverloads t (((library info).get? op.symbol).getD [])
    | none => []

/-- The overloads of an operator for a value of type `t` on its left. -/
def suffixOverloads : Symbols → Ty → Operator → List Overload :=
  overloadsIn StructInfo.suffixOperators Library.TypeInfo.suffixOperators

/-- The overloads of an operator for a value of type `t` on its right; unary ones have `Unit` on
their left. -/
def prefixOverloads : Symbols → Ty → Operator → List Overload :=
  overloadsIn StructInfo.prefixOperators Library.TypeInfo.prefixOperators

/-- The operator with a value of type `t` on its left. -/
def suffixOperator? (s : Symbols) (t : Ty) (op : Operator) (right : Ty) : Option Overload :=
  s.pick? (s.suffixOverloads t op) right

/-- The operator with a value of type `t` on its right; a unary one has `Unit` on its left. -/
def prefixOperator? (s : Symbols) (t : Ty) (op : Operator) (left : Ty) : Option Overload :=
  s.pick? (s.prefixOverloads t op) left

/-! ## Elements -/

/-- The elements of an array, or else what a library type gives for its elements. -/
def elementIn? (source : Library.TypeInfo → Option TypeRef) (s : Symbols) (t : Ty) : Option Ty :=
  match t with
  | .array element => some element
  | _ => do
    let info ← s.registry.infoOf? t
    let ref ← source info
    return ref.resolve s.registry (s.typeBindings t)

/-- The type of the elements when a value is the source of a loop. -/
def iterated? : Symbols → Ty → Option Ty := elementIn? Library.TypeInfo.forInSource

/-- The type of the elements when a value is indexed by a number. -/
def indexed? : Symbols → Ty → Option Ty := elementIn? Library.TypeInfo.indexAccess

/-- The text of a type followed by what the library says about it. -/
def describe (s : Symbols) (t : Ty) : String :=
  match s.registry.infoOf? t with
  | some info =>
    if info.description.isEmpty then t.display else t.display ++ "\n\n" ++ info.description
  | none => t.display

end Symbols

end ScriptCheck
