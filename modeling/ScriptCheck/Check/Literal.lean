import ScriptCheck.Check.Annotation

/-!
# Lambdas, arrays, tuples, records and ranges

The rules for expressions that build a value. Lambda parameters without a type, and empty arrays,
take theirs from the hint.
-/

namespace ScriptCheck.Check

/-! ## Lambdas -/

/-- The type of a lambda parameter: the one it is annotated with, or else the one expected. -/
def lambdaParam (param : LambdaParam) (expected : Option Ty) : CheckM Ty := do
  match param.type with
  | some spec => spec.check
  | none =>
    match expected.filter Ty.isConcrete with
    | some ty =>
      inlay param.name.range ty
      return ty
    | none =>
      error (.uninferred (.lambdaParam param.name.name)) param.name.range
      return .unknown

/-- The parameters of a lambda, given those of the expected function type. -/
def lambdaParams : List LambdaParam → (expected : List (Param Ty)) → CheckM (List (Param Ty))
  | [], _ => return []
  | param :: rest, expected => do
    let ty ← lambdaParam param (expected.head?.map Param.ty)
    return { name := param.name.name, ty } :: (← lambdaParams rest expected.tail)

/-- Enters parameters into a scope. -/
def enterParams (id : Nat) : (seen : List String) → List (Ident × Ty) → CheckM Unit
  | _, [] => pure ()
  | seen, (name, ty) :: rest => do
    enterUnseen id seen name ty
    enterParams id (name.name :: seen) rest

/-- Checks the parameters and the body of a lambda, given the function type that is expected. -/
def lambdaBody (params : List LambdaParam) (body : Part) (id : Nat)
    (expected : Option (Signature Ty)) : CheckM Ty := do
  let types ← lambdaParams params ((expected.map Signature.params).getD [])
  let resultHint := (expected.map Signature.result).filter Ty.isConcrete
  let inner ← openScope (some id) (.function (resultHint.getD .unknown))
  enterParams inner [] (List.zipWith (fun p t => (p.name, t.ty)) params types)
  let result ← body.check inner resultHint
  return .function { params := types, result }

/-- The rule for a lambda. -/
def lambda (range : Range) (params : List LambdaParam) (body : Part) (id : Nat)
    (hint : Option Ty) : CheckM Ty := do
  let expected := hint.bind Ty.signature?
  match expected with
  | some e =>
    unless e.params.length = params.length do
      error (.count .lambdaParams e.params.length params.length) range
  | none => pure ()
  lambdaBody params body id expected

/-! ## Collections -/

/-- Checks the elements of an array. The first known type is that of the others. -/
def elements [Comparing] (id : Nat) : (element : Option Ty) → List Part → CheckM (Option Ty)
  | element, [] => return element
  | element, part :: rest => do
    let found ← part.check id element
    match element with
    | none => elements id (if found.isUnknown then none else some found) rest
    | some expected =>
      expect expected found part.range
      elements id element rest

/-- The element type of an expected array. -/
def elementHint : Option Ty → Option Ty
  | some (.array element) => if element.isConcrete then some element else none
  | _ => none

/-- The rule for an array. -/
def array [Comparing] (range : Range) (parts : List Part) (id : Nat) (hint : Option Ty) :
    CheckM Ty := do
  match parts, elementHint hint with
  | [], some element => return .array element
  | [], none =>
    error (.uninferred .emptyArray) range
    return .unknown
  | parts, element => return .array ((← elements id element parts).getD .unknown)

/-- Checks the items of a tuple under the items of the expected one. -/
def tupleItems (id : Nat) : (hints : List Ty) → List Part → CheckM (List Ty)
  | _, [] => return []
  | hints, item :: rest => do
    let ty ← item.check id hints.head?
    return ty :: (← tupleItems id hints.tail rest)

/-- The rule for a tuple. -/
def tuple (items : List Part) (id : Nat) (hint : Option Ty) : CheckM Ty := do
  let hints := match hint with
    | some (.tuple hints) => hints
    | _ => []
  return .tuple (← tupleItems id hints items)

/-- Checks the items of a record. One whose name was `seen` before is left out of the type. -/
def recordItems (id : Nat) (hint : Option Ty) :
    (seen : List String) → List (Ident × Part) → CheckM (List (String × Ty))
  | _, [] => return []
  | seen, (name, value) :: rest => do
    let s ← symbols
    let expected := (hint.bind fun t => s.field? t name.name).map FieldType.ty
    let ty ← value.check id expected
    if seen.contains name.name then
      error (.duplicate .field name.name) name.range
      recordItems id hint seen rest
    else
      token name.range .property [.declaration]
      return (name.name, ty) :: (← recordItems id hint (name.name :: seen) rest)

/-- The rule for a record. -/
def record (items : List (Ident × Part)) (id : Nat) (hint : Option Ty) : CheckM Ty :=
  Ty.anonymous <$> recordItems id hint [] items

/-- The rule for a range of numbers. -/
def interval [Comparing] (low high : Part) (id : Nat) : CheckM Ty := do
  require low Ty.int id
  require high Ty.int id
  return Ty.range

end ScriptCheck.Check
