import ScriptCheck.Check.Name
import ScriptCheck.Check.Operator

/-!
# Declarations and assignments

The rules for expressions that declare variables or assign to them. Tuples are taken apart by
position and records by field name.
-/

namespace ScriptCheck.Check

/-- Declares a variable. One of the same name in the same scope is replaced, with a complaint. -/
def declareVar (id : Nat) (name : Ident) (ty : Ty) (isConst : Bool) : CheckM Unit := do
  token name.range .var (if isConst then [.declaration, .readonly] else [.declaration])
  hover name.range name.name ty ""
  let c ← get
  enter id name.name { ty, definition := some (c.view.symbols.define name.range), isConst }
  if (c.scopes.own? id name.name).isSome then
    error (.duplicate .var name.name) name.range

/-- The types of the fields that are called like the names. -/
def fieldTypes (s : Symbols) (ty : Ty) : List Ident → CheckM (List Ty)
  | [] => return []
  | name :: rest => do
    match s.field? ty name.name with
    | some found => return found.ty :: (← fieldTypes s ty rest)
    | none =>
      unknownField ty name
      return .unknown :: (← fieldTypes s ty rest)

/-- The types of the names that a value is taken apart into. -/
def destructured (names : List Ident) (ty : Ty) (range : Range) : CheckM (List Ty) := do
  match ty with
  | .unknown => return names.map fun _ => .unknown
  | .tuple items =>
    unless items.length = names.length do
      error (.count .destructured items.length names.length) range
    return (List.range names.length).map fun i => (items[i]?).getD .unknown
  | .record _ _ => fieldTypes (← symbols) ty names
  | other =>
    error (.unsupported (.destructuring other)) range
    return names.map fun _ => .unknown

/-- Declares several variables, with their types as inlays if these are inferred. -/
def declareVars (id : Nat) (isConst inferred : Bool) : List (Ident × Ty) → CheckM Unit
  | [] => pure ()
  | (name, ty) :: rest => do
    if inferred && !ty.isUnknown then inlay name.range ty
    declareVar id name ty isConst
    declareVars id isConst inferred rest

/-- Declares the variables that a value is taken apart into. -/
def destructure (id : Nat) (names : List Ident) (ty : Ty) (isConst inferred : Bool)
    (range : Range) : CheckM Unit := do
  let types ← destructured names ty range
  declareVars id isConst inferred (names.zip types)

/-- The type of a declared variable: the one it is declared with, or else that of its value. -/
def declaredType [Comparing] (declared : Option Ty) (value : Part) (id : Nat) : CheckM Ty := do
  let found ← value.check id declared
  match declared with
  | some expected =>
    expect expected found value.range
    return expected
  | none => return found

/-- The rule for `let` and `const` once the type is known that stands there. -/
def declareTyped [Comparing] (range : Range) (isConst : Bool) (binding : Binding) (value : Part)
    (id : Nat) (declared : Option Ty) : CheckM Ty := do
  let ty ← declaredType declared value id
  match binding with
  | .single name =>
    if declared.isNone then
      if ty.isUnknown then warn (.uninferred (.var name.name)) name.range
      else inlay name.range ty
    declareVar id name ty isConst
  | .tuple names => destructure id names ty isConst declared.isNone range
  return Ty.unit

/-- Checks the annotation of a declaration, if there is one. -/
def annotated (type : Option TypeSpec) : CheckM (Option Ty) :=
  match type with
  | some spec => some <$> spec.check
  | none => pure none

/-- The rule for `let` and `const`. -/
def declare [Comparing] (range : Range) (isConst : Bool) (binding : Binding)
    (type : Option TypeSpec) (value : Part) (id : Nat) : CheckM Ty := do
  declareTyped range isConst binding value id (← annotated type)

/-- Checks the value of `target = value` or `target op= value`. -/
def assigned [Comparing] (target : Ty) (op : Option Operator) (value : Part) (id : Nat) :
    CheckM Unit := do
  match op with
  | none => require value target id
  | some op =>
    let found ← value.check id none
    expect target (← apply value.range target op found) value.range

/-- Why there is no variable of the given name to assign to. -/
def noVariable (s : Symbols) (name : String) : Problem :=
  if (s.constant? none name).isSome then .unsupported (.assignment .constant name)
  else if (s.function? none name none).isSome then .unsupported (.assignment .function name)
  else .undefined .var name none

/-- Whether a local variable keeps its first value, and what it is called then. -/
def fixed? (v : Local) : Option Fixed :=
  if v.isConst then some .constant else if v.isParam then some .parameter else none

/-- The rule for `name = value` and `name op= value`. -/
def assign [Comparing] (name : Ident) (op : Option Operator) (value : Part) (id : Nat) :
    CheckM Ty := do
  let c ← get
  match c.scopes.local? id name.name with
  | none =>
    error (noVariable c.view.symbols name.name) name.range
    let _ ← value.check id none
  | some v =>
    mark name ⟨v.ty, v.definition, "", .var v.isConst v.isParam⟩
    match fixed? v with
    | some what =>
      error (.unsupported (.assignment what name.name)) name.range
      let _ ← value.check id none
    | none => assigned v.ty op value id
  return Ty.unit

/-- The rule for an assignment to a field, given the type of the target. -/
def fieldAssigned [Comparing] (name : Ident) (op : Option Operator) (value : Part) (id : Nat)
    (owner : Ty) : CheckM Ty := do
  if owner.isUnknown then
    let _ ← value.check id none
  else
    match (← symbols).field? owner name.name with
    | none =>
      unknownField owner name
      let _ ← value.check id none
    | some found =>
      markField name [] found
      if found.readOnly then
        error (.unsupported (.fieldAssignment name.name owner.localName)) name.range
        let _ ← value.check id none
      else assigned found.ty op value id
  return Ty.unit

/-- The rule for `target.name = value` and `target.name op= value`. -/
def fieldAssign [Comparing] (target : Part) (name : Ident) (op : Option Operator) (value : Part)
    (id : Nat) : CheckM Ty := do
  fieldAssigned name op value id (← target.check id none)

end ScriptCheck.Check
