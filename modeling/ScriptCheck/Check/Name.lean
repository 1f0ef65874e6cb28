import ScriptCheck.Check.Annotation

/-!
# Names, fields and elements

The rules for expressions that name something: a variable, a function or a constant, possibly of a
module, a field of a value, or an element of an array.
-/

namespace ScriptCheck.Check

/-- Checks the name of a module in front of `::` and says whether it is known. -/
def moduleName (name : Ident) : CheckM Bool := do
  if ((← symbols).module? name.name).isNone then
    error (.undefined .module name.name none) name.range
    return false
  else
    token name.range .module []
    return true

/-- The token of a plain name. -/
def markToken (range : Range) (found : Resolved) : CheckM Unit :=
  match found.origin with
  | .var _ true => token range .parameter []
  | .var true false => token range .var [.readonly]
  | .var false false => token range .var []
  | .constant => token range .var (.readonly :: libraryModifiers found.definition)
  | .function => token range .function (libraryModifiers found.definition)

/-- Token, definition and hover text of a plain name. -/
def mark (name : Ident) (found : Resolved) : CheckM Unit := do
  markToken name.range found
  link name.range found.definition
  hover name.range name.name found.ty found.description

/-- Token and hover text of a constant of a module. -/
def markConstant (name : Ident) (found : Value) : CheckM Unit := do
  token name.range .var [.readonly, .defaultLibrary]
  hover name.range name.name found.ty found.description

/-- Token and hover text of a function of a module. -/
def markFunction (name : Ident) (found : Value) : CheckM Unit := do
  token name.range .function [.defaultLibrary]
  hover name.range name.name found.ty found.description

/-- What a plain name stands for in a scope. -/
def lookup (name : String) (id : Nat) (hint : Option Ty) : CheckM (Option Resolved) := do
  let c ← get
  return c.scopes.resolve? c.view.symbols id name hint

/-- The rule for `module::name`. -/
def memberVar (module name : Ident) : CheckM Ty := do
  if ← moduleName module then
    let s ← symbols
    match s.constant? (some module.name) name.name with
    | some found =>
      markConstant name found
      return found.ty
    | none =>
      match s.function? (some module.name) name.name none with
      | some found =>
        markFunction name found
        return found.ty
      | none =>
        error (.undefined .var name.name (some module.name)) name.range
        return .unknown
  else return .unknown

/-- The rule for a name. -/
def var (module : Option Ident) (name : Ident) (id : Nat) : CheckM Ty :=
  match module with
  | some module => memberVar module name
  | none => do
    match ← lookup name.name id none with
    | some found =>
      mark name found
      return found.ty
    | none =>
      error (.undefined .var name.name none) name.range
      return .unknown

/-- Token, definition and hover text of a field. -/
def markField (name : Ident) (modifiers : List TokenModifier) (found : FieldType) :
    CheckM Unit := do
  token name.range .property modifiers
  link name.range found.definition
  hover name.range name.name found.ty found.description

/-- Complains about a field that a type does not have. -/
def unknownField (owner : Ty) (name : Ident) : CheckM Unit :=
  error (.undefined .field name.name (some owner.localName)) name.range

/-- The rule for `target.name`, given the type of the target. -/
def fieldOf (name : Ident) (owner : Ty) : CheckM Ty := do
  if owner.isUnknown then return .unknown
  match (← symbols).field? owner name.name with
  | some found =>
    let readonly := if found.readOnly then [TokenModifier.readonly] else []
    markField name (readonly ++ libraryModifiers found.definition) found
    return found.ty
  | none =>
    unknownField owner name
    return .unknown

/-- The rule for `target.name`. -/
def field (target : Part) (name : Ident) (id : Nat) : CheckM Ty := do
  fieldOf name (← target.check id none)

/-- The type of what is taken out of a value, given the type of the value. -/
def elementOf (find : Symbols → Ty → Option Ty) (what : Ty → Unsupported) (range : Range)
    (owner : Ty) : CheckM Ty := do
  if owner.isUnknown then return .unknown
  match find (← symbols) owner with
  | some element => return element
  | none =>
    error (.unsupported (what owner)) range
    return .unknown

/-- The rule for `target[position]`. -/
def index [Comparing] (target position : Part) (id : Nat) : CheckM Ty := do
  let owner ← target.check id none
  require position Ty.int id
  elementOf Symbols.indexed? .index target.range owner

end ScriptCheck.Check
