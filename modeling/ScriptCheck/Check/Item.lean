import ScriptCheck.Check.Expr

/-!
# Checking items

The second pass over a script checks each item against the complete symbol tables. Items are
checked one by one: all scopes are forgotten after each of them, and inside an `impl` block after
each function.

The rules do not look into expressions. They are told how an expression is seen as a part.
-/

namespace ScriptCheck.Check

/-! ## Imports, constants and types -/

/-- Marks a name that is imported from a module. -/
def importedName (name : Ident) : CheckM Unit := do
  let s ← symbols
  match s.constants.get? name.name with
  | some found => markConstant name found
  | none =>
    match s.functions.get? name.name with
    | some found => markFunction name found
    | none =>
      if s.types.contains name.name then token name.range .type [.defaultLibrary]

/-- Marks the names that are imported from a module. -/
def importedNames : List Ident → CheckM Unit
  | [] => pure ()
  | name :: rest => do
    importedName name
    importedNames rest

/-- Checks an import. An unknown module was complained about in the first pass. -/
def use (decl : UseDecl) : CheckM Unit := do
  match (← symbols).registry.module? decl.module.name with
  | none => pure ()
  | some module =>
    token decl.module.range .module []
    unless module.description.isEmpty do hoverText decl.module.range module.description
    match decl.imports with
    | .module (some shortName) => token shortName.range .module [.declaration]
    | .module none => pure ()
    | .all => pure ()
    | .names names => importedNames names

/-- Shows the type of a constant, behind its name if it is inferred. -/
def showConst (decl : ConstDecl) (inferred : Bool) (ty : Ty) : CheckM Unit := do
  let name := decl.name
  if inferred then
    if ty.isUnknown then warn (.uninferred (.var name.name)) name.range
    else inlay name.range ty
  token name.range .var [.declaration, .readonly]
  hover name.range name.name ty decl.description

/-- Checks the value of a constant in a scope of its own and returns the type of the constant. -/
def rootType [Comparing] (declared : Option Ty) (value : Part) : CheckM Ty := do
  let id ← openScope none .block
  declaredType declared value id

section

variable [Comparing] (see : Expr → Part)

/-- Checks a constant. -/
def const (decl : ConstDecl) : CheckM Unit := do
  let declared ← annotated decl.type
  let ty ← rootType declared (see decl.value)
  showConst decl declared.isNone ty

/-- Checks the fields of a struct. -/
def structFields : List FieldDecl → CheckM Unit
  | [] => pure ()
  | decl :: rest => do
    let ty ← decl.type.check
    token decl.name.range .property [.declaration]
    hover decl.name.range decl.name.name ty decl.description
    match decl.default with
    | some value =>
      let id ← openScope none .block
      require (see value) ty id
    | none => pure ()
    structFields rest

/-- Checks a struct. -/
def struct (decl : StructDecl) : CheckM Unit := do
  let name := decl.name
  token name.range .struct [.declaration]
  match (← symbols).types.get? name.name with
  | some found => hover name.range name.name found.ty decl.description
  | none => pure ()
  structFields see decl.fields

end

/-- Checks a type alias. -/
def typeAlias (decl : AliasDecl) : CheckM Unit := do
  let ty ← decl.type.check
  token decl.name.range .type [.declaration]
  hover decl.name.range decl.name.name ty decl.description

/-! ## Functions -/

/-- What a function declaration declares. -/
inductive Role where
  | function
  | method
  | operator
deriving DecidableEq

/-- The kind of token for the name of a function. -/
def Role.token : Role → TokenKind
  | .method => .method
  | .function | .operator => .function

/-- The type under which a function is registered, if it is this declaration that is. -/
def registered? (view : View) (name : Ident) : Role → Option Ty
  | .method => do
    let self ← view.self
    let info ← view.symbols.structs.get? self.name
    let found ← info.methods.get? name.name
    return found.ty
  | .function => do
    let found ← view.symbols.functions.get? name.name
    if found.definition.map Definition.range = some name.range then some found.ty else none
  | .operator => none

/-- The type of a parameter. Only the receiver of a method may be without one. -/
def paramType (param : ParamDecl) (isReceiver : Bool) : CheckM Ty := do
  match param.type with
  | some spec => spec.check
  | none =>
    if isReceiver then return (← get).view.selfType?.getD .unknown
    else
      error (.badDeclaration (.untypedParam param.name.name)) param.name.range
      return .unknown

/-- Shows the type under which a function is registered. -/
def showRegistered (role : Role) (decl : FunctionDecl) : CheckM Unit := do
  match registered? (← get).view decl.name role with
  | some ty => hover decl.name.range decl.name.name ty decl.description
  | none => pure ()

/-- What the check of a body works with. -/
structure Opening where
  /-- The number of the scope of the body. -/
  body : Nat
  result : Ty
  params : List Ty

section

variable [Comparing] (see : Expr → Part)

/-- Checks the default value of a parameter. -/
def checkDefault (param : ParamDecl) (ty : Ty) (defaults : Nat) : CheckM Unit :=
  match param.default with
  | some value => require (see value) ty defaults
  | none => pure ()

/-- Checks parameters, enters them into the scope of the body and returns their types. Default
values are checked in a scope that sees no parameters. -/
def functionParams (role : Role) (body defaults : Nat) :
    (first : Bool) → (seen : List String) → List ParamDecl → CheckM (List Ty)
  | _, _, [] => return []
  | first, seen, param :: rest => do
    let ty ← paramType param (role == .method && first && param.name.name == "self")
    checkDefault see param ty defaults
    enterUnseen body seen param.name ty
    return ty :: (← functionParams role body defaults false (param.name.name :: seen) rest)

/-- The check of a function up to its body. -/
def opening (role : Role) (decl : FunctionDecl) : CheckM Opening := do
  let result ← decl.result.check
  token decl.name.range role.token [.declaration]
  showRegistered role decl
  let body ← openScope none (.function result)
  let defaults ← openScope none .block
  let params ← functionParams see role body defaults true [] decl.params
  return ⟨body, result, params⟩

/-- The check of the body of a function. -/
def checkBody (decl : FunctionDecl) (o : Opening) : CheckM Unit := do
  let found ← (see decl.body).check o.body (some o.result)
  expect o.result found decl.body.resultRange

/-- Checks a function, a method or an operator overload. -/
def function (role : Role) (decl : FunctionDecl) : CheckM Unit := do
  checkBody see decl (← opening see role decl)

/-- Checks functions, each with scopes of its own. -/
def functions (role : Role) : List FunctionDecl → CheckM Unit
  | [] => pure ()
  | decl :: rest => do
    function see role decl
    closeScopes
    functions role rest

end

/-- Sets what `Self` stands for. -/
def setSelf (self : Option SelfType) : CheckM Unit :=
  modify fun c => { c with view := { c.view with self } }

/-- Begins the check of an `impl` or `impl operators` block. `Self` stands for its struct from here
on, if there is one; an unknown struct was complained about in the first pass. -/
def openImpl (decl : ImplDecl) : CheckM Unit := do
  let s ← symbols
  setSelf (s.selfOf? decl.name.name)
  token decl.name.range .struct []
  link decl.name.range ((s.types.get? decl.name.name).bind TypeAlias.definition)

section

variable [Comparing] (see : Expr → Part)

/-- Checks an `impl` or `impl operators` block. -/
def impl (role : Role) (decl : ImplDecl) : CheckM Unit := do
  openImpl decl
  functions see role decl.functions
  setSelf none

/-! ## Items -/

/-- Checks an item. -/
def item : Item → CheckM Unit
  | .use decl => use decl
  | .const decl => const see decl
  | .function decl => function see .function decl
  | .struct decl => struct see decl
  | .typeAlias decl => typeAlias decl
  | .methods decl => impl see .method decl
  | .operators decl => impl see .operator decl

/-- Checks items one after the other. -/
def items : List Item → CheckM Unit
  | [] => pure ()
  | first :: rest => do
    item see first
    closeScopes
    items rest

end

end ScriptCheck.Check
