import ScriptCheck.Script.Expr

/-!
# Scripts

A script is a named list of items: imports, constants, functions, structs, type aliases and blocks
that add methods or operators to a struct.
-/

namespace ScriptCheck

/-- What an import brings in. -/
inductive Import where
  /-- `use module` or `use module as alias`. -/
  | module (shortName : Option Ident)
  /-- `use { a, b } from module`. -/
  | names (names : List Ident)
  /-- `use * from module`. -/
  | all

/-- An import. -/
structure UseDecl where
  module : Ident
  imports : Import
  range : Range

/-- A constant. -/
structure ConstDecl where
  name : Ident
  isPub : Bool := false
  description : String := ""
  type : Option TypeSpec := none
  value : Expr
  range : Range

/-- A parameter of a function. Only the receiver of a method may be without a type. -/
structure ParamDecl where
  name : Ident
  type : Option TypeSpec := none
  default : Option Expr := none

/-- A function, a method or an operator overload. -/
structure FunctionDecl where
  name : Ident
  isPub : Bool := false
  isAsync : Bool := false
  description : String := ""
  params : List ParamDecl
  result : TypeSpec
  body : Expr
  range : Range

/-- A field of a struct. One with a default is an optional argument of the constructor. -/
structure FieldDecl where
  name : Ident
  type : TypeSpec
  description : String := ""
  default : Option Expr := none

/-- A struct. -/
structure StructDecl where
  name : Ident
  isPub : Bool := false
  description : String := ""
  fields : List FieldDecl
  range : Range

/-- A type alias. -/
structure AliasDecl where
  name : Ident
  isPub : Bool := false
  description : String := ""
  type : TypeSpec
  range : Range

/-- The functions of an `impl` or `impl operators` block for the struct `name`. -/
structure ImplDecl where
  name : Ident
  functions : List FunctionDecl
  range : Range

/-- An item of a script. -/
inductive Item where
  | use (decl : UseDecl)
  | const (decl : ConstDecl)
  | function (decl : FunctionDecl)
  | struct (decl : StructDecl)
  | typeAlias (decl : AliasDecl)
  | methods (decl : ImplDecl)
  | operators (decl : ImplDecl)

/-- The range of an item. -/
def Item.range : Item → Range
  | .use d => d.range
  | .const d => d.range
  | .function d => d.range
  | .struct d => d.range
  | .typeAlias d => d.range
  | .methods d => d.range
  | .operators d => d.range

/-- A script: a name and its items in the order of the file. -/
structure Script where
  name : String
  description : String := ""
  items : List Item

end ScriptCheck
