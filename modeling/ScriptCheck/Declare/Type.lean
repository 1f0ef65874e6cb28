import ScriptCheck.Declare.State

/-!
# Structs and type aliases

All structs are entered before any field is resolved, so that fields and aliases may refer to every
struct of the script. A struct is entered without fields first. Its fields, its type with the fields
and its constructor follow in the order of the file; where a type is resolved before that, the
record type it contains has no fields yet.
-/

namespace ScriptCheck.Declare

/-- The record type of a struct of the script. -/
def structType (s : Symbols) (name : String) (fields : List (String × Ty)) : Ty :=
  .record (some (s.qualify name)) fields

/-- Enters a struct without its fields. -/
def register (decl : StructDecl) : DeclareM Unit :=
  let name := decl.name.name
  enterNew .struct name decl.name.range (·.types.contains name) fun s =>
    let found : TypeAlias :=
      { ty := structType s name [], definition := s.define decl.name.range, isStruct := true }
    { s with types := s.types.insert name found, structs := s.structs.insert name {} }

/-- Whether the type of this name is the one declared at this place. -/
def owns (s : Symbols) (name : Ident) : Bool :=
  ((s.types.get? name.name).bind TypeAlias.definition).any fun d => d.range == name.range

/-- The fields whose name did not occur before. -/
def firstFields : (seen : List String) → List FieldDecl → List FieldDecl
  | _, [] => []
  | seen, f :: rest =>
    if seen.contains f.name.name then firstFields seen rest
    else f :: firstFields (f.name.name :: seen) rest

/-- The names of the fields whose name did occur before. -/
def repeatedFields : (seen : List String) → List FieldDecl → List Ident
  | _, [] => []
  | seen, f :: rest =>
    if seen.contains f.name.name then f.name :: repeatedFields seen rest
    else repeatedFields (f.name.name :: seen) rest

/-- Sets the fields of a struct and enters their definitions and descriptions. -/
def withFields (s : Symbols) (info : StructInfo) (fields : List (String × Ty))
    (decls : List FieldDecl) : StructInfo :=
  { info with
    fields
    fieldDefinitions := decls.foldl
      (fun t f => t.insertNew f.name.name (s.define f.name.range)) info.fieldDefinitions
    fieldDescriptions := decls.foldl
      (fun t f => if f.description.isEmpty then t else t.insertNew f.name.name f.description)
      info.fieldDescriptions }

/-- The constructor of a struct: a function of its fields. A field with a default value is an
optional argument. -/
def constructor (decl : StructDecl) (ty : Ty) (fields : List (String × Ty)) : Ty :=
  .function
    { params := fields.map fun (name, fieldTy) =>
        { name, ty := fieldTy
          hasDefault := decl.fields.any fun f => f.name.name == name && f.default.isSome }
      result := ty }

/-- The fields of a struct with their types. -/
def resolvedFields (decl : StructDecl) (s : Symbols) : List (String × Ty) :=
  (firstFields [] decl.fields).map fun f => (f.name.name, f.type.resolve { symbols := s })

/-- The entry for the constructor of a struct. -/
def constructorValue (decl : StructDecl) (s : Symbols) : Value :=
  { ty := constructor decl (structType s decl.name.name (resolvedFields decl s))
      (resolvedFields decl s)
    definition := s.define decl.name.range
    description := decl.description }

/-- The symbols once a struct has its fields and its constructor. -/
def withStruct (decl : StructDecl) (s : Symbols) : Symbols :=
  let name := decl.name.name
  let fields := resolvedFields decl s
  { s with
    structs := s.structs.insert name
      (withFields s ((s.structs.get? name).getD {}) fields decl.fields)
    types := match s.types.get? name with
      | some found => s.types.insert name { found with ty := structType s name fields }
      | none => s.types
    functions := if s.functions.contains name then s.functions
      else s.functions.insert name (constructorValue decl s) }

/-- Enters the type, the fields and the constructor of a struct. -/
def structFields (decl : StructDecl) : DeclareM Unit := do
  let s ← symbols
  if owns s decl.name then
    each (duplicate .field) (repeatedFields [] decl.fields)
    update (withStruct decl)
    if s.functions.contains decl.name.name then duplicate .function decl.name

/-- Enters a type alias. -/
def typeAlias (decl : AliasDecl) : DeclareM Unit :=
  let name := decl.name.name
  enterNew .type name decl.name.range (·.types.contains name) fun s =>
    let found : TypeAlias :=
      { ty := decl.type.resolve { symbols := s }, definition := s.define decl.name.range }
    { s with types := s.types.insert name found }

end ScriptCheck.Declare
