import ScriptCheck.Declare.State

/-!
# Imports

A script imports a module under a name, or constants, functions and types of a module. One name may
stand for a constant, a function and a type at once, and all of them are imported.
-/

namespace ScriptCheck.Declare

/-- Imports something that a module may have, and says whether it has. -/
def importAs {ι : Type} (found : Option ι) (enter : ι → DeclareM Unit) : DeclareM Bool := do
  match found with
  | none => return false
  | some info =>
    enter info
    return true

/-- Imports the constant called `name` and says whether the module has one. -/
def importConstant (module : Library.ModuleInfo) (name : String) (range : Option Range) :
    DeclareM Bool :=
  importAs (module.constant? name) fun info =>
    enterNew .constant name range (·.constants.contains name) fun s =>
      let value : Value :=
        { ty := info.type.resolve s.registry {}, description := info.description }
      { s with constants := s.constants.insert name value }

/-- Imports the function called `name` and says whether the module has one. -/
def importFunction (module : Library.ModuleInfo) (name : String) (range : Option Range) :
    DeclareM Bool :=
  importAs (module.function? name) fun info =>
    enterNew .function name range (·.functions.contains name) fun s =>
      let value : Value := { ty := s.registry.functionType info, description := info.description }
      { s with functions := s.functions.insert name value }

/-- Imports the type called `name` and says whether the module has one. -/
def importType (module : Library.ModuleInfo) (name : String) (range : Option Range) :
    DeclareM Bool :=
  importAs (module.type? name) fun _ =>
    enterNew .type name range (·.types.contains name) fun s =>
      { s with types := s.types.insert name { ty := .named ⟨module.name, name⟩ } }

/-- Imports everything called `name` and says whether there is anything. Names that are taken are
complained about at `range`, or skipped without one. -/
def importName (module : Library.ModuleInfo) (name : String) (range : Option Range) :
    DeclareM Bool := do
  let constant ← importConstant module name range
  let function ← importFunction module name range
  let type ← importType module name range
  return constant || function || type

/-- Imports a name that a script lists. -/
def importListed (module : Library.ModuleInfo) (name : Ident) : DeclareM Unit := do
  unless ← importName module name.name (some name.range) do
    fail (.undefined .symbol name.name (some module.name)) name.range

/-- The names of everything that a module exports. -/
def exported (module : Library.ModuleInfo) : List String :=
  module.constants.map (·.name) ++ module.functions.map (·.name) ++ module.types.map (·.name)

/-- Gives a module the name under which the script refers to it. -/
def nameModule (module : Library.ModuleInfo) (name : Ident) : DeclareM Unit :=
  enterNew .module name.name name.range (·.modules.contains name.name) fun s =>
    { s with modules := s.modules.insert name.name module.name }

/-- Declares what an import brings in. -/
def imports (decl : UseDecl) : DeclareM Unit := do
  match (← symbols).registry.module? decl.module.name with
  | none => fail (.undefined .module decl.module.name none) decl.module.range
  | some module =>
    match decl.imports with
    | .module shortName => nameModule module (shortName.getD ⟨module.name, decl.module.range⟩)
    | .names names => each (importListed module) names
    | .all =>
      each (fun name => do let _ ← importName module name none) (exported module)

end ScriptCheck.Declare
