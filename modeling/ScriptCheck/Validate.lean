import ScriptCheck.Check.Item
import ScriptCheck.Declare.Const
import ScriptCheck.Declare.Function
import ScriptCheck.Declare.Import
import ScriptCheck.Declare.Type

/-!
# Validating a script

Two passes. The first enters all names of a script into its symbol tables: imports, structs, the
fields of structs and type aliases, functions with methods and operators, and constants, in this
order. Inside of each group the declarations are entered in the order of the file, which thus
matters between constants that are inferred from each other and between types that mention each
other. The second pass checks each item against the complete tables.

Validation always succeeds. What is wrong with a script is found among the diagnostics.
-/

namespace ScriptCheck

/-- The result of validating a script. -/
structure Validation where
  report : Report
  symbols : Symbols

namespace Declare

/-- Enters an import. -/
def importItem : Item → DeclareM Unit
  | .use decl => imports decl
  | _ => pure ()

/-- Enters the name of a struct. -/
def structItem : Item → DeclareM Unit
  | .struct decl => register decl
  | _ => pure ()

/-- Enters the fields of a struct, or a type alias. -/
def typeItem : Item → DeclareM Unit
  | .struct decl => structFields decl
  | .typeAlias decl => typeAlias decl
  | _ => pure ()

/-- Enters a function, or the functions of a block. -/
def functionItem : Item → DeclareM Unit
  | .function decl => enterFunction .module decl
  | .methods decl => block .methods decl
  | .operators decl => block .operators decl
  | _ => pure ()

/-- Enters a constant. -/
def constItem : Item → DeclareM Unit
  | .const decl => const decl
  | _ => pure ()

/-- The first pass. -/
def items (all : List Item) : DeclareM Unit := do
  each importItem all
  each structItem all
  each typeItem all
  each functionItem all
  each constItem all

end Declare

namespace Script

/-- The symbol tables of a script, and the complaints of the first pass. -/
def declarations (registry : Registry) (script : Script) : Declarations :=
  ((Declare.items script.items).run { symbols := { registry, moduleName := script.name } }).2

/-- Checks a script against a library, with the given view of its expressions in the second pass. -/
def validateWith (see : Expr → Part) (registry : Registry) (script : Script) : Validation :=
  let d := script.declarations registry
  let start : Checker :=
    { view := { symbols := d.symbols }, report := { diagnostics := d.diagnostics } }
  let checker := ((Check.items see script.items).run start).2
  ⟨checker.report.finish, d.symbols⟩

/-- Checks a script against a library. -/
def validate (registry : Registry) (script : Script) : Validation :=
  script.validateWith Expr.part registry

end Script

end ScriptCheck
