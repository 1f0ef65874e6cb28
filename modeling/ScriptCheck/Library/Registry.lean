import ScriptCheck.Library.Prelude
import ScriptCheck.Ty.Basic

/-!
# The registry

The catalogue of all modules a script may import. A module is found by its name and, if two share
one, the later wins. The types of the prelude are always present and are addressed with an empty
module name.

`TypeRef.resolve` turns a type reference into a type. It never complains: a name that the registry
does not know, or a generic parameter that is not bound, becomes `Ty.unknown`.
-/

namespace ScriptCheck

open Library

/-- The modules that scripts can import. -/
structure Registry where
  modules : Table String ModuleInfo := {}

namespace Registry

/-- The registry with the prelude only. -/
def empty : Registry := {}

/-- The registry of the given modules; of two with one name the later wins. -/
def ofModules (modules : List ModuleInfo) : Registry :=
  ⟨Table.ofList (modules.map fun m => (m.name, m))⟩

/-- The module called `name`. -/
def module? (r : Registry) (name : String) : Option ModuleInfo := r.modules.get? name

/-- The names of all modules, sorted. -/
def moduleNames (r : Registry) : List String := r.modules.sorted.map Prod.fst

/-- A type by its module and name; an empty module addresses the prelude. -/
def type? (r : Registry) (q : QName) : Option TypeInfo :=
  if q.module.isEmpty then Prelude.type? q.name
  else (r.module? q.module).bind fun m => m.type? q.name

/-- The description of the library type that `ty` is or is built from. -/
def infoOf? (r : Registry) : Ty → Option TypeInfo
  | .named q => r.type? q
  | .applied base _ => r.type? base
  | _ => none

end Registry

namespace TypeRef

mutual
/-- The type that a reference stands for, under types for the generic parameters. -/
def resolve (r : Registry) (bound : Bindings) : TypeRef → Ty
  | .builtin name => if (Prelude.type? name).isSome then Ty.prelude name else .unknown
  | .generic name => (bound.get? name).getD .unknown
  | .standard module name args =>
    if (r.type? ⟨module, name⟩).isNone then .unknown
    else if args.isEmpty then .named ⟨module, name⟩
    else .applied ⟨module, name⟩ (resolveList r bound args)
  | .array param => .array (param.resolve r bound)
  | .option param => .option (param.resolve r bound)
  | .result ok err => .result (ok.resolve r bound) (err.resolve r bound)
  | .tuple params => .tuple (resolveList r bound params)
  | .record names params => .record none (names.zip (resolveList r bound params))
  | .function isAsync params ret =>
    .function
      { isAsync
        params := Ty.positional 0 (resolveList r bound params)
        result := ret.resolve r bound }

/-- `resolve` on each reference of a list. -/
def resolveList (r : Registry) (bound : Bindings) : List TypeRef → List Ty
  | [] => []
  | ref :: rest => ref.resolve r bound :: resolveList r bound rest
end

end TypeRef

namespace Registry

/-- Bindings that keep each of the given generic parameters as a placeholder. -/
def selfBindings (generics : List String) : Bindings :=
  Table.ofList (generics.map fun g => (g, Ty.placeholder g))

/-- The type of a parameter list under types for the generic parameters. -/
def paramTypes (r : Registry) (bound : Bindings) (params : List ParameterInfo) : List (Param Ty) :=
  params.map fun p => ⟨p.name, p.type.resolve r bound, p.hasDefault⟩

/-- The type of a library function, whose generic parameters stay open. -/
def functionType (r : Registry) (f : FunctionInfo) : Ty :=
  let bound := selfBindings f.generics
  .function
    { isAsync := f.isAsync
      generics := f.generics
      params := r.paramTypes bound f.params
      result := f.result.resolve r bound }

end Registry

end ScriptCheck
