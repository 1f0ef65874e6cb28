import ScriptCheck.Symbols.Basic

/-!
# Looking up symbols

Resolution of module, type, constant and function names at module level. A name in front of `::` is
a module as the script calls it, or else by its full name. Inside an `impl` block the name `Self`
stands for the struct that the block extends; a `View` says whether that is the case.

The functions `Some`, `None`, `Ok`, `Err`, `Cell` and `ArrayBuilder` exist in every script, before
all other functions. They take their type from the result that is expected of the call, if it has
the right shape, and are generic otherwise.
-/

namespace ScriptCheck

/-! ## Constructor functions -/

/-- The type of a constructor function, given the result expected of the call. -/
def constructor? (name : String) (expected : Option Ty) : Option Ty :=
  let t : Ty := .placeholder "T"
  let e : Ty := .placeholder "E"
  let generic (generics : List String) (param : List (Param Ty)) (result : Ty) : Option Ty :=
    some (.function { generics, params := param, result })
  let fixed (param : List (Param Ty)) (result : Ty) : Option Ty :=
    some (.function { params := param, result })
  if name = "Some" then
    match expected with
    | some (.option inner) => fixed [⟨"value", inner, false⟩] (.option inner)
    | _ => generic ["T"] [⟨"value", t, false⟩] (.option t)
  else if name = "None" then
    match expected with
    | some (.option inner) => fixed [] (.option inner)
    | _ => generic ["T"] [] (.option t)
  else if name = "Ok" then
    match expected with
    | some (.result ok err) => fixed [⟨"value", ok, false⟩] (.result ok err)
    | _ => generic ["T", "E"] [⟨"value", t, false⟩] (.result t e)
  else if name = "Err" then
    match expected with
    | some (.result ok err) => fixed [⟨"error", err, false⟩] (.result ok err)
    | _ => generic ["T", "E"] [⟨"error", e, false⟩] (.result t e)
  else if name = "Cell" then
    match expected with
    | some (.applied ⟨"", "Cell"⟩ args) =>
      fixed [⟨"value", args.headD .unknown, false⟩] (.applied ⟨"", "Cell"⟩ args)
    | _ => generic ["T"] [⟨"value", t, false⟩] (.applied ⟨"", "Cell"⟩ [t])
  else if name = "ArrayBuilder" then
    match expected with
    | some (.applied ⟨"", "ArrayBuilder"⟩ args) =>
      fixed [⟨"capacity", Ty.int, false⟩] (.applied ⟨"", "ArrayBuilder"⟩ args)
    | _ => generic ["T"] [⟨"capacity", Ty.int, false⟩] (.applied ⟨"", "ArrayBuilder"⟩ [t])
  else none

/-! ## Names at module level -/

namespace Symbols

/-- The module that a script calls `name`. -/
def module? (s : Symbols) (name : String) : Option Library.ModuleInfo :=
  match s.modules.get? name with
  | some module => s.registry.module? module
  | none => s.registry.module? name

/-- The type called `name`: of the given module, or else of the script or the prelude. -/
def type? (s : Symbols) (scope : Option String) (name : String) : Option Ty :=
  match scope with
  | some module => do
    let m ← s.module? module
    let _ ← m.type? name
    return .named ⟨m.name, name⟩
  | none =>
    match s.types.get? name with
    | some found => some found.ty
    | none => if (Library.Prelude.type? name).isSome then some (Ty.prelude name) else none

/-- The constant called `name`: of the given module, or else of the script. -/
def constant? (s : Symbols) (scope : Option String) (name : String) : Option Value :=
  match scope with
  | some module => do
    let m ← s.module? module
    let c ← m.constant? name
    return ⟨c.type.resolve s.registry {}, none, c.description⟩
  | none => s.constants.get? name

/-- The function called `name`: of the given module, or else a constructor function or one of the
script. The hint is the function type expected at the place of use. -/
def function? (s : Symbols) (scope : Option String) (name : String) (hint : Option Ty) :
    Option Value :=
  match scope with
  | some module => do
    let m ← s.module? module
    let f ← m.function? name
    return ⟨s.registry.functionType f, none, f.description⟩
  | none =>
    match constructor? name ((hint.bind Ty.signature?).map Signature.result) with
    | some ty => some { ty }
    | none => s.functions.get? name

end Symbols

/-! ## Views -/

/-- The struct that an `impl` block extends. -/
structure SelfType where
  name : String
  ty : Ty
deriving DecidableEq

/-- The struct that an `impl` block for `name` extends. -/
def Symbols.selfOf? (s : Symbols) (name : String) : Option SelfType :=
  match s.types.get? name with
  | some found => if found.isStruct then some ⟨name, found.ty⟩ else none
  | none => none

/-- The symbols of a script as seen from one of its items. -/
structure View where
  symbols : Symbols
  self : Option SelfType := none

namespace View

/-- The type that `Self` stands for. -/
def selfType? (v : View) : Option Ty := v.self.map SelfType.ty

/-- The type called `name`, which may be `Self`. -/
def type? (v : View) (scope : Option String) (name : String) : Option Ty :=
  if scope.isNone && name == "Self" then v.selfType? else v.symbols.type? scope name

end View

end ScriptCheck
