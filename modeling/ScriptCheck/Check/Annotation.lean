import ScriptCheck.Check.State

/-!
# Checking type annotations

`TypeSpec.check` returns the type that `TypeSpec.resolve` gives and complains once for each name in
the annotation that is not known or has the wrong number of arguments.
-/

namespace ScriptCheck

namespace Check

/-- Complains about a type name that stands for nothing, or about the module in front of it. -/
def unknownType (range : Range) (scope : Option String) (name : String) : CheckM Unit := do
  let s ← symbols
  match scope with
  | some module =>
    if (s.module? module).isNone then error (.undefined .module module none) range
    else error (.undefined .type name scope) range
  | none => error (.undefined .type name none) range

/-- Marks a type name and links it to its declaration in the script. -/
def markType (range : Range) (scope : Option String) (name : String) : CheckM Unit := do
  let s ← symbols
  let own := if scope.isNone && name != "Self" then s.types.get? name else none
  match own with
  | some found =>
    if found.isStruct then
      token range .struct []
      link range found.definition
    else if found.definition.isSome then
      token range .type []
      link range found.definition
    else token range .type [.defaultLibrary]
  | none => token range .type [.defaultLibrary]

/-- The rule for a type name with arguments, which are checked before. -/
def typeName (range : Range) (scope : Option String) (name : String) (args : List TypeSpec) :
    CheckM Ty := do
  let view := (← get).view
  match view.type? scope name with
  | none =>
    unknownType range scope name
    return .unknown
  | some base =>
    let nameRange :=
      if scope.isNone && !args.isEmpty then range.leading name.utf8ByteSize else range
    markType nameRange scope name
    let expected := (base.genericNames view.symbols.registry).length
    if !args.isEmpty && expected != args.length then
      error (.count (.typeArguments name) expected args.length) range
      return .unknown
    else
      let ty := (TypeSpec.named range scope name args).resolve view
      hoverText nameRange (view.symbols.describe ty)
      return ty

/-- The type of an annotation whose parts were checked before. -/
def resolved (spec : TypeSpec) : CheckM Ty := do return spec.resolve (← get).view

end Check

namespace TypeSpec

mutual
/-- Checks an annotation and returns the type it stands for. -/
def check : TypeSpec → CheckM Ty
  | .named range scope name args => do
    let _ ← checkList args
    Check.typeName range scope name args
  | .array range element => do
    let _ ← element.check
    Check.resolved (.array range element)
  | .option range inner => do
    let _ ← inner.check
    Check.resolved (.option range inner)
  | .result range ok err => do
    let _ ← ok.check
    let _ ← err.check
    Check.resolved (.result range ok err)
  | .tuple range items => do
    let _ ← checkList items
    Check.resolved (.tuple range items)
  | .record range items => do
    checkItems items
    Check.resolved (.record range items)
  | .function range isAsync params ret => do
    let _ ← checkList params
    let _ ← ret.check
    Check.resolved (.function range isAsync params ret)

/-- Checks annotations one after the other. -/
def checkList : List TypeSpec → CheckM (List Ty)
  | [] => return []
  | spec :: rest => do
    let ty ← spec.check
    return ty :: (← checkList rest)

/-- Checks the annotations of record items. -/
def checkItems : List (String × TypeSpec) → CheckM Unit
  | [] => pure ()
  | (_, spec) :: rest => do
    let _ ← spec.check
    checkItems rest
end

end TypeSpec

end ScriptCheck
