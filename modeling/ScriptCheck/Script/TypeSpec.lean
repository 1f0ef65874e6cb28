import ScriptCheck.Symbols.Lookup
import ScriptCheck.Ty.Generics

/-!
# Type annotations

Types as scripts write them, with the range each of them occupies. `TypeSpec.resolve` gives the type
that an annotation stands for in a view of the script, without complaints: a name that is not
known, or has the wrong number of arguments, becomes `Ty.unknown`.
-/

namespace ScriptCheck

/-- A name with the range it occupies in the source. -/
structure Ident where
  name : String
  range : Range
deriving DecidableEq, Inhabited

/-- A type annotation. -/
inductive TypeSpec where
  /-- `Name`, `module::Name` or `Name<A, B>`. -/
  | named (range : Range) (scope : Option String) (name : String) (args : List TypeSpec)
  | array (range : Range) (element : TypeSpec)
  | option (range : Range) (inner : TypeSpec)
  | result (range : Range) (ok err : TypeSpec)
  | tuple (range : Range) (items : List TypeSpec)
  | record (range : Range) (items : List (String × TypeSpec))
  | function (range : Range) (isAsync : Bool) (params : List TypeSpec) (ret : TypeSpec)
deriving Inhabited

namespace TypeSpec

/-- The range of an annotation. -/
def range : TypeSpec → Range
  | .named r _ _ _ | .array r _ | .option r _ | .result r _ _ | .tuple r _ | .record r _
  | .function r _ _ _ => r

mutual
/-- The type that an annotation stands for. -/
def resolve (v : View) : TypeSpec → Ty
  | .named _ scope name args =>
    match v.type? scope name with
    | none => .unknown
    | some base =>
      if args.isEmpty then base
      else if (base.genericNames v.symbols.registry).length ≠ args.length then .unknown
      else base.fillPositional v.symbols.registry (resolveList v args)
  | .array _ element => .array (element.resolve v)
  | .option _ inner => .option (inner.resolve v)
  | .result _ ok err => .result (ok.resolve v) (err.resolve v)
  | .tuple _ items => .tuple (resolveList v items)
  | .record _ items => .record none (resolveItems v items)
  | .function _ isAsync params ret =>
    .function
      { isAsync, params := Ty.positional 0 (resolveList v params), result := ret.resolve v }

/-- `resolve` on each annotation of a list. -/
def resolveList (v : View) : List TypeSpec → List Ty
  | [] => []
  | spec :: rest => spec.resolve v :: resolveList v rest

/-- `resolve` on each record item. -/
def resolveItems (v : View) : List (String × TypeSpec) → List (String × Ty)
  | [] => []
  | (name, spec) :: rest => (name, spec.resolve v) :: resolveItems v rest
end

mutual
/-- An annotation as it is written. -/
def display : TypeSpec → String
  | .named _ scope name args =>
    (match scope with
      | some module => module ++ "::"
      | none => "") ++ name ++
      (if args.isEmpty then "" else "<" ++ displayList args ++ ">")
  | .array _ element => element.display ++ "[]"
  | .option _ inner => "Option<" ++ inner.display ++ ">"
  | .result _ ok err => "Result<" ++ ok.display ++ ", " ++ err.display ++ ">"
  | .tuple _ items => "(" ++ displayList items ++ ")"
  | .record _ items => "(" ++ displayItems items ++ ")"
  | .function _ isAsync params ret =>
    (if isAsync then "async fn(" else "fn(") ++ displayList params ++ ") -> " ++ ret.display

/-- Annotations separated by commas. -/
def displayList : List TypeSpec → String
  | [] => ""
  | [spec] => spec.display
  | spec :: rest => spec.display ++ ", " ++ displayList rest

/-- Record items separated by commas. -/
def displayItems : List (String × TypeSpec) → String
  | [] => ""
  | [(name, spec)] => name ++ " : " ++ spec.display
  | (name, spec) :: rest => name ++ " : " ++ spec.display ++ ", " ++ displayItems rest
end

/-- An annotation without the module in front of its name and without arguments. -/
def localName : TypeSpec → String
  | .named _ _ name _ => name
  | spec => spec.display

end TypeSpec

end ScriptCheck
