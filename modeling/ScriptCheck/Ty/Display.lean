import ScriptCheck.Ty.Basic

/-!
# Type texts

How types read in messages and hover texts. A struct reads as its qualified name, a library type as
its name qualified by its module, and a function type in front of array brackets stands in
parentheses.
-/

namespace ScriptCheck

/-- A qualified name; names of the prelude stand alone. -/
def QName.display (q : QName) : String :=
  if q.module.isEmpty then q.name else q.module ++ "::" ++ q.name

namespace Ty

/-- The text of a function type, given those of its parameters and its result. -/
def displayFunction (isAsync : Bool) (generics : List String) (params result : String) : String :=
  (if isAsync then "async fn" else "fn") ++
    (if generics.isEmpty then "" else "<" ++ ", ".intercalate generics ++ ">") ++
    "(" ++ params ++ ") -> " ++ result

mutual
/-- The text of a type. -/
def display : Ty → String
  | .unknown => "<unknown>"
  | .named name => name.display
  | .applied base args => base.display ++ "<" ++ displayList args ++ ">"
  | .array element =>
    if element.isFunction then "(" ++ element.display ++ ")[]" else element.display ++ "[]"
  | .tuple items => "(" ++ displayList items ++ ")"
  | .record (some name) _ => name.display
  | .record none items => "(" ++ displayItems items ++ ")"
  | .option inner => "Option<" ++ inner.display ++ ">"
  | .result ok err => "Result<" ++ ok.display ++ ", " ++ err.display ++ ">"
  | .function s => displayFunction s.isAsync s.generics (displayParams s.params) s.result.display
  | .placeholder name => name
termination_by structural t => t

/-- Types separated by commas. -/
def displayList : List Ty → String
  | [] => ""
  | [t] => t.display
  | t :: rest => t.display ++ ", " ++ displayList rest
termination_by structural ts => ts

/-- Record items separated by commas. -/
def displayItems : List (String × Ty) → String
  | [] => ""
  | [(name, t)] => name ++ " : " ++ t.display
  | (name, t) :: rest => name ++ " : " ++ t.display ++ ", " ++ displayItems rest
termination_by structural ts => ts

/-- The types of parameters, separated by commas. -/
def displayParams : List (Param Ty) → String
  | [] => ""
  | [p] => p.ty.display
  | p :: rest => p.ty.display ++ ", " ++ displayParams rest
termination_by structural ps => ps
end

/-- The text of a type without the module it belongs to. -/
def localName : Ty → String
  | .named q => q.name
  | .applied base args => base.name ++ "<" ++ displayList args ++ ">"
  | .record (some q) _ => q.name
  | t => t.display

end Ty

end ScriptCheck
