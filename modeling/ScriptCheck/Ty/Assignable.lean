import ScriptCheck.Symbols.Basic

/-!
# Assignability

Whether a value of one type may be stored where another type is expected. `Ty.unknown` and open
placeholders go with everything. Library types may accept further types, records are compared by
field names, function types are contravariant in their parameters, and a function type whose result
is `Unit` accepts every result.

A struct that meets an anonymous record is replaced by its fields, so the comparison does not
descend into its arguments alone and may come back to a question that is still open. `accepts?`
therefore bounds the number of nested questions and gives no verdict when the bound is reached.
All questions are about parts of the two types and of the struct fields, so that a comparison with
`questionBound` nested questions has asked one of them twice and has no end. `accepts` counts it as
a refusal, so what it says is to be relied on only where `verdict?` gives an answer.
-/

namespace ScriptCheck

namespace Ty

/-- Whether every type of one list stands in the relation to its partner in the other. -/
def allPairs (ask : Ty → Ty → Option Bool) : List Ty → List Ty → Option Bool
  | a :: as, b :: bs => do if ← ask a b then allPairs ask as bs else return false
  | _, _ => some true

/-- Whether every field has a partner of the same name among `items` that stands in the relation. -/
def covers (ask : Ty → Ty → Option Bool) (items : List (String × Ty)) :
    List (String × Ty) → Option Bool
  | [] => some true
  | (name, ty) :: rest =>
    match findItem? name items with
    | none => some false
    | some actual => do if ← ask ty actual then covers ask items rest else return false

end Ty

namespace Symbols

/-- Whether the description of a library type accepts `other`. -/
def coerces (s : Symbols) (target other : Ty) : Bool :=
  match s.registry.infoOf? target with
  | none => false
  | some info =>
    info.assignableFromAny ||
      info.assignableFrom.any fun source => source.resolve s.registry {} == other

/-- The fields of a struct; a struct of another module has those that its type lists. -/
def fieldsOf (s : Symbols) (name : QName) (items : List (String × Ty)) : List (String × Ty) :=
  match s.struct? name with
  | some info => info.fields
  | none => items

/-- Whether `target` accepts `other`, with at most `bound` nested questions. -/
def accepts? (s : Symbols) : (bound : Nat) → (target other : Ty) → Option Bool
  | 0, _, _ => none
  | bound + 1, target, other =>
    let ask := s.accepts? bound
    if target.isOpen || other.isOpen || s.coerces target other then some true
    else
      match target, other with
      | .named a, .named b => some (a == b)
      | .named a, .applied b _ => some (a == b)
      | .applied a _, .named b => some (a == b)
      | .applied a as, .applied b bs =>
        if a = b ∧ as.length = bs.length then Ty.allPairs ask as bs else some false
      | .array a, .array b => ask a b
      | .option a, .option b => ask a b
      | .result a c, .result b d => do if ← ask a b then ask c d else return false
      | .tuple as, .tuple bs =>
        if as.length = bs.length then Ty.allPairs ask as bs else some false
      | .record (some a) _, .record (some b) _ => some (a == b)
      | .record (some a) items, .record none others => Ty.covers ask others (s.fieldsOf a items)
      | .record none items, .record _ others => Ty.covers ask others items
      | .function f, .function g =>
        if f.params.length = g.params.length then do
          if ← Ty.allPairs ask (g.params.map Param.ty) (f.params.map Param.ty) then
            if f.result.isUnit then return true else ask f.result g.result
          else return false
        else some false
      | _, _ => some false

/-- The size of all struct fields. -/
def fieldSize (s : Symbols) : Nat :=
  s.structs.entries.foldr (fun (_, info) n => Ty.sizeItems info.fields + n) 0

/-- The number of different questions that a comparison of two types can lead to. -/
def questionBound (s : Symbols) (target other : Ty) : Nat :=
  let parts := target.size + other.size + s.fieldSize
  parts * parts + 1

/-- Whether a value of type `other` may be stored where `target` is expected, if the comparison has
an end. -/
def verdict? (s : Symbols) (target other : Ty) : Option Bool :=
  s.accepts? (s.questionBound target other) target other

/-- Whether a value of type `other` may be stored where `target` is expected. -/
def accepts (s : Symbols) (target other : Ty) : Bool := (s.verdict? target other).getD false

end Symbols

end ScriptCheck
