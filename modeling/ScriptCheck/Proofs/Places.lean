import ScriptCheck.Report.Diagnostic
import ScriptCheck.Script.Item

/-!
# Misplaced jumps

Whether a jump has something to jump out of can be read off its place in the syntax tree: `break`
and `continue` belong into the body of a loop, and `return` into the body of a function. A lambda is
a function, and a loop around it does not count inside of it. Conditions and sources of loops stand
outside of the loop, default values and constants outside of every function. `Script.misplaced`
lists the complaints about all other jumps, from left to right.
-/

namespace ScriptCheck

/-- What a scope inside of another one belongs to. -/
inductive Nesting where
  | block
  | loop
  | function

/-- Where an expression stands: in the body of a loop of its function, and in a function at all. -/
structure Place where
  inLoop : Bool
  inFunction : Bool

namespace Place

/-- Outside of loops and functions. -/
def outside : Place := ⟨false, false⟩

/-- What stands inside of a block, loop or function at the given place. -/
def inside (p : Place) : Nesting → Place
  | .block => p
  | .loop => { p with inLoop := true }
  | .function => ⟨false, true⟩

/-- Whether there is something to jump out of. -/
def allows (p : Place) : Jump → Bool
  | .breakLoop | .continueLoop => p.inLoop
  | .returnValue => p.inFunction

/-- The complaint about a jump, if it has nothing to jump out of. -/
def complaint (p : Place) (jump : Jump) (range : Range) : List Diagnostic :=
  if p.allows jump then [] else [⟨.error, .misplaced jump, range⟩]

end Place

namespace Expr

mutual
/-- The complaints about jumps in an expression that stands at the given place, from left to
right. -/
def misplaced : Expr → Place → List Diagnostic
  | .int .., _ | .float .., _ | .bool .., _ | .string .., _ | .var .., _ => []
  | .call _ _ _ _ args, p => misplacedInList args p
  | .methodCall _ target _ args, p => target.misplaced p ++ misplacedInList args p
  | .field _ target _, p => target.misplaced p
  | .index _ target position, p => target.misplaced p ++ position.misplaced p
  | .unary _ _ operand, p => operand.misplaced p
  | .binary _ left _ right, p => left.misplaced p ++ right.misplaced p
  | .block _ expressions, p => misplacedInList expressions p
  | .declare _ _ _ _ value, p => value.misplaced p
  | .assign _ _ _ value, p => value.misplaced p
  | .fieldAssign _ target _ _ value, p => target.misplaced p ++ value.misplaced p
  | .ifThen _ condition thenBranch elseBranch, p =>
    condition.misplaced p ++ (thenBranch.misplaced p ++ misplaced? elseBranch p)
  | .whileLoop _ condition body, p => condition.misplaced p ++ body.misplaced (p.inside .loop)
  | .forLoop _ _ source body, p => source.misplaced p ++ body.misplaced (p.inside .loop)
  | .breakLoop r, p => p.complaint .breakLoop r
  | .continueLoop r, p => p.complaint .continueLoop r
  | .returnValue r value, p => p.complaint .returnValue r ++ misplaced? value p
  | .lambda _ _ body, p => body.misplaced (p.inside .function)
  | .array _ elements, p => misplacedInList elements p
  | .tuple _ items, p => misplacedInList items p
  | .record _ items, p => misplacedInItems items p
  | .interval _ low high _, p => low.misplaced p ++ high.misplaced p
  | .bracket _ inner, p => inner.misplaced p

/-- The complaints about jumps in the expressions of a list. -/
def misplacedInList : List Expr → Place → List Diagnostic
  | [], _ => []
  | e :: rest, p => e.misplaced p ++ misplacedInList rest p

/-- The complaints about jumps in the values of record items. -/
def misplacedInItems : List (Ident × Expr) → Place → List Diagnostic
  | [], _ => []
  | (_, e) :: rest, p => e.misplaced p ++ misplacedInItems rest p

/-- The complaints about jumps in an expression that may be missing. -/
def misplaced? : Option Expr → Place → List Diagnostic
  | none, _ => []
  | some e, p => e.misplaced p
end

end Expr

/-- The complaints about jumps in the default values and the body of a function. -/
def FunctionDecl.misplaced (decl : FunctionDecl) : List Diagnostic :=
  (decl.params.flatMap fun param => Expr.misplaced? param.default .outside) ++
    decl.body.misplaced (Place.outside.inside .function)

/-- The complaints about jumps in an item. -/
def Item.misplaced : Item → List Diagnostic
  | .const decl => decl.value.misplaced .outside
  | .function decl => decl.misplaced
  | .struct decl => decl.fields.flatMap fun field => Expr.misplaced? field.default .outside
  | .methods decl | .operators decl => decl.functions.flatMap FunctionDecl.misplaced
  | .use _ | .typeAlias _ => []

/-- The complaints about jumps in a script. -/
def Script.misplaced (script : Script) : List Diagnostic := script.items.flatMap Item.misplaced

end ScriptCheck
