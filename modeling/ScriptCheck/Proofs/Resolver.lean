import Mathlib.Tactic.SplitIfs
import ScriptCheck.Report.Diagnostic
import ScriptCheck.Script.Item

/-!
# Resolving names without types

A walk over a script, from left to right, that knows nothing but names. It carries the names that
are visible and collects a complaint for each variable, assignment or call whose name is neither
among them nor known at module level.

* `let` binds its names after its value.
* Blocks, branches, loop bodies and the bodies of lambdas are environments of their own
  (`Resolve.nested`): they see the names around them, and theirs are forgotten at their end.
* Constants, the defaults of struct fields and functions start from an environment without names
  (`Resolve.isolated`). The defaults of the parameters of a function share one such environment, and
  the body has another one with the parameters in it.
-/

namespace ScriptCheck

/-- The names that are visible, and the complaints so far. -/
structure Resolver where
  names : List String := []
  found : List Diagnostic := []

/-- A computation that resolves names. -/
abbrev ResolveM := StateM Resolver

namespace Resolve

/-- Complains about a name that is neither visible nor known. -/
def use (known : String → Bool) (kind : SymbolKind) (name : Ident) : ResolveM Unit :=
  modify fun r =>
    if r.names.contains name.name || known name.name then r
    else { r with found := r.found ++ [⟨.error, .undefined kind name.name none, name.range⟩] }

/-- Makes names visible. -/
def bindNames : List Ident → ResolveM Unit
  | [] => pure ()
  | name :: rest => do
    modify fun r => { r with names := name.name :: r.names }
    bindNames rest

/-- Resolves in an environment of its own. -/
def nested (body : ResolveM Unit) : ResolveM Unit := do
  let names := (← get).names
  body
  modify fun r => { r with names }

/-- Resolves in an environment that sees no names around it. -/
def isolated (body : ResolveM Unit) : ResolveM Unit :=
  nested do
    modify fun r => { r with names := [] }
    body

end Resolve

/-- The names that a binding binds. -/
def Binding.names : Binding → List Ident
  | .single name => [name]
  | .tuple names => names

open Resolve

namespace Expr

mutual
/-- Resolves the names in an expression. -/
def resolve (known : String → Bool) : Expr → ResolveM Unit
  | .int _ _ | .float _ _ | .bool _ _ | .string _ _ | .breakLoop _ | .continueLoop _ => pure ()
  | .var _ module name =>
    match module with
    | none => use known .var name
    | some _ => pure ()
  | .call _ module name _ args => do
    match module with
    | none => use known .function name
    | some _ => pure ()
    resolveList known args
  | .methodCall _ target _ args => do
    target.resolve known
    resolveList known args
  | .field _ target _ => target.resolve known
  | .index _ target position => do
    target.resolve known
    position.resolve known
  | .unary _ _ operand => operand.resolve known
  | .binary _ left _ right => do
    left.resolve known
    right.resolve known
  | .block _ expressions => nested (resolveList known expressions)
  | .declare _ _ binding _ value => do
    value.resolve known
    bindNames binding.names
  | .assign _ name _ value => do
    use known .var name
    value.resolve known
  | .fieldAssign _ target _ _ value => do
    target.resolve known
    value.resolve known
  | .ifThen _ condition thenBranch elseBranch => do
    condition.resolve known
    nested (thenBranch.resolve known)
    nested (resolve? known elseBranch)
  | .whileLoop _ condition body => do
    condition.resolve known
    nested (body.resolve known)
  | .forLoop _ binding source body => do
    source.resolve known
    nested do
      bindNames binding.names
      body.resolve known
  | .returnValue _ value => resolve? known value
  | .lambda _ params body =>
    nested do
      bindNames (params.map LambdaParam.name)
      body.resolve known
  | .array _ elements => resolveList known elements
  | .tuple _ items => resolveList known items
  | .record _ items => resolveItems known items
  | .interval _ low high _ => do
    low.resolve known
    high.resolve known
  | .bracket _ inner => inner.resolve known

/-- Resolves expressions one after the other. -/
def resolveList (known : String → Bool) : List Expr → ResolveM Unit
  | [] => pure ()
  | e :: rest => do
    e.resolve known
    resolveList known rest

/-- Resolves the items of a record. -/
def resolveItems (known : String → Bool) : List (Ident × Expr) → ResolveM Unit
  | [] => pure ()
  | (_, e) :: rest => do
    e.resolve known
    resolveItems known rest

/-- Resolves an expression that may be missing. -/
def resolve? (known : String → Bool) : Option Expr → ResolveM Unit
  | none => pure ()
  | some e => e.resolve known
end

end Expr

namespace Resolve

/-- Resolves the default values of parameters. -/
def defaults (known : String → Bool) : List ParamDecl → ResolveM Unit
  | [] => pure ()
  | param :: rest => do
    Expr.resolve? known param.default
    defaults known rest

/-- Resolves a function. -/
def function (known : String → Bool) (decl : FunctionDecl) : ResolveM Unit := do
  isolated (defaults known decl.params)
  isolated do
    bindNames (decl.params.map ParamDecl.name)
    decl.body.resolve known

/-- Resolves functions one after the other. -/
def functions (known : String → Bool) : List FunctionDecl → ResolveM Unit
  | [] => pure ()
  | decl :: rest => do
    function known decl
    functions known rest

/-- Resolves the default values of the fields of a struct. -/
def structFields (known : String → Bool) : List FieldDecl → ResolveM Unit
  | [] => pure ()
  | decl :: rest => do
    isolated (Expr.resolve? known decl.default)
    structFields known rest

/-- Resolves an item. -/
def item (known : String → Bool) : Item → ResolveM Unit
  | .const decl => isolated (decl.value.resolve known)
  | .function decl => function known decl
  | .struct decl => structFields known decl.fields
  | .methods decl | .operators decl => functions known decl.functions
  | .use _ | .typeAlias _ => pure ()

/-- Resolves items one after the other. -/
def items (known : String → Bool) : List Item → ResolveM Unit
  | [] => pure ()
  | first :: rest => do
    item known first
    items known rest

end Resolve

/-- The complaints about the names of a script, given the names known at module level. -/
def Script.unbound (known : String → Bool) (script : Script) : List Diagnostic :=
  ((Resolve.items known script.items).run {}).2.found

/-- The constructor functions that every script has. -/
def constructorNames : List String := ["Some", "None", "Ok", "Err", "Cell", "ArrayBuilder"]

/-- Whether a name is that of a constructor function does not depend on the hint. -/
theorem isSome_constructor? (name : String) (expected : Option Ty) :
    (constructor? name expected).isSome = constructorNames.contains name := by
  unfold constructor?
  dsimp only
  split_ifs with h₁ h₂ h₃ h₄ h₅ h₆
  · subst h₁
    split <;> rfl
  · subst h₂
    split <;> rfl
  · subst h₃
    split <;> rfl
  · subst h₄
    split <;> rfl
  · subst h₅
    split <;> rfl
  · subst h₆
    split <;> rfl
  · simp [constructorNames, *]

/-- Whether a plain name stands for a constant, a function or a constructor function. -/
def Symbols.knows (s : Symbols) (name : String) : Bool :=
  s.constants.contains name || s.functions.contains name || constructorNames.contains name

/-! ## Calls without lambdas -/

namespace Expr

mutual
/-- No argument of a call or method call in the expression is a lambda. -/
def plainCalls : Expr → Bool
  | .int _ _ | .float _ _ | .bool _ _ | .string _ _ | .breakLoop _ | .continueLoop _
  | .var _ _ _ => true
  | .call _ _ _ _ args => args.all (fun arg => !arg.isLambda) && plainCallsList args
  | .methodCall _ target _ args =>
    target.plainCalls && args.all (fun arg => !arg.isLambda) && plainCallsList args
  | .field _ target _ => target.plainCalls
  | .index _ target position => target.plainCalls && position.plainCalls
  | .unary _ _ operand => operand.plainCalls
  | .binary _ left _ right => left.plainCalls && right.plainCalls
  | .block _ expressions => plainCallsList expressions
  | .declare _ _ _ _ value => value.plainCalls
  | .assign _ _ _ value => value.plainCalls
  | .fieldAssign _ target _ _ value => target.plainCalls && value.plainCalls
  | .ifThen _ condition thenBranch elseBranch =>
    condition.plainCalls && thenBranch.plainCalls && plainCalls? elseBranch
  | .whileLoop _ condition body => condition.plainCalls && body.plainCalls
  | .forLoop _ _ source body => source.plainCalls && body.plainCalls
  | .returnValue _ value => plainCalls? value
  | .lambda _ _ body => body.plainCalls
  | .array _ elements => plainCallsList elements
  | .tuple _ items => plainCallsList items
  | .record _ items => plainCallsItems items
  | .interval _ low high _ => low.plainCalls && high.plainCalls
  | .bracket _ inner => inner.plainCalls

/-- The same for all expressions of a list. -/
def plainCallsList : List Expr → Bool
  | [] => true
  | e :: rest => e.plainCalls && plainCallsList rest

/-- The same for all items of a record. -/
def plainCallsItems : List (Ident × Expr) → Bool
  | [] => true
  | (_, e) :: rest => e.plainCalls && plainCallsItems rest

/-- The same for an expression that may be missing. -/
def plainCalls? : Option Expr → Bool
  | none => true
  | some e => e.plainCalls
end

end Expr

/-- The same for the default values and the body of a function. -/
def FunctionDecl.plainCalls (decl : FunctionDecl) : Bool :=
  decl.params.all (fun param => Expr.plainCalls? param.default) && decl.body.plainCalls

/-- The same for all expressions of an item. -/
def Item.plainCalls : Item → Bool
  | .const decl => decl.value.plainCalls
  | .function decl => decl.plainCalls
  | .struct decl => decl.fields.all fun field => Expr.plainCalls? field.default
  | .methods decl | .operators decl => decl.functions.all FunctionDecl.plainCalls
  | .use _ | .typeAlias _ => true

end ScriptCheck
