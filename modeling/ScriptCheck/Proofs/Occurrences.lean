import ScriptCheck.Proofs.Resolver
import ScriptCheck.Proofs.ScriptNodes

/-!
# Names in a script

A name stands in a script either to declare something or to refer to something. `Script.declares`
lists the declarations: constants, functions, structs, type aliases, fields, methods, parameters and
what `let`, `for` and lambdas bind. `Script.uses` lists the names that refer to one of them without
a module in front: in expressions, at the head of type annotations and of `impl` blocks.

Names live in name spaces. A struct declares its name twice, as a type and as its constructor.
-/

namespace ScriptCheck

/-- What a name can be given to. -/
inductive NameSpace where
  /-- Constants, functions, parameters and local variables. -/
  | value
  /-- Structs and type aliases. -/
  | type
  /-- Fields and methods. -/
  | member
deriving DecidableEq

/-- A name at its place in a script. -/
structure Occurrence where
  space : NameSpace
  name : Ident
deriving DecidableEq

/-! ## Annotations -/

namespace TypeSpec

/-- The name at the head of an annotation. If arguments follow it, its place is the one that the
check computes by `Range.leading`. Characters are counted like bytes there, so that for a name with
non-ASCII letters the place ends at a wrong character. -/
def head : TypeSpec → List Occurrence
  | .named range none name args =>
    [⟨.type, name, if args.isEmpty then range else range.leading name.utf8ByteSize⟩]
  | _ => []

/-- The names that an annotation uses. -/
def uses (spec : TypeSpec) : List Occurrence := spec.nodes.flatMap head

theorem uses_eq (spec : TypeSpec) : spec.uses = spec.head ++ spec.children.flatMap uses := by
  rw [uses, nodes_eq, List.flatMap_cons, List.flatMap_assoc]
  rfl

end TypeSpec

/-! ## Expressions -/

namespace Expr

/-- The annotations directly in an expression. -/
def annotations : Expr → List TypeSpec
  | .call _ _ _ typeArgs _ => typeArgs
  | .declare _ _ _ type _ => type.toList
  | .lambda _ params _ => params.flatMap fun p => p.type.toList
  | _ => []

/-- The names with which an expression itself refers to something. -/
def refers : Expr → List Occurrence
  | .var _ none name | .call _ none name _ _ | .assign _ name _ _ => [⟨.value, name⟩]
  | .methodCall _ _ name _ | .field _ _ name | .fieldAssign _ _ name _ _ => [⟨.member, name⟩]
  | _ => []

/-- The names that an expression itself binds. -/
def binds : Expr → List Ident
  | .declare _ _ binding _ _ | .forLoop _ binding _ _ => binding.names
  | .lambda _ params _ => params.map LambdaParam.name
  | _ => []

/-- The names that an expression uses, inside of it as well. -/
def uses (e : Expr) : List Occurrence :=
  e.nodes.flatMap fun node => node.refers ++ node.annotations.flatMap TypeSpec.uses

/-- The names that an expression declares, inside of it as well. -/
def declares (e : Expr) : List Occurrence :=
  e.nodes.flatMap fun node => node.binds.map (Occurrence.mk .value)

theorem uses_eq (e : Expr) :
    e.uses = (e.refers ++ e.annotations.flatMap TypeSpec.uses) ++ e.children.flatMap uses := by
  rw [uses, nodes_eq, List.flatMap_cons, List.flatMap_assoc]
  rfl

theorem declares_eq (e : Expr) :
    e.declares = e.binds.map (Occurrence.mk .value) ++ e.children.flatMap declares := by
  rw [declares, nodes_eq, List.flatMap_cons, List.flatMap_assoc]
  rfl

end Expr

/-! ## Items -/

namespace FunctionDecl

/-- The annotations of a function outside of its body. -/
def annotations (decl : FunctionDecl) : List TypeSpec :=
  decl.result :: decl.params.flatMap fun p => p.type.toList

/-- The body of a function and the default values of its parameters. -/
def expressions (decl : FunctionDecl) : List Expr :=
  decl.body :: decl.params.flatMap fun p => p.default.toList

/-- The parameters of a function as declarations. -/
def parameters (decl : FunctionDecl) : List Occurrence := decl.params.map fun p => ⟨.value, p.name⟩

end FunctionDecl

namespace Item

/-- The functions that an item declares. -/
def functions : Item → List FunctionDecl
  | .function decl => [decl]
  | .methods block | .operators block => block.functions
  | .use _ | .const _ | .struct _ | .typeAlias _ => []

/-- The annotations of an item outside of expressions. -/
def annotations (x : Item) : List TypeSpec :=
  match x with
  | .const decl => decl.type.toList
  | .struct decl => decl.fields.map FieldDecl.type
  | .typeAlias decl => [decl.type]
  | .use _ | .function _ | .methods _ | .operators _ => x.functions.flatMap FunctionDecl.annotations

/-- The outermost expressions of an item. -/
def expressions (x : Item) : List Expr :=
  match x with
  | .const decl => [decl.value]
  | .struct decl => decl.fields.flatMap fun f => f.default.toList
  | .use _ | .typeAlias _ | .function _ | .methods _ | .operators _ =>
    x.functions.flatMap FunctionDecl.expressions

/-- The struct that an `impl` block refers to. -/
def refers : Item → List Occurrence
  | .methods block | .operators block => [⟨.type, block.name⟩]
  | .use _ | .const _ | .function _ | .struct _ | .typeAlias _ => []

/-- The names that an item itself declares, without parameters. The functions of an `impl operators`
block have no names of their own. -/
def heads : Item → List Occurrence
  | .const decl => [⟨.value, decl.name⟩]
  | .function decl => [⟨.value, decl.name⟩]
  | .struct decl =>
    ⟨.type, decl.name⟩ :: ⟨.value, decl.name⟩ :: decl.fields.map fun f => ⟨.member, f.name⟩
  | .typeAlias decl => [⟨.type, decl.name⟩]
  | .methods block => block.functions.map fun f => ⟨.member, f.name⟩
  | .use _ | .operators _ => []

/-- The names that an item uses. -/
def uses (x : Item) : List Occurrence :=
  x.refers ++ x.annotations.flatMap TypeSpec.uses ++ x.expressions.flatMap Expr.uses

/-- The names that an item declares. -/
def declares (x : Item) : List Occurrence :=
  x.heads ++ x.functions.flatMap FunctionDecl.parameters ++ x.expressions.flatMap Expr.declares

end Item

namespace Script

/-- The names that a script uses. -/
def uses (script : Script) : List Occurrence := script.items.flatMap Item.uses

/-- The names that a script declares. -/
def declares (script : Script) : List Occurrence := script.items.flatMap Item.declares

end Script

end ScriptCheck
