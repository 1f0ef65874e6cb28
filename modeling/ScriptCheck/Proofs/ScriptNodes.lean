import Mathlib.Data.List.Basic
import ScriptCheck.Script.Item

/-!
# The nodes of annotations and expressions

`children` lists what stands directly below a node of a script and `nodes` all nodes of the same
kind inside it, the node itself first. A statement about every node can thus be made node by node
(`nodes_eq`), and it is proved by induction over the children (`children_induction`).
-/

namespace ScriptCheck

/-! ## Annotations -/

namespace TypeSpec

/-- The annotations directly below an annotation. -/
def children : TypeSpec → List TypeSpec
  | .named _ _ _ args => args
  | .array _ element => [element]
  | .option _ inner => [inner]
  | .result _ ok err => [ok, err]
  | .tuple _ items => items
  | .record _ items => items.map Prod.snd
  | .function _ _ params ret => params ++ [ret]

mutual
/-- All annotations inside an annotation, itself first. -/
def nodes : TypeSpec → List TypeSpec
  | .named r scope name args => .named r scope name args :: nodesList args
  | .array r element => .array r element :: element.nodes
  | .option r inner => .option r inner :: inner.nodes
  | .result r ok err => .result r ok err :: (ok.nodes ++ err.nodes)
  | .tuple r items => .tuple r items :: nodesList items
  | .record r items => .record r items :: nodesItems items
  | .function r isAsync params ret =>
    .function r isAsync params ret :: (nodesList params ++ ret.nodes)

/-- All annotations inside the annotations of a list. -/
def nodesList : List TypeSpec → List TypeSpec
  | [] => []
  | spec :: rest => spec.nodes ++ nodesList rest

/-- All annotations inside the items of a record annotation. -/
def nodesItems : List (String × TypeSpec) → List TypeSpec
  | [] => []
  | (_, spec) :: rest => spec.nodes ++ nodesItems rest
end

theorem nodesList_eq (specs : List TypeSpec) : nodesList specs = specs.flatMap nodes := by
  induction specs with
  | nil => rfl
  | cons spec rest ih => rw [nodesList, ih, List.flatMap_cons]

theorem nodesItems_eq (items : List (String × TypeSpec)) :
    nodesItems items = (items.map Prod.snd).flatMap nodes := by
  induction items with
  | nil => rfl
  | cons item rest ih => rw [nodesItems, ih, List.map_cons, List.flatMap_cons]

theorem nodes_eq (spec : TypeSpec) : spec.nodes = spec :: spec.children.flatMap nodes := by
  cases spec <;> simp [nodes, children, nodesList_eq, nodesItems_eq]

theorem length_nodes_lt {spec child : TypeSpec} (h : child ∈ spec.children) :
    child.nodes.length < spec.nodes.length := by
  rw [nodes_eq spec, List.length_cons, Nat.lt_succ_iff]
  exact (List.sublist_flatten_of_mem (List.mem_map_of_mem h)).length_le

/-- What holds of an annotation whenever it holds of its children holds of all annotations. -/
theorem children_induction {P : TypeSpec → Prop} (h : ∀ spec, (∀ c ∈ spec.children, P c) → P spec)
    (spec : TypeSpec) : P spec :=
  h spec fun c hc =>
    have := length_nodes_lt hc
    children_induction h c
termination_by spec.nodes.length

end TypeSpec

/-! ## Expressions -/

namespace Expr

/-- The expressions directly below an expression. -/
def children : Expr → List Expr
  | .int .. | .float .. | .bool .. | .string .. | .var .. | .breakLoop _ | .continueLoop _ => []
  | .call _ _ _ _ args => args
  | .methodCall _ target _ args => target :: args
  | .field _ target _ => [target]
  | .index _ target position => [target, position]
  | .unary _ _ operand => [operand]
  | .binary _ left _ right => [left, right]
  | .block _ expressions => expressions
  | .declare _ _ _ _ value => [value]
  | .assign _ _ _ value => [value]
  | .fieldAssign _ target _ _ value => [target, value]
  | .ifThen _ condition thenBranch elseBranch => condition :: thenBranch :: elseBranch.toList
  | .whileLoop _ condition body => [condition, body]
  | .forLoop _ _ source body => [source, body]
  | .returnValue _ value => value.toList
  | .lambda _ _ body => [body]
  | .array _ elements => elements
  | .tuple _ items => items
  | .record _ items => items.map Prod.snd
  | .interval _ low high _ => [low, high]
  | .bracket _ inner => [inner]

mutual
/-- All expressions inside an expression, itself first. -/
def nodes (e : Expr) : List Expr :=
  e :: match e with
    | .int .. | .float .. | .bool .. | .string .. | .var .. | .breakLoop _ | .continueLoop _ => []
    | .call _ _ _ _ args => nodesList args
    | .methodCall _ target _ args => target.nodes ++ nodesList args
    | .field _ target _ => target.nodes
    | .index _ target position => target.nodes ++ position.nodes
    | .unary _ _ operand => operand.nodes
    | .binary _ left _ right => left.nodes ++ right.nodes
    | .block _ expressions => nodesList expressions
    | .declare _ _ _ _ value => value.nodes
    | .assign _ _ _ value => value.nodes
    | .fieldAssign _ target _ _ value => target.nodes ++ value.nodes
    | .ifThen _ condition thenBranch elseBranch =>
      condition.nodes ++ (thenBranch.nodes ++ nodes? elseBranch)
    | .whileLoop _ condition body => condition.nodes ++ body.nodes
    | .forLoop _ _ source body => source.nodes ++ body.nodes
    | .returnValue _ value => nodes? value
    | .lambda _ _ body => body.nodes
    | .array _ elements => nodesList elements
    | .tuple _ items => nodesList items
    | .record _ items => nodesItems items
    | .interval _ low high _ => low.nodes ++ high.nodes
    | .bracket _ inner => inner.nodes

/-- All expressions inside the expressions of a list. -/
def nodesList : List Expr → List Expr
  | [] => []
  | e :: rest => e.nodes ++ nodesList rest

/-- All expressions inside the items of a record. -/
def nodesItems : List (Ident × Expr) → List Expr
  | [] => []
  | (_, e) :: rest => e.nodes ++ nodesItems rest

/-- All expressions inside an expression that may be missing. -/
def nodes? : Option Expr → List Expr
  | none => []
  | some e => e.nodes
end

theorem nodesList_eq (es : List Expr) : nodesList es = es.flatMap nodes := by
  induction es with
  | nil => rfl
  | cons e rest ih => rw [nodesList, ih, List.flatMap_cons]

theorem nodesItems_eq (items : List (Ident × Expr)) :
    nodesItems items = (items.map Prod.snd).flatMap nodes := by
  induction items with
  | nil => rfl
  | cons item rest ih => rw [nodesItems, ih, List.map_cons, List.flatMap_cons]

theorem nodes?_eq (e : Option Expr) : nodes? e = e.toList.flatMap nodes := by
  cases e <;> simp [nodes?]

theorem nodes_eq (e : Expr) : e.nodes = e :: e.children.flatMap nodes := by
  cases e <;> simp [nodes, children, nodesList_eq, nodesItems_eq, nodes?_eq]

theorem length_nodes_lt {e child : Expr} (h : child ∈ e.children) :
    child.nodes.length < e.nodes.length := by
  rw [nodes_eq e, List.length_cons, Nat.lt_succ_iff]
  exact (List.sublist_flatten_of_mem (List.mem_map_of_mem h)).length_le

/-- What holds of an expression whenever it holds of its children holds of all expressions. -/
theorem children_induction {P : Expr → Prop} (h : ∀ e, (∀ c ∈ e.children, P c) → P e) (e : Expr) :
    P e :=
  h e fun c hc =>
    have := length_nodes_lt hc
    children_induction h c
termination_by e.nodes.length

end Expr

end ScriptCheck
