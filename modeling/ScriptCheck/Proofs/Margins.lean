import ScriptCheck.Proofs.Occurrences

/-!
# Margins

Complaints and tokens are put at ranges of a script. `Margins` say where they may be, and
`Margins.CoversItem` says that an item stands within them, with all names, annotations and
expressions inside of it.
-/

namespace ScriptCheck

/-- Where a check may complain, and where it may put tokens. -/
structure Margins where
  spots : Range → Prop
  marks : Range → Prop
  marks_of_spots {r : Range} : spots r → marks r

/-- Margins without a bound. -/
def Margins.wide : Margins := ⟨fun _ => True, fun _ => True, id⟩

variable {W : Margins}

/-! ## Annotations -/

/-- An annotation stands within the margins, with all annotations inside of it. -/
def Margins.CoversSpec (W : Margins) (spec : TypeSpec) : Prop :=
  ∀ node ∈ spec.nodes, W.spots node.range ∧ ∀ head ∈ node.head, W.marks head.name.range

theorem Margins.coversSpec_iff (spec : TypeSpec) :
    W.CoversSpec spec ↔ (W.spots spec.range ∧ ∀ head ∈ spec.head, W.marks head.name.range) ∧
      ∀ child ∈ spec.children, W.CoversSpec child := by
  simp only [CoversSpec, spec.nodes_eq, List.forall_mem_cons, List.mem_flatMap]
  grind

/-! ## Expressions -/

/-- The names directly in an expression. -/
def Expr.idents : Expr → List Ident
  | .var _ module name | .call _ module name _ _ => name :: module.toList
  | .methodCall _ _ name _ | .field _ _ name | .assign _ name _ _ | .fieldAssign _ _ name _ _ =>
    [name]
  | .declare _ _ binding _ _ | .forLoop _ binding _ _ => binding.names
  | .lambda _ params _ => params.map LambdaParam.name
  | .record _ items => items.map Prod.fst
  | .int .. | .float .. | .bool .. | .string .. | .index .. | .unary .. | .binary .. | .block ..
  | .ifThen .. | .whileLoop .. | .breakLoop .. | .continueLoop .. | .returnValue .. | .array ..
  | .tuple .. | .interval .. | .bracket .. => []

/-- What stands directly in an expression is within the margins. -/
structure Margins.CoversNode (W : Margins) (e : Expr) : Prop where
  range : W.spots e.range
  idents : ∀ name ∈ e.idents, W.spots name.range
  annotations : ∀ spec ∈ e.annotations, W.CoversSpec spec

/-- An expression stands within the margins, with all that is inside of it. -/
def Margins.Covers (W : Margins) (e : Expr) : Prop := ∀ node ∈ e.nodes, W.CoversNode node

theorem Margins.covers_iff (e : Expr) :
    W.Covers e ↔ W.CoversNode e ∧ ∀ child ∈ e.children, W.Covers child := by
  simp only [Covers, e.nodes_eq, List.forall_mem_cons, List.mem_flatMap]
  exact and_congr_right fun _ => ⟨fun h x hx node hnode => h node ⟨x, hx, hnode⟩,
    fun h node ⟨x, hx, hnode⟩ => h x hx node hnode⟩

namespace Expr

theorem lastRange_eq (range : Range) : (es : List Expr) →
    lastRange range es = range ∨ ∃ e ∈ es, lastRange range es = e.resultRange
  | [] => .inl rfl
  | [e] => .inr ⟨e, List.mem_singleton_self e, rfl⟩
  | _ :: second :: rest =>
    (lastRange_eq range (second :: rest)).imp_right fun ⟨e, he, hrange⟩ =>
      ⟨e, List.mem_cons_of_mem _ he, hrange⟩

/-- The range of the result is that of an expression inside. -/
theorem exists_resultRange (e : Expr) : ∃ node ∈ e.nodes, e.resultRange = node.range := by
  induction e using children_induction with
  | h e ih =>
  have hhere : ∃ node ∈ e.nodes, e.range = node.range := by
    rw [nodes_eq]
    exact ⟨e, List.mem_cons_self, rfl⟩
  cases e with
  | block range expressions =>
    rw [resultRange]
    obtain hdefault | ⟨e, he, hlast⟩ := lastRange_eq range expressions
    · rw [hdefault]
      exact hhere
    · obtain ⟨node, hnode, hrange⟩ := ih e he
      refine ⟨node, ?_, hlast.trans hrange⟩
      rw [nodes_eq]
      exact List.mem_cons_of_mem _ (List.mem_flatMap.2 ⟨e, he, hnode⟩)
  | _ => exact hhere

end Expr

theorem Margins.Covers.resultRange {e : Expr} (h : W.Covers e) : W.spots e.resultRange := by
  obtain ⟨node, hnode, hrange⟩ := e.exists_resultRange
  exact hrange ▸ (h node hnode).range

/-! ## Items -/

/-- The names that an import brings in. -/
def Import.idents : Import → List Ident
  | .module shortName => shortName.toList
  | .names listed => listed
  | .all => []

/-- The names of a function and of its parameters. -/
def FunctionDecl.idents (decl : FunctionDecl) : List Ident :=
  decl.name :: decl.params.map ParamDecl.name

/-- The names directly in an item. -/
def Item.idents : Item → List Ident
  | .use decl => decl.module :: decl.imports.idents
  | .const decl => [decl.name]
  | .function decl => decl.idents
  | .struct decl => decl.name :: decl.fields.map FieldDecl.name
  | .typeAlias decl => [decl.name]
  | .methods block | .operators block => block.name :: block.functions.flatMap FunctionDecl.idents

/-- An item stands within the margins, with all that is inside of it. -/
structure Margins.CoversItem (W : Margins) (x : Item) : Prop where
  idents : ∀ name ∈ x.idents, W.spots name.range
  annotations : ∀ spec ∈ x.annotations, W.CoversSpec spec
  expressions : ∀ e ∈ x.expressions, W.Covers e

namespace Margins

theorem wide_coversSpec (spec : TypeSpec) : wide.CoversSpec spec :=
  fun _ _ => ⟨trivial, fun _ _ => trivial⟩

theorem wide_covers (e : Expr) : wide.Covers e :=
  fun _ _ => ⟨trivial, fun _ _ => trivial, fun spec _ => wide_coversSpec spec⟩

theorem wide_coversItem (x : Item) : wide.CoversItem x :=
  ⟨fun _ _ => trivial, fun spec _ => wide_coversSpec spec, fun e _ => wide_covers e⟩

end Margins

end ScriptCheck
