import ScriptCheck.Proofs.Occurrences

/-!
# Mentions

The modules that annotations and expressions name in front of `::`, and the names that stand for
themselves.
-/

namespace ScriptCheck

namespace TypeSpec

mutual
/-- The modules that an annotation names. -/
def modules : TypeSpec → List String
  | .named _ scope _ args => scope.toList ++ modulesOfList args
  | .array _ element => element.modules
  | .option _ inner => inner.modules
  | .result _ ok err => ok.modules ++ err.modules
  | .tuple _ items => modulesOfList items
  | .record _ items => modulesOfItems items
  | .function _ _ params ret => modulesOfList params ++ ret.modules

/-- The modules that the annotations of a list name. -/
def modulesOfList : List TypeSpec → List String
  | [] => []
  | spec :: rest => spec.modules ++ modulesOfList rest

/-- The modules that the annotations of record items name. -/
def modulesOfItems : List (String × TypeSpec) → List String
  | [] => []
  | (_, spec) :: rest => spec.modules ++ modulesOfItems rest
end

end TypeSpec

namespace Expr

mutual
/-- The modules that an expression names, in front of `::` or in an annotation. -/
def modules : Expr → List String
  | .int .. | .float .. | .bool .. | .string .. | .breakLoop _ | .continueLoop _ => []
  | .var _ scope _ => (scope.map Ident.name).toList
  | .call _ scope _ typeArgs args =>
    (scope.map Ident.name).toList ++ (TypeSpec.modulesOfList typeArgs ++ modulesOfList args)
  | .methodCall _ target _ args => target.modules ++ modulesOfList args
  | .field _ target _ => target.modules
  | .index _ target position => target.modules ++ position.modules
  | .unary _ _ operand => operand.modules
  | .binary _ left _ right => left.modules ++ right.modules
  | .block _ expressions => modulesOfList expressions
  | .declare _ _ _ type value => type.toList.flatMap TypeSpec.modules ++ value.modules
  | .assign _ _ _ value => value.modules
  | .fieldAssign _ target _ _ value => target.modules ++ value.modules
  | .ifThen _ condition thenBranch elseBranch =>
    condition.modules ++ (thenBranch.modules ++ modules? elseBranch)
  | .whileLoop _ condition body => condition.modules ++ body.modules
  | .forLoop _ _ source body => source.modules ++ body.modules
  | .returnValue _ value => modules? value
  | .lambda _ params body =>
    params.flatMap (fun p => p.type.toList.flatMap TypeSpec.modules) ++ body.modules
  | .array _ elements => modulesOfList elements
  | .tuple _ items => modulesOfList items
  | .record _ items => modulesOfItems items
  | .interval _ low high _ => low.modules ++ high.modules
  | .bracket _ inner => inner.modules

/-- The modules that the expressions of a list name. -/
def modulesOfList : List Expr → List String
  | [] => []
  | e :: rest => e.modules ++ modulesOfList rest

/-- The modules that the values of record items name. -/
def modulesOfItems : List (Ident × Expr) → List String
  | [] => []
  | (_, e) :: rest => e.modules ++ modulesOfItems rest

/-- The modules that an expression names which may be missing. -/
def modules? : Option Expr → List String
  | none => []
  | some e => e.modules
end

mutual
/-- The names without a module in front of them that an expression uses, calls or assigns to. -/
def mentions : Expr → List String
  | .int .. | .float .. | .bool .. | .string .. | .breakLoop _ | .continueLoop _ => []
  | .var _ scope name => if scope.isNone then [name.name] else []
  | .call _ scope name _ args => (if scope.isNone then [name.name] else []) ++ mentionsOfList args
  | .methodCall _ target _ args => target.mentions ++ mentionsOfList args
  | .field _ target _ => target.mentions
  | .index _ target position => target.mentions ++ position.mentions
  | .unary _ _ operand => operand.mentions
  | .binary _ left _ right => left.mentions ++ right.mentions
  | .block _ expressions => mentionsOfList expressions
  | .declare _ _ _ _ value => value.mentions
  | .assign _ name _ value => name.name :: value.mentions
  | .fieldAssign _ target _ _ value => target.mentions ++ value.mentions
  | .ifThen _ condition thenBranch elseBranch =>
    condition.mentions ++ (thenBranch.mentions ++ mentions? elseBranch)
  | .whileLoop _ condition body => condition.mentions ++ body.mentions
  | .forLoop _ _ source body => source.mentions ++ body.mentions
  | .returnValue _ value => mentions? value
  | .lambda _ _ body => body.mentions
  | .array _ elements => mentionsOfList elements
  | .tuple _ items => mentionsOfList items
  | .record _ items => mentionsOfItems items
  | .interval _ low high _ => low.mentions ++ high.mentions
  | .bracket _ inner => inner.mentions

/-- The names that the expressions of a list mention. -/
def mentionsOfList : List Expr → List String
  | [] => []
  | e :: rest => e.mentions ++ mentionsOfList rest

/-- The names that the values of record items mention. -/
def mentionsOfItems : List (Ident × Expr) → List String
  | [] => []
  | (_, e) :: rest => e.mentions ++ mentionsOfItems rest

/-- The names that an expression mentions which may be missing. -/
def mentions? : Option Expr → List String
  | none => []
  | some e => e.mentions
end

end Expr

/-! ## Items -/

/-- The modules that a function names. -/
def FunctionDecl.modules (decl : FunctionDecl) : List String :=
  decl.params.flatMap (fun p =>
      p.type.toList.flatMap TypeSpec.modules ++ Expr.modules? p.default) ++
    (decl.result.modules ++ decl.body.modules)

/-- The modules that an item imports from or names. -/
def Item.modules : Item → List String
  | .use decl => [decl.module.name]
  | .const decl => decl.type.toList.flatMap TypeSpec.modules ++ decl.value.modules
  | .function decl => decl.modules
  | .struct decl => decl.fields.flatMap fun f => f.type.modules ++ Expr.modules? f.default
  | .typeAlias decl => decl.type.modules
  | .methods decl | .operators decl => decl.functions.flatMap FunctionDecl.modules

/-- The modules that a script imports from or names. -/
def Script.modules (script : Script) : List String := script.items.flatMap Item.modules

/-! ## Parts of what is mentioned -/

namespace TypeSpec

theorem modulesOfList_eq : (specs : List TypeSpec) → modulesOfList specs = specs.flatMap modules
  | [] => rfl
  | spec :: rest => by rw [modulesOfList, modulesOfList_eq rest, List.flatMap_cons]

theorem modulesOfItems_eq : (items : List (String × TypeSpec)) →
    modulesOfItems items = (items.map Prod.snd).flatMap modules
  | [] => rfl
  | (_, spec) :: rest => by
    rw [modulesOfItems, modulesOfItems_eq rest, List.map_cons, List.flatMap_cons]

theorem modules_subset {spec child : TypeSpec} (h : child ∈ spec.children) :
    child.modules ⊆ spec.modules := by
  intro m hm
  cases spec <;> simp only [children, modules, modulesOfList_eq, modulesOfItems_eq,
    List.mem_append, List.mem_flatMap] at h ⊢ <;> grind

end TypeSpec

namespace Expr

theorem modulesOfList_eq : (es : List Expr) → modulesOfList es = es.flatMap modules
  | [] => rfl
  | e :: rest => by rw [modulesOfList, modulesOfList_eq rest, List.flatMap_cons]

theorem modulesOfItems_eq : (items : List (Ident × Expr)) →
    modulesOfItems items = (items.map Prod.snd).flatMap modules
  | [] => rfl
  | (_, e) :: rest => by
    rw [modulesOfItems, modulesOfItems_eq rest, List.map_cons, List.flatMap_cons]

theorem modules?_eq (e : Option Expr) : modules? e = e.toList.flatMap modules := by
  cases e <;> simp [modules?]

theorem mentionsOfList_eq : (es : List Expr) → mentionsOfList es = es.flatMap mentions
  | [] => rfl
  | e :: rest => by rw [mentionsOfList, mentionsOfList_eq rest, List.flatMap_cons]

theorem mentionsOfItems_eq : (items : List (Ident × Expr)) →
    mentionsOfItems items = (items.map Prod.snd).flatMap mentions
  | [] => rfl
  | (_, e) :: rest => by
    rw [mentionsOfItems, mentionsOfItems_eq rest, List.map_cons, List.flatMap_cons]

theorem mentions?_eq (e : Option Expr) : mentions? e = e.toList.flatMap mentions := by
  cases e <;> simp [mentions?]

theorem modules_subset {e child : Expr} (h : child ∈ e.children) : child.modules ⊆ e.modules := by
  intro m hm
  cases e <;> simp only [children, modules, modulesOfList_eq, modulesOfItems_eq, modules?_eq,
    List.mem_append, List.mem_flatMap] at h ⊢ <;> grind

theorem mentions_subset {e child : Expr} (h : child ∈ e.children) :
    child.mentions ⊆ e.mentions := by
  intro m hm
  cases e <;> simp only [children, mentions, mentionsOfList_eq, mentionsOfItems_eq, mentions?_eq,
    List.mem_append, List.mem_flatMap] at h ⊢ <;> grind

theorem modules_subset_of_annotation {e : Expr} {spec : TypeSpec} (h : spec ∈ e.annotations) :
    spec.modules ⊆ e.modules := by
  intro m hm
  cases e <;> simp only [annotations, modules, TypeSpec.modulesOfList_eq, List.mem_append,
    List.mem_flatMap] at h ⊢ <;> grind

end Expr

theorem Item.modules_subset_of_annotation {x : Item} {spec : TypeSpec} (h : spec ∈ x.annotations) :
    spec.modules ⊆ x.modules := by
  intro m hm
  cases x <;> simp only [annotations, FunctionDecl.annotations, functions, modules,
    FunctionDecl.modules, List.mem_append, List.mem_flatMap] at h ⊢ <;> grind

theorem Item.modules_subset_of_expression {x : Item} {e : Expr} (h : e ∈ x.expressions) :
    e.modules ⊆ x.modules := by
  intro m hm
  cases x <;> simp only [expressions, FunctionDecl.expressions, functions, modules,
    FunctionDecl.modules, Expr.modules?_eq, List.mem_append, List.mem_flatMap] at h ⊢ <;> grind

end ScriptCheck
