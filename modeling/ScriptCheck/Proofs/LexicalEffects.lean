import Mathlib.Algebra.GroupWithZero.WithZero
import ScriptCheck.Proofs.DeclareSteps
import ScriptCheck.Proofs.ItemEffects

/-!
# Lexical effects

What an expression does to names and jumps can be read off its form, without types: names are
resolved by a walk (`Expr.resolve`), and whether a jump is misplaced depends on where it stands
(`Expr.misplaced`). Both together are an effect (`Lexical`). Lambdas that are arguments of a call
are the exception: whether and when they are checked depends on types, so they have the effect zero,
of which nothing is said. If there are none, `Expr.effect_eq` gives the effect of an expression.
-/

namespace ScriptCheck

open Effects (binds)

/-- What is done to names, and the complaints about jumps at a given place. -/
@[ext]
structure Lexical (known : String → Bool) where
  names : ResolveM Unit
  jumps : Place → List Diagnostic

namespace Lexical

variable {known : String → Bool}

instance : Monoid (Lexical known) where
  one := ⟨pure (), fun _ => []⟩
  mul a b := ⟨do a.names; b.names, fun p => a.jumps p ++ b.jumps p⟩
  mul_assoc _ _ _ := Lexical.ext rfl (funext fun _ => List.append_assoc ..)
  one_mul _ := rfl
  mul_one _ := Lexical.ext rfl (funext fun _ => List.append_nil _)

/-- A plain name is used. -/
def use (kind : SymbolKind) (name : Ident) : Lexical known :=
  ⟨Resolve.use known kind name, fun _ => []⟩

/-- Names are bound. -/
def bind (names : List Ident) : Lexical known := ⟨Resolve.bindNames names, fun _ => []⟩

def jump (jump : Jump) (range : Range) : Lexical known := ⟨pure (), fun p => p.complaint jump range⟩

/-- The effect of what stands in a scope of its own. -/
def nest (n : Nesting) (a : Lexical known) : Lexical known :=
  ⟨Resolve.nested a.names, fun p => a.jumps (p.inside n)⟩

instance : Effects (WithZero (Lexical known)) where
  use kind name := ↑(use kind name : Lexical known)
  bind name := ↑(bind [name] : Lexical known)
  jump j range := ↑(jump j range : Lexical known)
  mark _ := 1
  nest n := WithZero.recZeroCoe 0 fun a => ↑(a.nest n)
  hide _ := 0
  mark_mul _ g := by rw [one_mul, mul_one]
  nest_one _ := rfl
  hide_mul g h := by rw [zero_mul, mul_zero]

theorem binds_eq : (names : List Ident) →
    (binds names : WithZero (Lexical known)) = ↑(bind names : Lexical known)
  | [] => rfl
  | name :: rest => by
    have hcons : (binds (name :: rest) : WithZero (Lexical known)) =
        Effects.bind name * binds rest := List.prod_cons
    rw [hcons, binds_eq rest]
    rfl

theorem mark_eq (r : Range) : (Effects.mark r : WithZero (Lexical known)) = 1 := rfl

end Lexical

/-! ## Effects of expressions -/

namespace Expr

variable {known : String → Bool}

mutual
/-- The effect of an expression without lambdas among the arguments of its calls. -/
theorem effect_eq : (e : Expr) → e.plainCalls = true →
    (e.effect : WithZero (Lexical known)) = ↑(⟨e.resolve known, e.misplaced⟩ : Lexical known)
  | .int .., _ | .float .., _ | .bool .., _ | .string .., _ | .breakLoop _, _
  | .continueLoop _, _ => rfl
  | .var _ module _, _ => by cases module <;> rfl
  | .call _ module _ _ args, h => by
    obtain ⟨hplain, hargs⟩ := Bool.and_eq_true_iff.1 h
    rw [effect, effectOfArgs_eq args hplain hargs]
    cases module <;> rfl
  | .methodCall _ target _ args, h => by
    simp only [plainCalls, Bool.and_eq_true] at h
    rw [effect, effect_eq target h.1.1, effectOfArgs_eq args h.1.2 h.2]
    rfl
  | .field _ e _, h | .unary _ _ e, h | .assign _ _ _ e, h | .bracket _ e, h => by
    rw [effect, effect_eq e h]
    rfl
  | .index _ e f, h | .binary _ e _ f, h | .fieldAssign _ e _ _ f, h | .whileLoop _ e f, h
  | .interval _ e f _, h => by
    obtain ⟨he, hf⟩ := Bool.and_eq_true_iff.1 h
    rw [effect, effect_eq e he, effect_eq f hf]
    rfl
  | .block _ es, h | .array _ es, h | .tuple _ es, h => by
    rw [effect, effectOfList_eq es h]
    rfl
  | .declare _ _ binding _ value, h => by
    rw [effect, effect_eq value h, Lexical.binds_eq, ← WithZero.coe_mul, Lexical.mark_eq, one_mul]
    exact congrArg _ (Lexical.ext rfl (funext fun p => List.append_nil (value.misplaced p)))
  | .ifThen _ condition thenBranch elseBranch, h => by
    simp only [plainCalls, Bool.and_eq_true] at h
    rw [effect, effect_eq condition h.1.1, effect_eq thenBranch h.1.2, effect?_eq elseBranch h.2]
    rfl
  | .forLoop _ binding source body, h => by
    obtain ⟨hsource, hbody⟩ := Bool.and_eq_true_iff.1 h
    rw [effect, effect_eq source hsource, effect_eq body hbody, Lexical.binds_eq]
    rfl
  | .returnValue _ value, h => by
    rw [effect, effect?_eq value h]
    rfl
  | .lambda _ params body, h => by
    rw [effect, effect_eq body h, Lexical.binds_eq]
    rfl
  | .record _ items, h => by
    rw [effect, effectOfItems_eq items h]
    rfl

theorem effectOfList_eq : (es : List Expr) → plainCallsList es = true →
    (effectOfList es : WithZero (Lexical known)) =
      ↑(⟨resolveList known es, misplacedInList es⟩ : Lexical known)
  | [], _ => rfl
  | e :: rest, h => by
    obtain ⟨he, hrest⟩ := Bool.and_eq_true_iff.1 h
    rw [effectOfList, effect_eq e he, effectOfList_eq rest hrest]
    rfl

theorem effectOfArgs_eq : (es : List Expr) → es.all (fun arg => !arg.isLambda) = true →
    plainCallsList es = true → (effectOfArgs es : WithZero (Lexical known)) =
      ↑(⟨resolveList known es, misplacedInList es⟩ : Lexical known)
  | [], _, _ => rfl
  | e :: rest, hplain, h => by
    obtain ⟨he, hrest⟩ := Bool.and_eq_true_iff.1 h
    obtain ⟨hlambda, hplain⟩ := Bool.and_eq_true_iff.1 hplain
    rw [effectOfArgs, if_neg (by simpa using hlambda), effect_eq e he,
      effectOfArgs_eq rest hplain hrest]
    rfl

theorem effectOfItems_eq : (items : List (Ident × Expr)) → plainCallsItems items = true →
    (effectOfItems items : WithZero (Lexical known)) =
      ↑(⟨resolveItems known items, misplacedInItems items⟩ : Lexical known)
  | [], _ => rfl
  | (_, e) :: rest, h => by
    obtain ⟨he, hrest⟩ := Bool.and_eq_true_iff.1 h
    rw [effectOfItems, effect_eq e he, effectOfItems_eq rest hrest]
    rfl

theorem effect?_eq : (e : Option Expr) → plainCalls? e = true →
    (effect? e : WithZero (Lexical known)) =
      ↑(⟨resolve? known e, misplaced? e⟩ : Lexical known)
  | none, _ => rfl
  | some e, h => effect_eq e h
end

end Expr

/-! ## Regimes of lexical effects -/

/-- What the steps of a check do to its state, if their effect is known. -/
structure LexicalLaws {known : String → Bool}
    (Post : Nat → Lexical known → Checker → Checker → Prop) : Prop where
  refl (id c) : Post id 1 c c
  trans {id a b c d e} : Post id a c d → Post id b d e → Post id (a * b) c e
  write {entry : Report.Entry} (id) {c} : entry.isTyped = true → c.muted = 0 →
    Post id 1 c { c with report := c.report.add entry }
  use (kind : SymbolKind) (name : Ident) (id) {c} :
    (Problem.undefined kind name.name none).isUnbound = true → Post id (.use kind name) c
      (if (c.scopes.resolve? c.view.symbols id name.name none).isSome then c
        else ((Check.error (.undefined kind name.name none) name.range).run c).2)
  jump (jump : Jump) (range : Range) (id) (c) : Post id (.jump jump range) c
    (if (c.scopes.place id).allows jump then c
      else ((Check.error (.misplaced jump) range).run c).2)
  declare (name : Ident) (value : Local) (id) (c) : Post id (.bind [name]) c
    { c with scopes := c.scopes.declare id name.name value }
  again (name : Ident) {id} {c} :
    (id < c.scopes.size → (c.scopes.own? id name.name).isSome = true) →
    Post id (.bind [name]) c c
  nest {kind : ScopeKind} {a id c d} :
    Post c.scopes.size a { c with scopes := c.scopes.push (some id) kind } d →
    Post id (a.nest kind.nesting) c d

/-- Nothing is said of the effect zero. -/
def Lexical.Lift {known : String → Bool} (Post : Nat → Lexical known → Checker → Checker → Prop)
    (id : Nat) (g : WithZero (Lexical known)) (c d : Checker) : Prop :=
  ∀ a : Lexical known, g = ↑a → Post id a c d

namespace LexicalLaws

variable {known : String → Bool} {Post : Nat → Lexical known → Checker → Checker → Prop}

theorem effectLaws (h : LexicalLaws Post) : EffectLaws (Lexical.Lift Post) where
  post_refl id c := by
    rintro _ ⟨⟩
    exact h.refl id c
  post_trans {id g k c d e} hg hk a ha := by
    cases g using WithZero.recZeroCoe with
    | zero => cases ha
    | coe b =>
      cases k using WithZero.recZeroCoe with
      | zero => cases ha
      | coe b' =>
        cases ha
        exact h.trans (hg b rfl) (hk b' rfl)
  post_write id _ hentry hmuted := by
    rintro _ ⟨⟩
    exact h.write id hentry hmuted
  post_use kind name id _ hkind := by
    rintro _ ⟨⟩
    exact h.use kind name id hkind
  post_jump jump range id c := by
    rintro _ ⟨⟩
    exact h.jump jump range id c
  post_declare name value id c := by
    rintro _ ⟨⟩
    exact h.declare name value id c
  post_again name _ _ hown := by
    rintro _ ⟨⟩
    exact h.again name hown
  post_mark range ty id c := by
    rintro _ ⟨⟩
    obtain hc | ⟨hmuted, hc⟩ := Check.note_cases (·.add (.type range ty)) c <;> rw [hc]
    · exact h.refl id c
    · exact h.write id rfl hmuted
  post_nest {_ g _ _ _} hg a ha := by
    cases g using WithZero.recZeroCoe with
    | zero => cases ha
    | coe b =>
      cases ha
      exact h.nest (hg b rfl)
  post_infer {_ _ _ _} _ _ ha := by cases ha
  post_hide _ _ _ ha := by cases ha

end LexicalLaws

/-! ## Items -/

theorem Expr.plainCalls?_of_mem {value : Option Expr}
    (h : ∀ e ∈ value.toList, e.plainCalls = true) : plainCalls? value = true := by
  cases value with
  | none => rfl
  | some e => exact h e (List.mem_singleton_self e)

theorem Item.plainCalls_of_mem {x : Item} (h : x.plainCalls = true) {e : Expr}
    (he : e ∈ x.expressions) : e.plainCalls = true := by
  have hdefault {value : Option Expr} (hvalue : Expr.plainCalls? value = true)
      (he : e ∈ value.toList) : e.plainCalls = true := by
    obtain rfl := Option.mem_toList.1 he
    exact hvalue
  have hfunction {decl : FunctionDecl} (hdecl : decl.plainCalls = true)
      (he : e ∈ decl.expressions) : e.plainCalls = true := by
    obtain ⟨hparams, hbody⟩ := Bool.and_eq_true_iff.1 hdecl
    obtain rfl | he := List.mem_cons.1 he
    · exact hbody
    · obtain ⟨param, hparam, he⟩ := List.mem_flatMap.1 he
      exact hdefault (List.all_eq_true.1 hparams param hparam) he
  cases x with
  | use | typeAlias => cases he
  | const =>
    obtain rfl := List.mem_singleton.1 he
    exact h
  | struct decl =>
    obtain ⟨field, hfield, he⟩ := List.mem_flatMap.1 he
    exact hdefault (List.all_eq_true.1 h field hfield) he
  | function decl => exact hfunction h (by simpa [Item.expressions, Item.functions] using he)
  | methods | operators =>
    obtain ⟨decl, hdecl, he⟩ := List.mem_flatMap.1 he
    exact hfunction (List.all_eq_true.1 h decl hdecl) he

namespace Lexical

/-- The effect of a value outside of everything. -/
def isolated (known : String → Bool) (e : Expr) : Lexical known :=
  ⟨Resolve.isolated (e.resolve known), fun _ => e.misplaced .outside⟩

def function (known : String → Bool) (decl : FunctionDecl) : Lexical known :=
  ⟨Resolve.function known decl, fun _ => decl.misplaced⟩

theorem prod_isolated (known : String → Bool) : (fields : List FieldDecl) →
    ((fields.flatMap fun f => f.default.toList).map (isolated known)).prod =
      ⟨Resolve.structFields known fields,
        fun _ => fields.flatMap fun f => Expr.misplaced? f.default .outside⟩
  | [] => rfl
  | decl :: fields => by
    rw [List.flatMap_cons, List.map_append, List.prod_append, prod_isolated known fields,
      Resolve.structFields]
    simp only [List.flatMap_cons]
    cases decl.default with
    | none => rfl
    | some e =>
      rw [Option.toList_some, List.map_singleton, List.prod_singleton]
      rfl

theorem prod_function (known : String → Bool) : (decls : List FunctionDecl) →
    (decls.map (function known)).prod =
      ⟨Resolve.functions known decls, fun _ => decls.flatMap FunctionDecl.misplaced⟩
  | [] => rfl
  | decl :: decls => by
    rw [List.map_cons, List.prod_cons, prod_function known decls]
    rfl

theorem prod_items (known : String → Bool) : (xs : List Item) →
    (xs.map (Item.effect (isolated known) (function known))).prod =
      ⟨Resolve.items known xs, fun _ => xs.flatMap Item.misplaced⟩
  | [] => rfl
  | x :: xs => by
    rw [List.map_cons, List.prod_cons, prod_items known xs]
    cases x with
    | use | typeAlias | const => rfl
    | struct decl => rw [Item.effect, prod_isolated]; rfl
    | function decl =>
      rw [Item.effect, Item.functions, List.map_singleton, List.prod_singleton]
      rfl
    | methods | operators => rw [Item.effect, Item.functions, prod_function]; rfl

end Lexical

/-- The first pass does not complain about jumps, nor about variables and functions. -/
theorem Script.alike_declarations (script : Script) (registry : Registry) :
    Report.Alike {} { diagnostics := (script.declarations registry).diagnostics } := by
  refine Script.declarations_induction
    (I := fun d => Report.Alike {} { diagnostics := d.diagnostics }) (.refl _) fun hstep hd => ?_
  cases hstep with
  | entry => exact hd
  | complaint problem range hproblem =>
    have htyped : (Report.Entry.diagnostic ⟨.error, problem, range⟩).isTyped = true := by
      cases problem with
      | misplaced => cases hproblem
      | undefined kind => cases kind <;> first | rfl | cases hproblem
      | _ => rfl
    exact hd.trans (Report.alike_add htyped _)

end ScriptCheck
