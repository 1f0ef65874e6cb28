import ScriptCheck.Proofs.SilentChecks

/-!
# Effects of items

The effect of an expression is about the scope in which the expression stands. An item stands in
none: a constant opens a scope for its value, and a function opens two at once. While the default
values of its parameters are checked in the second one, the parameters are entered into the first
one, where the body is checked later (`Entering`).

`ItemLaws` says what follows for the state between items. What a list of items does is then the
product of what their values and functions do (`ItemLaws.items`).
-/

namespace ScriptCheck

open Check

/-- Parameters are entered into the scope `body` while their default values are checked in the scope
`defaults`. A name that was `seen` before is not entered again. -/
inductive Entering {G : Type} [Effects G] (Post : Nat → G → Checker → Checker → Prop)
    (body defaults : Nat) : List String → List ParamDecl → Checker → Checker → Prop
  | nil (seen : List String) (c : Checker) : Entering Post body defaults seen [] c c
  | again {seen params} {param : ParamDecl} {c d e : Checker} : param.name.name ∈ seen →
    Post defaults (Expr.effect? param.default) c d →
    Entering Post body defaults (param.name.name :: seen) params d e →
    Entering Post body defaults seen (param :: params) c e
  | enter {seen params} {param : ParamDecl} {b c d e : Checker} :
    Post defaults (Expr.effect? param.default) b c → Post body (Effects.bind param.name) c d →
    Entering Post body defaults (param.name.name :: seen) params d e →
    Entering Post body defaults seen (param :: params) b e

/-- The product of what the values and functions of an item do. -/
def Item.effect {W : Type} [Monoid W] (value : Expr → W) (function : FunctionDecl → W)
    (x : Item) : W :=
  match x with
  | .const decl => value decl.value
  | .struct decl => ((decl.fields.flatMap fun f => f.default.toList).map value).prod
  | .use _ | .typeAlias _ | .function _ | .methods _ | .operators _ =>
    (x.functions.map function).prod

/-- What is done outside of all scopes, given what is done inside of one. -/
structure ItemLaws {G : Type} [Effects G] (Post : Nat → G → Checker → Checker → Prop)
    {W : Type} [Monoid W] (Out : W → Checker → Checker → Prop) (Plain : Expr → Prop)
    (value : Expr → W) (function : FunctionDecl → W) : Prop extends EffectLaws Post where
  out_still {c d} : c.Still d → Out 1 c d
  out_trans {g h c d e} : Out g c d → Out h d e → Out (g * h) c e
  out_value {e c d} : Plain e →
    Post c.scopes.size e.effect { c with scopes := c.scopes.push none .block } d →
    Out (value e) c d
  out_function {decl c d e} {result : Ty} : (∀ x ∈ decl.expressions, Plain x) →
    Entering Post c.scopes.size (c.scopes.push none (.function result)).size [] decl.params
      { c with scopes := (c.scopes.push none (.function result)).push none .block } d →
    Post c.scopes.size decl.body.effect d e → Out (function decl) c e

/-- What a computation does outside of all scopes. -/
def Outside {α W : Type} (Out : W → Checker → Checker → Prop) (g : W) (m : CheckM α) : Prop :=
  ∀ c : Checker, Out g c (m.run c).2

theorem Outside.get {α W : Type} {Out : W → Checker → Checker → Prop} {g : W}
    {k : Checker → CheckM α} (hk : ∀ c, Outside Out g (k c)) :
    Outside Out g (MonadState.get >>= k) :=
  fun c => hk c c

namespace ItemLaws

variable {G W : Type} [Effects G] [Monoid W] {Post : Nat → G → Checker → Checker → Prop}
  {Out : W → Checker → Checker → Prop} {Plain : Expr → Prop} {value : Expr → W}
  {function : FunctionDecl → W} {α β : Type} {P : α → Prop} {m : CheckM α} {k : α → CheckM β}
  {g h : W} (hL : ItemLaws Post Out Plain value function)

include hL

theorem bind (hm : Outside Out g m) (hk : ∀ a, Outside Out h (k a)) :
    Outside Out (g * h) (m >>= k) :=
  fun c => hL.out_trans (hm c) (hk _ _)

theorem silent (hm : ∀ {x : silence.Site}, silence.Keeps x P m) : Outside Out 1 m :=
  fun c => hL.out_still (.of_runs hm c)

/-- What is silent may stand in front. -/
theorem left (hm : ∀ {x : silence.Site}, silence.Keeps x P m) (hk : ∀ a, Outside Out g (k a)) :
    Outside Out g (m >>= k) :=
  one_mul g ▸ hL.bind (hL.silent hm) hk

/-- A change of the state that has nothing to do with symbols or the report. -/
theorem modify {f : Checker → Checker} (hf : ∀ c, (f c).view.symbols = c.view.symbols ∧
    (f c).muted = c.muted ∧ (f c).report = c.report) : Outside Out 1 (modify f) :=
  fun c => hL.out_still ⟨(hf c).1, (hf c).2.1, (hf c).2.2 ▸ .refl _⟩

theorem closeScopes : Outside Out 1 closeScopes := hL.modify fun _ => ⟨rfl, rfl, rfl⟩

theorem checkSpec {spec : TypeSpec} {k : Ty → CheckM β} (hk : ∀ ty, Outside Out g (k ty)) :
    Outside Out g (spec.check >>= k) :=
  hL.left (Regime.checkSpec spec (.of_any rfl fun _ _ => trivial)) hk

theorem expr (e : Expr) : e.part.Runs (.alone hL.toEffectLaws) e.effect e.part :=
  (Regime.alone hL.toEffectLaws).expr (fun _ => trivial)
    (.of_any rfl (fun _ _ => trivial) fun _ _ => trivial)

theorem post {id : Nat} {g : G}
    (hm : (Regime.alone hL.toEffectLaws).Runs ⟨(), id, id, rfl⟩ g P m m) (c : Checker) :
    Post id g c (m.run c).2 :=
  Regime.post_of_alone hm c

/-- A value is checked in a scope of its own. -/
theorem isolated {e : Expr} (he : Plain e) {body : Nat → CheckM α} {k : Nat → α → CheckM β}
    (hbody : ∀ {id}, (Regime.alone hL.toEffectLaws).Runs ⟨(), id, id, rfl⟩ e.effect P (body id)
      (body id)) (hk : ∀ id a, Outside Out g (k id a)) :
    Outside Out (value e * g) (do let id ← openScope none .block; body id >>= k id) :=
  fun _ => hL.out_trans (hL.out_value he (hL.post hbody _)) (hk _ _ _)

theorem const (decl : ConstDecl) (h : Plain decl.value) :
    Outside Out (value decl.value) (const Expr.part decl) := by
  rw [← mul_one (value decl.value)]
  simp only [Check.const, rootType, bind_assoc]
  exact hL.left (Regime.annotated fun _ _ => .of_any rfl fun _ _ => trivial) fun declared =>
    hL.isolated h (Regime.declaredType (fun _ _ => trivial) (hL.expr _)) fun id ty =>
      hL.silent (Regime.Grounds.showConst trivial _ ty)

theorem structFields : (fields : List FieldDecl) →
    (∀ e ∈ fields.flatMap fun f => f.default.toList, Plain e) →
    Outside Out ((fields.flatMap fun f => f.default.toList).map value).prod
      (structFields Expr.part fields)
  | [], _ => fun c => hL.out_still (.refl c)
  | decl :: fields, h => by
    rw [List.flatMap_cons] at h ⊢
    obtain ⟨hdefault, hfields⟩ := List.forall_mem_append.1 h
    have hrest := structFields fields hfields
    refine hL.checkSpec fun ty => hL.left (Regime.token trivial _ _) fun _ =>
      hL.left (Regime.hover _ _ _ _) fun _ => ?_
    cases hvalue : decl.default with
    | none => exact hrest
    | some e =>
      rw [Option.toList_some, List.singleton_append, List.map_cons, List.prod_cons]
      exact hL.isolated (hdefault e (by simp [hvalue])) (Regime.require (hL.expr e) trivial)
        fun _ _ => hrest

theorem struct (decl : StructDecl)
    (h : ∀ e ∈ decl.fields.flatMap fun f => f.default.toList, Plain e) :
    Outside Out ((decl.fields.flatMap fun f => f.default.toList).map value).prod
      (struct Expr.part decl) := by
  refine hL.left (Regime.token trivial _ _) fun _ => .get fun _ => ?_
  split
  · exact hL.left (Regime.hover _ _ _ _) fun _ => hL.structFields _ h
  · exact hL.structFields _ h

/-- A default value is checked after the type of its parameter. -/
theorem checkDefault (param : ParamDecl) (isReceiver : Bool) (defaults : Nat) (c : Checker) :
    let typed := (paramType param isReceiver).run c
    Post defaults (Expr.effect? param.default) c
      ((checkDefault Expr.part param typed.1 defaults).run typed.2).2 := by
  have htype : Post defaults 1 c ((paramType param isReceiver).run c).2 :=
    hL.post ((Invariant.any.grounds _).paramType trivial
      (fun _ _ => .of_any rfl fun _ _ => trivial) isReceiver) c
  have hdefault (ty : Ty) (d : Checker) : Post defaults (Expr.effect? param.default) d
      ((Check.checkDefault Expr.part param ty defaults).run d).2 := by
    unfold Check.checkDefault
    cases param.default with
    | none => exact hL.post (Regime.pure (P := Any) trivial) d
    | some e => exact hL.post (Regime.require (hL.expr e) trivial) d
  rw [← one_mul (Expr.effect? param.default)]
  exact hL.post_trans htype (hdefault _ _)

theorem functionParams (role : Role) (body defaults : Nat) : (first : Bool) →
    (seen : List String) → (params : List ParamDecl) → (c : Checker) →
    Entering Post body defaults seen params c
      ((functionParams Expr.part role body defaults first seen params).run c).2
  | _, seen, [], c => .nil seen c
  | first, seen, param :: params, c => by
    let isReceiver := role == .method && first && param.name.name == "self"
    let ty := ((paramType param isReceiver).run c).1
    let d := ((Check.checkDefault Expr.part param ty defaults).run
      ((paramType param isReceiver).run c).2).2
    have hd : Post defaults (Expr.effect? param.default) c d :=
      hL.checkDefault param isReceiver defaults c
    have hrest := functionParams role body defaults false (param.name.name :: seen) params
      ((enterUnseen body seen param.name ty).run d).2
    change Entering Post body defaults seen (param :: params) c
      ((Check.functionParams Expr.part role body defaults false (param.name.name :: seen)
        params).run ((enterUnseen body seen param.name ty).run d).2).2
    unfold enterUnseen at hrest ⊢
    split at hrest
    · rename_i hseen
      have herror : Post defaults 1 d ((Check.error (.duplicate .parameter param.name.name)
          param.name.range).run d).2 := hL.post (Regime.error (by rfl) (by rfl) trivial) d
      have hagain := hL.post_trans hd herror
      rw [mul_one] at hagain
      rw [if_pos hseen]
      exact .again (by simpa using hseen) hagain hrest
    · rename_i hseen
      rw [if_neg hseen]
      exact .enter hd (hL.post (Regime.enterParam ⟨trivial, trivial⟩ trivial) d) hrest

theorem functionDecl (role : Role) (decl : FunctionDecl) (h : ∀ e ∈ decl.expressions, Plain e) :
    Outside Out (function decl) (Check.function Expr.part role decl) := by
  simp only [Check.function, opening, bind_assoc, pure_bind]
  refine hL.checkSpec fun result => hL.left (Regime.token trivial _ _) fun _ =>
    hL.left ((Invariant.any.grounds _).showRegistered role decl) fun _ c => ?_
  have hbody (params : List Ty) (d : Checker) : Post c.scopes.size decl.body.effect d
      ((checkBody Expr.part decl ⟨c.scopes.size, result, params⟩).run d).2 :=
    hL.post (((hL.expr decl.body).check _ fun _ _ => trivial).settle fun _ _ =>
      Regime.expect trivial trivial trivial rfl) d
  exact hL.out_function h (hL.functionParams role _ _ true [] decl.params _) (hbody _ _)

theorem functions (role : Role) : (decls : List FunctionDecl) →
    (∀ e ∈ decls.flatMap FunctionDecl.expressions, Plain e) →
    Outside Out (decls.map function).prod (functions Expr.part role decls)
  | [], _ => fun c => hL.out_still (.refl c)
  | decl :: decls, h => by
    rw [List.flatMap_cons] at h
    obtain ⟨hdecl, hdecls⟩ := List.forall_mem_append.1 h
    rw [List.map_cons, List.prod_cons, ← one_mul (decls.map function).prod]
    exact hL.bind (hL.functionDecl role decl hdecl) fun _ => hL.bind hL.closeScopes fun _ =>
      functions role decls hdecls

theorem impl (role : Role) (decl : ImplDecl)
    (h : ∀ e ∈ decl.functions.flatMap FunctionDecl.expressions, Plain e) :
    Outside Out (decl.functions.map function).prod (impl Expr.part role decl) := by
  have hself (self : Option SelfType) : Outside Out 1 (setSelf self) :=
    hL.modify fun _ => ⟨rfl, rfl, rfl⟩
  have hopen : Outside Out 1 (openImpl decl) := by
    rw [← one_mul (1 : W)]
    exact .get fun _ => hL.bind (hself _) fun _ => hL.left (Regime.token trivial _ _) fun _ =>
      hL.silent (Regime.link .type trivial fun _ _ => trivial)
  rw [← one_mul (List.prod _), ← mul_one (List.prod _)]
  exact hL.bind hopen fun _ => hL.bind (hL.functions role _ h) fun _ => hself none

theorem item (x : Item) (h : ∀ e ∈ x.expressions, Plain e) :
    Outside Out (x.effect value function) (item Expr.part x) := by
  cases x with
  | use => exact hL.silent ((Invariant.any.grounds _).use
      (.of_any rfl (fun _ => trivial) fun _ _ => trivial))
  | const decl => exact hL.const decl (h _ List.mem_cons_self)
  | struct decl => exact hL.struct decl h
  | typeAlias => exact hL.silent (Regime.Grounds.typeAlias
      (.of_any rfl (fun _ => trivial) fun _ _ => trivial))
  | function decl =>
    have hdecl := hL.functionDecl .function decl fun e he =>
      h e (List.mem_flatMap.2 ⟨decl, List.mem_cons_self, he⟩)
    rwa [← mul_one (function decl)] at hdecl
  | methods block => exact hL.impl .method block h
  | operators block => exact hL.impl .operator block h

/-- What the items of a script do, one after the other. -/
theorem items : (xs : List Item) → (∀ x ∈ xs, ∀ e ∈ x.expressions, Plain e) →
    Outside Out (xs.map (Item.effect value function)).prod (items Expr.part xs)
  | [], _ => fun c => hL.out_still (.refl c)
  | x :: xs, h => by
    obtain ⟨hx, hxs⟩ := List.forall_mem_cons.1 h
    rw [List.map_cons, List.prod_cons, ← one_mul (List.prod _)]
    exact hL.bind (hL.item x hx) fun _ => hL.bind hL.closeScopes fun _ => items xs hxs

end ItemLaws

end ScriptCheck
