import ScriptCheck.Proofs.RegimeCalls
import ScriptCheck.Proofs.RegimeLiterals

/-!
# Expressions under a regime

The effect of an expression is put together from those of its subexpressions (`Expr.effect`), and
under every regime the check of an expression has its effect (`Regime.Wraps.expr`), provided that
the regime admits the names that the expression mentions. The second run may wrap all parts of the
expression, as long as the regime does not notice.
-/

namespace ScriptCheck

open Effects (use refer nest hide)

/-! ## Effects -/

namespace Expr

variable {G : Type} [Effects G]

mutual
/-- What an expression does to names and jumps, and where its types are recorded. -/
def effect (e : Expr) : G :=
  Effects.mark e.range * match e with
    | .int .. | .float .. | .bool .. | .string .. => 1
    | .var _ module name => refer .var module name
    | .call _ module name _ args => refer .function module name * effectOfArgs args
    | .methodCall _ target _ args => target.effect * effectOfArgs args
    | .field _ target _ => target.effect
    | .index _ target position => target.effect * position.effect
    | .unary _ _ operand => operand.effect
    | .binary _ left _ right => left.effect * right.effect
    | .block _ expressions => nest .block (effectOfList expressions)
    | .declare _ _ binding _ value => value.effect * Effects.binds binding.names
    | .assign _ name _ value => use .var name * value.effect
    | .fieldAssign _ target _ _ value => target.effect * value.effect
    | .ifThen _ condition thenBranch elseBranch =>
      condition.effect * (nest .block thenBranch.effect * nest .block (effect? elseBranch))
    | .whileLoop _ condition body => condition.effect * nest .loop body.effect
    | .forLoop _ binding source body =>
      source.effect * nest .loop (Effects.binds binding.names * body.effect)
    | .breakLoop r => Effects.jump .breakLoop r
    | .continueLoop r => Effects.jump .continueLoop r
    | .returnValue r value => Effects.jump .returnValue r * effect? value
    | .lambda _ params body =>
      nest .function (Effects.binds (params.map LambdaParam.name) * body.effect)
    | .array _ elements => effectOfList elements
    | .tuple _ items => effectOfList items
    | .record _ items => effectOfItems items
    | .interval _ low high _ => low.effect * high.effect
    | .bracket _ inner => inner.effect

/-- The effect of expressions one after the other. -/
def effectOfList : List Expr → G
  | [] => 1
  | e :: rest => e.effect * effectOfList rest

/-- The effect of the arguments of a call. -/
def effectOfArgs : List Expr → G
  | [] => 1
  | e :: rest => (if e.isLambda then hide e.effect else e.effect) * effectOfArgs rest

/-- The effect of record items. -/
def effectOfItems : List (Ident × Expr) → G
  | [] => 1
  | (_, e) :: rest => e.effect * effectOfItems rest

/-- The effect of an expression that may be missing. -/
def effect? : Option Expr → G
  | none => 1
  | some e => e.effect
end

end Expr

/-! ## Expressions -/

/-- An expression may stand where it is, with all names in it. -/
structure Terms.Admits {G : Type} (T : Terms G) (e : Expr) : Prop where
  modules : ∀ m ∈ e.modules, T.Outside m
  names : ∀ name ∈ e.mentions, T.Known name
  uses : ∀ o ∈ e.uses, T.Uses o
  declares : ∀ o ∈ e.declares, T.Declares o
  covers : T.margins.Covers e

namespace Terms.Admits

variable {G : Type} {T : Terms G} {e : Expr}

/-- Without a directory only modules and plain names matter. -/
theorem of_any (hT : T.toDirectory = {}) (modules : ∀ m ∈ e.modules, T.Outside m)
    (names : ∀ name ∈ e.mentions, T.Known name) : T.Admits e :=
  ⟨modules, names, by simp [hT], by simp [hT], hT ▸ Margins.wide_covers e⟩

theorem child {inner : Expr} (h : T.Admits e)
    (hchild : inner ∈ e.children := by simp [Expr.children]) : T.Admits inner where
  modules m hm := h.modules m (Expr.modules_subset hchild hm)
  names name hname := h.names name (Expr.mentions_subset hchild hname)
  uses o ho := by
    have huses := h.uses
    rw [Expr.uses_eq, List.forall_mem_append] at huses
    exact huses.2 o (List.mem_flatMap.2 ⟨inner, hchild, ho⟩)
  declares o ho := by
    have hdeclares := h.declares
    rw [Expr.declares_eq, List.forall_mem_append] at hdeclares
    exact hdeclares.2 o (List.mem_flatMap.2 ⟨inner, hchild, ho⟩)
  covers := ((Margins.covers_iff e).1 h.covers).2 inner hchild

theorem node (h : T.Admits e) : T.margins.CoversNode e := ((Margins.covers_iff e).1 h.covers).1

theorem refers (h : T.Admits e) : ∀ o ∈ e.refers, T.Uses o := by
  have huses := h.uses
  rw [Expr.uses_eq, List.forall_mem_append, List.forall_mem_append] at huses
  exact huses.1.1

theorem annotation (h : T.Admits e) {spec : TypeSpec} (hspec : spec ∈ e.annotations) :
    T.Allows spec where
  modules m hm := h.modules m (Expr.modules_subset_of_annotation hspec hm)
  uses o ho := by
    have huses := h.uses
    rw [Expr.uses_eq, List.forall_mem_append, List.forall_mem_append] at huses
    exact huses.1.2 o (List.mem_flatMap.2 ⟨spec, hspec, ho⟩)
  covers := h.node.annotations spec hspec

/-- A name that an expression binds. -/
theorem binds {name : Ident} (h : T.Admits e) (hname : name ∈ e.binds)
    (hident : name ∈ e.idents := by assumption) : T.toDirectory.Binds name := by
  have hdeclares := h.declares
  rw [Expr.declares_eq, List.forall_mem_append, List.forall_mem_map] at hdeclares
  exact ⟨hdeclares.1 name hname, h.node.idents name hident⟩

/-- A member of what stands in front of the dot. -/
theorem member {name : Ident} (h : T.Admits e)
    (hrefers : ⟨.member, name⟩ ∈ e.refers := by exact List.mem_cons_self)
    (hident : name ∈ e.idents := by exact List.mem_cons_self) :
    T.toDirectory.Refers .member name :=
  ⟨h.refers _ hrefers, h.node.idents _ hident⟩

theorem var {r : Range} {module : Option Ident} {name : Ident} (h : T.Admits (.var r module name)) :
    T.Reaches module name where
  qualifier m hm := by
    subst hm
    exact ⟨h.modules _ List.mem_cons_self, h.node.idents m (by simp [Expr.idents])⟩
  known hmodule := by
    subst hmodule
    exact ⟨h.names _ List.mem_cons_self, h.refers _ List.mem_cons_self⟩
  spot := h.node.idents name List.mem_cons_self

theorem call {r : Range} {module : Option Ident} {name : Ident} {typeArgs : List TypeSpec}
    {args : List Expr} (h : T.Admits (.call r module name typeArgs args)) :
    T.Reaches module name where
  qualifier m hm := by
    subst hm
    exact ⟨h.modules _ List.mem_cons_self, h.node.idents m (by simp [Expr.idents])⟩
  known hmodule := by
    subst hmodule
    exact ⟨h.names _ List.mem_cons_self, h.refers _ List.mem_cons_self⟩
  spot := h.node.idents name List.mem_cons_self

theorem assign {r : Range} {name : Ident} {op : Option Operator} {value : Expr}
    (h : T.Admits (.assign r name op value)) : T.Reaches none name where
  qualifier := by simp
  known _ := ⟨h.names _ List.mem_cons_self, h.refers _ List.mem_cons_self⟩
  spot := h.node.idents name List.mem_cons_self

theorem params {r : Range} {params : List LambdaParam} {body : Expr}
    (h : T.Admits (.lambda r params body)) : ∀ p ∈ params, T.AllowsParam p := by
  intro p hp
  have hname : p.name ∈ params.map LambdaParam.name := List.mem_map_of_mem hp
  refine ⟨h.binds hname, fun spec hspec => h.annotation ?_⟩
  exact List.mem_flatMap.2 ⟨p, hp, Option.mem_toList.2 hspec⟩

end Terms.Admits

variable {G : Type} [Effects G]

/-- A wrapper that the regime does not notice. -/
structure Regime.Wraps (L : Regime G) (wrap : Part → Part) : Prop where
  range (p : Part) : (wrap p).range = p.range
  isLambda (p : Part) : (wrap p).isLambda = p.isLambda
  twins (e : Expr) : L.Twins e.part (e.wrapped wrap)
  check {x : L.Site} {g : G} {hint : Option Ty} {m : CheckM Ty} {p : Part} :
    L.Runs x g L.Good m (p.check x.id' hint) → L.Runs x g L.Good m ((wrap p).check x.id' hint)

namespace Regime.Wraps

variable {L : Regime G} {wrap : Part → Part}

/-- Parts that check alike before the second one is wrapped. -/
theorem part (hw : L.Wraps wrap) {e : Expr} {g : G} {p : Part}
    (hspot : L.margins.spots e.part.range) (he : e.wrapped wrap = wrap p)
    (hrange : p.range = e.part.range) (hlambda : p.isLambda = e.part.isLambda)
    (hshut : e.part.isLambda = true → Effects.Shut g)
    (hcheck : ∀ (x : L.Site) {hint}, L.Hints hint →
      L.Runs x g L.Good (e.part.check x.id hint) (p.check x.id' hint)) :
    e.part.Runs L g (e.wrapped wrap) where
  spot := hspot
  range := by rw [he, hw.range, hrange]
  isLambda := by rw [he, hw.isLambda, hlambda]
  twins := hw.twins e
  shut := hshut
  check x hint hhint := by
    rw [he]
    exact hw.check (hcheck x hhint)

/-- Every form of expressions but lambdas and brackets has a rule. -/
theorem ofRule (hw : L.Wraps wrap) {e : Expr} {g : G} {r : Range}
    {rule rule' : Nat → Option Ty → CheckM Ty} (hspot : L.margins.spots r)
    (hpart : e.part = .ofRule r rule) (hwrapped : e.wrapped wrap = wrap (.ofRule r rule'))
    (h : ∀ (x : L.Site) hint, L.Hints hint →
      L.Runs x g L.Good (rule x.id hint) (rule' x.id' hint)) :
    e.part.Runs L (Effects.mark r * g) (e.wrapped wrap) := by
  refine hw.part ?_ hwrapped ?_ ?_ ?_ ?_ <;> rw [hpart]
  · exact hspot
  · rfl
  · rfl
  · exact fun hlambda => Bool.noConfusion hlambda
  · exact fun x hint hhint => typed r (h x hint hhint)

mutual
/-- The check of an expression has its effect. -/
theorem expr (hw : L.Wraps wrap) : (e : Expr) → L.Admits e →
    e.part.Runs L e.effect (e.wrapped wrap)
  | .int .., h | .float .., h | .bool .., h | .string .., h =>
    hw.ofRule h.node.range rfl rfl fun _ _ _ => pure (L.good_prelude _)
  | .var .., h => hw.ofRule h.node.range rfl rfl fun _ _ _ => var h.var
  | .call _ _ _ _ args, h => by
    have hargs := hw.args args fun _ hc => h.child hc
    exact hw.ofRule h.node.range rfl rfl fun _ _ hhint =>
      call h.call (fun _ hspec => h.annotation hspec) hargs hhint
  | .methodCall _ target _ args, h => by
    have hargs := hw.args args fun _ hc => h.child (List.mem_cons_of_mem _ hc)
    exact hw.ofRule h.node.range rfl rfl fun _ _ hhint =>
      methodCall (hw.expr target h.child) h.member hargs hhint
  | .field _ target _, h =>
    hw.ofRule h.node.range rfl rfl fun _ _ _ => field (hw.expr target h.child) h.member
  | .index _ target position, h =>
    hw.ofRule h.node.range rfl rfl fun _ _ _ =>
      index (hw.expr target h.child) (hw.expr position h.child)
  | .unary _ op operand, h =>
    hw.ofRule h.node.range rfl rfl fun _ _ _ => unary h.node.range op (hw.expr operand h.child)
  | .binary _ left op right, h =>
    hw.ofRule h.node.range rfl rfl fun _ _ _ =>
      binary h.node.range op (hw.expr left h.child) (hw.expr right h.child)
  | .block _ expressions, h =>
    hw.ofRule h.node.range rfl rfl fun _ _ hhint =>
      block (hw.list expressions fun _ hc => h.child hc) hhint
  | .declare _ isConst _ _ value, h =>
    hw.ofRule h.node.range rfl rfl fun _ _ _ =>
      declare h.node.range isConst (fun _ hname => h.binds hname)
        (fun _ hspec => h.annotation (Option.mem_toList.2 hspec)) (hw.expr value h.child)
  | .assign _ _ op value, h =>
    hw.ofRule h.node.range rfl rfl fun _ _ _ => assign h.assign op (hw.expr value h.child)
  | .fieldAssign _ target _ op value, h =>
    hw.ofRule h.node.range rfl rfl fun _ _ _ =>
      fieldAssign (hw.expr target h.child) h.member op (hw.expr value h.child)
  | .ifThen _ condition thenBranch elseBranch, h => by
    have helse := hw.optional elseBranch fun e he =>
      h.child (List.mem_cons_of_mem _ (List.mem_cons_of_mem _ (Option.mem_toList.2 he)))
    exact hw.ofRule h.node.range rfl rfl fun _ _ hhint =>
      ifThen (hw.expr condition h.child) (hw.expr thenBranch h.child) helse hhint
  | .whileLoop _ condition body, h =>
    hw.ofRule h.node.range rfl rfl fun _ _ _ =>
      whileLoop (hw.expr condition h.child) (hw.expr body h.child)
  | .forLoop _ _ source body, h =>
    hw.ofRule h.node.range rfl rfl fun _ _ _ =>
      forLoop (fun _ hname => h.binds hname) (hw.expr source h.child) (hw.expr body h.child)
  | .breakLoop _, h =>
    hw.ofRule h.node.range rfl rfl fun _ _ _ => leaveLoop .breakLoop nofun h.node.range
  | .continueLoop _, h =>
    hw.ofRule h.node.range rfl rfl fun _ _ _ => leaveLoop .continueLoop nofun h.node.range
  | .returnValue _ value, h => by
    have hvalue := hw.optional value fun e he => h.child (Option.mem_toList.2 he)
    exact hw.ofRule h.node.range rfl rfl fun _ _ _ => returnValue h.node.range hvalue
  | .lambda r _ body, h => by
    have hbody := hw.expr body h.child
    exact hw.part h.node.range rfl rfl rfl (fun _ => .mark r (.function _)) fun _ _ hhint =>
      typed r (lambda h.node.range h.params hbody hhint)
  | .array _ elements, h =>
    hw.ofRule h.node.range rfl rfl fun _ _ hhint =>
      array h.node.range (hw.list elements fun _ hc => h.child hc) hhint
  | .tuple _ items, h =>
    hw.ofRule h.node.range rfl rfl fun _ _ hhint =>
      tuple (hw.list items fun _ hc => h.child hc) hhint
  | .record _ items, h => by
    have hitems := hw.items items fun item hitem =>
      ⟨h.node.idents _ (List.mem_map_of_mem hitem), h.child (List.mem_map_of_mem hitem)⟩
    exact hw.ofRule h.node.range rfl rfl fun _ _ hhint => record hitems hhint
  | .interval _ low high _, h =>
    hw.ofRule h.node.range rfl rfl fun _ _ _ =>
      interval (hw.expr low h.child) (hw.expr high h.child)
  | .bracket r inner, h => by
    have hinner := hw.expr inner h.child
    exact hw.part h.node.range rfl rfl hinner.isLambda
      (fun hlambda => .mark r (hinner.shut hlambda))
      fun x _ hhint => typed r (hinner.check x hhint)

theorem list (hw : L.Wraps wrap) : (es : List Expr) → (∀ e ∈ es, L.Admits e) →
    PartsRun L (Expr.parts es) (Expr.wrappedList wrap es) (Expr.effectOfList es)
  | [], _ => .nil
  | e :: rest, h =>
    .cons (hw.expr e (List.forall_mem_cons.1 h).1) (hw.list rest (List.forall_mem_cons.1 h).2)

theorem args (hw : L.Wraps wrap) : (es : List Expr) → (∀ e ∈ es, L.Admits e) →
    ArgumentsRun L (Expr.parts es) (Expr.wrappedList wrap es) (Expr.effectOfArgs es)
  | [], _ => .nil
  | e :: rest, h => by
    have he := hw.expr e (List.forall_mem_cons.1 h).1
    have hrest := hw.args rest (List.forall_mem_cons.1 h).2
    rw [Expr.effectOfArgs]
    cases hlambda : e.isLambda with
    | true => exact .lambda he (e.part_isLambda.trans hlambda) hrest
    | false => exact .plain he (e.part_isLambda.trans hlambda) hrest

theorem items (hw : L.Wraps wrap) : (es : List (Ident × Expr)) →
    (∀ item ∈ es, L.margins.spots item.1.range ∧ L.Admits item.2) →
    ItemsRun L (Expr.itemParts es) (Expr.wrappedItems wrap es) (Expr.effectOfItems es)
  | [], _ => .nil
  | (_, e) :: rest, h =>
    .cons (List.forall_mem_cons.1 h).1.1 (hw.expr e (List.forall_mem_cons.1 h).1.2)
      (hw.items rest (List.forall_mem_cons.1 h).2)

theorem optional (hw : L.Wraps wrap) : (e : Option Expr) → (∀ e' ∈ e, L.Admits e') →
    PartRun? L (Expr.part? e) (Expr.wrapped? wrap e) (Expr.effect? e)
  | none, _ => .none
  | some e, h => .some (hw.expr e (h e rfl))
end

end Regime.Wraps

/-- A regime that allows parts beside themselves does not notice if nothing is wrapped. -/
theorem Regime.wraps_id {L : Regime G} (htwins : ∀ p, L.Twins p p) : L.Wraps id :=
  ⟨fun _ => rfl, fun _ => rfl, fun e => htwins e.part, fun h => h⟩

/-- Both runs of the check of an expression have its effect. -/
theorem Regime.expr {L : Regime G} (htwins : ∀ p, L.Twins p p) {e : Expr}
    (he : L.Admits e) : e.part.Runs L e.effect e.part :=
  (wraps_id htwins).expr e he

/-- The check of an expression keeps an invariant that has nothing to do with types or names. -/
theorem Invariant.check {Inv : Checker → Prop} {Sees : View → Prop} (h : Invariant Inv Sees Any)
    (e : Expr) (id : Nat) (hint : Option Ty) {c : Checker} (hc : Inv c) :
    Inv ((e.part.check id hint).run c).2 :=
  have hadmits : (h.regime .any).Admits e := .of_any rfl (fun _ _ => trivial) fun _ _ => trivial
  ((Regime.expr (fun _ => trivial) hadmits).check ⟨(), id, id, rfl⟩ (fun _ _ => trivial) c c
    ⟨rfl, hc⟩).2.1.2

end ScriptCheck
