import ScriptCheck.Proofs.SteadyStatements

/-!
# Steady expressions

`Expr.steady` looks at an expression and says whether its check warns only after an error. Where the
type of a value is read, as that of an initializer without annotation or of the owner of a field,
the value has to have a settled type if nothing is complained about (`Need.value`). A jump has no
type, and a call of a generic function may leave its result open; both are fine where the type is
not read (`Need.any`).

`Expr.steady_part` is by recursion on the expression, with the rule for each kind of expression.
-/

namespace ScriptCheck

/-! ## Needs -/

/-- What is needed of the type of an expression. -/
inductive Need
  /-- The type is not read. -/
  | any
  /-- The expression is a branch, which may be left by a jump. -/
  | branch
  /-- The type is read. -/
  | value
deriving DecidableEq

namespace Need

/-- Whether a type is as needed. -/
def Met (r : Registry) : Need → Ty → Prop
  | any, t => t.Saturated r
  | branch, t => t = .unknown ∨ t.Settled r
  | value, t => t.Settled r

/-- What is needed of the parts of a literal. -/
def parts : Need → Need
  | any => any
  | branch | value => value

/-- What is needed of both branches. -/
def branches : Need → Need
  | any => any
  | branch | value => branch

/-- What the parts of a literal may leave open. -/
def slack : Need → Slack
  | any => .anything
  | branch | value => .only []

variable {r : Registry} {need : Need} {t : Ty}

theorem met_of_settled (need : Need) (t : Ty) (h : t.Settled r) : need.Met r t :=
  match need with
  | any => h.saturated
  | branch => .inr h
  | value => h

theorem met_of_unknown (hneed : need ≠ value) (t : Ty) (h : t = .unknown) : need.Met r t :=
  match need with
  | any => h ▸ Ty.saturated_unknown
  | branch => .inl h
  | value => absurd rfl hneed

theorem met_of_sound (need : Need) (t : Ty) (h : t.Sound r need.slack) : need.Met r t :=
  match need with
  | any => h
  | branch => .inr h
  | value => h

theorem met_of_call (need : Need) (t : Ty)
    (h : t.Saturated r ∧ (need ≠ any → t.Settled r)) : need.Met r t :=
  match need with
  | any => h.1
  | branch => .inr (h.2 nofun)
  | value => h.2 nofun

theorem met_parts (need : Need) : need.parts.Met r = Ty.Sound r need.slack := by
  cases need <;> rfl

theorem met_ite (b : Bool) :
    (if b then any else value).Met r = Ty.Sound r (if b then .anything else .only []) := by
  cases b <;> rfl

/-- The value of a branch is one of the two, if not `Unit`. -/
theorem met_joins (need : Need) (a b t : Ty) (ha : need.Met r a) (hb : need.Met r b)
    (h : Ty.Joins a b t) : need.Met r t := by
  cases h with
  | left => exact ha
  | right => exact hb
  | unit => exact met_of_settled need _ Ty.settled_unit

/-- One branch with a value is enough if the other one is left by a jump. -/
theorem settled_joins {a b : Ty} (ha : branch.Met r a) (hb : branch.Met r b)
    (h : a.Settled r ∨ b.Settled r) (ht : Ty.Joins a b t) : t.Settled r := by
  have hvalue {t : Ty} (ht : branch.Met r t) (hknown : t.isUnknown = false) : t.Settled r :=
    ht.resolve_left fun hunknown => by simp [hunknown, Ty.isUnknown] at hknown
  cases ht with
  | left ha' => exact hvalue ha ha'
  | right hright =>
    obtain ha' | hb' := hright
    · exact h.resolve_left fun hsettled => by simp [hsettled.isUnknown_eq_false] at ha'
    · exact hvalue hb hb'
  | unit => exact Ty.settled_unit

end Need

/-! ## Expressions -/

/-- The type of the function that a name may stand for. -/
def View.named? (v : View) (module : Option Ident) (name : Ident) : Option Ty :=
  (v.symbols.function? (module.map Ident.name) name.name none).map Value.ty

/-- Whether a call with settled arguments has a settled type. -/
def Signature.fixed (r : Registry) (typeArgs : List TypeSpec) (s : Signature Ty) : Bool :=
  s.generics.isEmpty || !typeArgs.isEmpty || decide (s.Determined r)

namespace Expr

mutual
/-- Whether the check of an expression warns only after an error, and if there is none, finds a type
as needed. -/
def steady (v : View) : Expr → Need → Bool
  | .int .., _ | .float .., _ | .bool .., _ | .string .., _ => true
  | .var _ module name, need =>
    need == .any || (v.named? module name).all fun t => decide (t.Settled v.symbols.registry)
  | .call _ module name typeArgs args, need =>
    TypeSpec.saturatedList v typeArgs &&
      (need == .any || ((v.named? module name).bind Ty.signature?).all
        (·.fixed v.symbols.registry typeArgs)) &&
      steadyList v args
        (if ((v.named? module name).bind Ty.signature?).all (·.generics.isEmpty) then .any
          else .value)
  | .methodCall _ target _ args, _ => target.steady v .value && steadyList v args .value
  | .field _ target _, _ => target.steady v .value
  | .index _ target position, _ => target.steady v .value && position.steady v .any
  | .unary _ _ operand, _ => operand.steady v .value
  | .binary _ left op right, _ =>
    left.steady v (if op.isLogical then .any else .value) &&
      right.steady v (if op.isLogical then .any else .value)
  | .block _ expressions, need => steadyBlock v expressions need
  | .declare _ _ _ type value, _ =>
    type.all (·.saturated v) && value.steady v (if type.isSome then .any else .value)
  | .assign _ _ op value, _ => value.steady v (if op.isNone then .any else .value)
  | .fieldAssign _ target _ op value, _ =>
    target.steady v .value && value.steady v (if op.isNone then .any else .value)
  | .ifThen _ condition thenBranch none, _ => condition.steady v .any && thenBranch.steady v .any
  | .ifThen _ condition thenBranch (some elseBranch), need =>
    condition.steady v .any && thenBranch.steady v need.branches &&
      elseBranch.steady v need.branches &&
      (need != .value || thenBranch.steady v .value || elseBranch.steady v .value)
  | .whileLoop _ condition body, _ => condition.steady v .any && body.steady v .any
  | .forLoop _ _ source body, _ => source.steady v .value && body.steady v .any
  | .breakLoop _, need | .continueLoop _, need => need != .value
  | .returnValue _ value, need => need != .value && steady? v value
  | .lambda _ params body, need =>
    params.all (fun param => param.type.all (·.saturated v)) && body.steady v need.parts
  | .array _ elements, need => steadyList v elements need.parts
  | .tuple _ items, need => steadyList v items need.parts
  | .record _ items, need => steadyItems v items need.parts
  | .interval _ low high _, _ => low.steady v .any && high.steady v .any
  | .bracket _ inner, need => inner.steady v need

/-- Whether all expressions of a list are steady. -/
def steadyList (v : View) : List Expr → Need → Bool
  | [], _ => true
  | e :: rest, need => e.steady v need && steadyList v rest need

/-- Whether the values of all record items are steady. -/
def steadyItems (v : View) : List (Ident × Expr) → Need → Bool
  | [], _ => true
  | (_, e) :: rest, need => e.steady v need && steadyItems v rest need

/-- Whether the expressions of a block are steady. The last one gives the type. -/
def steadyBlock (v : View) : List Expr → Need → Bool
  | [], _ => true
  | [last], need => last.steady v need
  | first :: rest, need => first.steady v .any && steadyBlock v rest need

/-- Whether an expression is steady that may be missing and whose type is not read. -/
def steady? (v : View) : Option Expr → Bool
  | none => true
  | some e => e.steady v .any
end

end Expr

variable {v : View} {knows : String → Prop}

theorem Signature.Usable.serves {r : Registry} {s : Signature Ty} (hs : s.Usable r) {need : Need}
    {typeArgs : List TypeSpec} (h : need = .any ∨ s.fixed r typeArgs = true) :
    s.Serves r (if s.generics.isEmpty then .anything else .only []) typeArgs (need ≠ .any) := by
  refine ⟨hs, fun hneed => ?_⟩
  have hfixed := h.resolve_left hneed
  simp only [fixed, Bool.or_eq_true, Bool.not_eq_true', List.isEmpty_iff, List.isEmpty_eq_false_iff,
    decide_eq_true_eq, or_assoc] at hfixed ⊢
  by_cases hgenerics : s.generics = []
  · exact .inl hgenerics
  · exact .inr ⟨if_neg hgenerics, hfixed.resolve_left hgenerics⟩

theorem Part.Steady.ofRule (range : Range) {rule : Nat → Option Ty → CheckM Ty} {Q R : Ty → Prop}
    (hQ : ∀ t, Q t → R t)
    (h : ∀ (p : Prop) (id : Nat) (hint : Option Ty),
      (p → ∀ t ∈ hint, t.Saturated v.registry) → Check.Steady v p Q (rule id hint))
    {isLambda : Bool} : Part.Steady v R { Part.ofRule range rule with isLambda } :=
  fun p id hint hhint => .typed range ((h p id hint hhint).imp (fun h => h) fun t _ => hQ t)

namespace Expr

open Need (met_ite met_parts met_of_unknown) in
mutual
/-- The check of a steady expression warns only after an error, and if there is none, finds a type
as needed. -/
theorem steady_part (hv : v.Settled knows) : (e : Expr) → (need : Need) →
    (∀ name ∈ e.mentions, knows name) → e.steady v need = true →
    e.part.Steady v (need.Met v.registry)
  | .int r _, need, _, _ =>
    .ofRule r need.met_of_settled fun _ _ _ _ => .pure fun _ => Ty.settled_int
  | .float r _, need, _, _ =>
    .ofRule r need.met_of_settled fun _ _ _ _ => .pure fun _ => Ty.settled_float
  | .bool r _, need, _, _ =>
    .ofRule r need.met_of_settled fun _ _ _ _ => .pure fun _ => Ty.settled_bool
  | .string r _, need, _, _ =>
    .ofRule r need.met_of_settled fun _ _ _ _ => .pure fun _ => Ty.settled_string
  | .var r module name, need, h, hs => by
    refine .ofRule r (fun _ h => h) fun _ _ _ _ => .var hv (fun hmodule => ?_) need.met_of_settled
      fun value hvalue => ?_
    · exact h name.name (by simp [mentions, hmodule])
    · rw [steady, Bool.or_eq_true, beq_iff_eq] at hs
      obtain rfl | hsettled := hs
      · exact (hv.symbols.function? hvalue).saturated
      · exact need.met_of_settled _ (by simpa [View.named?, hvalue] using hsettled)
  | .call r module name typeArgs args, need, h, hs => by
    rw [steady, Bool.and_eq_true, Bool.and_eq_true, Bool.or_eq_true, beq_iff_eq] at hs
    obtain ⟨⟨htypes, hfixed⟩, hargs⟩ := hs
    obtain ⟨hname, hmentions⟩ := List.forall_mem_append.1 h
    have hparts := steady_parts hv args _ hmentions hargs
    rw [met_ite] at hparts
    refine .ofRule r need.met_of_call fun _ _ _ hhint => .call hv (fun _ => htypes) hparts hhint
      (fun hmodule => ?_) fun value s hvalue hty => ?_
    · exact hname name.name (by simp [hmodule])
    · have hcallee : (v.named? module name).bind Ty.signature? = some s := by
        simp [View.named?, hvalue, hty, Ty.signature?]
      obtain ⟨s', hs', husable⟩ := hv.symbols.function? hvalue
      obtain rfl := Ty.function.inj (hty.symm.trans hs')
      rw [hcallee] at hfixed ⊢
      exact husable.serves hfixed
  | .methodCall r target name args, need, h, hs => by
    obtain ⟨htarget, hargs⟩ := List.forall_mem_append.1 h
    rw [steady, Bool.and_eq_true] at hs
    exact .ofRule r need.met_of_settled fun _ _ _ hhint => .methodCall hv
      (steady_part hv target .value htarget hs.1) name (steady_parts hv args .value hargs hs.2)
      hhint
  | .field r target name, need, h, hs =>
    .ofRule r need.met_of_settled
      fun _ _ _ _ => .field hv (steady_part hv target .value h hs) name
  | .index r target position, need, h, hs => by
    obtain ⟨htarget, hposition⟩ := List.forall_mem_append.1 h
    rw [steady, Bool.and_eq_true] at hs
    exact .ofRule r need.met_of_settled fun _ _ _ _ => .index hv
      (steady_part hv target .value htarget hs.1) (steady_part hv position .any hposition hs.2)
  | .unary r op operand, need, h, hs =>
    .ofRule r need.met_of_settled
      fun _ _ _ _ => .unary hv r op (steady_part hv operand .value h hs)
  | .binary r left op right, need, h, hs => by
    obtain ⟨hleft, hright⟩ := List.forall_mem_append.1 h
    rw [steady, Bool.and_eq_true] at hs
    have hleft := steady_part hv left _ hleft hs.1
    have hright := steady_part hv right _ hright hs.2
    rw [met_ite] at hleft hright
    exact .ofRule r need.met_of_settled fun _ _ _ _ => .binary hv r op hleft hright
  | .block r expressions, need, h, hs => by
    obtain ⟨hrest, hlast⟩ := steady_block hv expressions need h hs
    exact .ofRule r (fun _ h => h) fun _ _ _ hhint =>
      .block (need.met_of_settled _ Ty.settled_unit) hhint hrest hlast
  | .declare r isConst binding type value, need, h, hs => by
    rw [steady, Bool.and_eq_true, Option.all_eq_true] at hs
    have hvalue := steady_part hv value _ h hs.2
    rw [met_ite] at hvalue
    exact .ofRule r need.met_of_settled
      fun _ _ _ _ => .declare hv r isConst binding hs.1 hvalue
  | .assign r name op value, need, h, hs => by
    have hvalue := steady_part hv value _ (List.forall_mem_cons.1 h).2 hs
    rw [met_ite] at hvalue
    exact .ofRule r need.met_of_settled fun _ _ _ _ => .assign hv name op hvalue
  | .fieldAssign r target name op value, need, h, hs => by
    obtain ⟨htarget, hmentions⟩ := List.forall_mem_append.1 h
    rw [steady, Bool.and_eq_true] at hs
    have hvalue := steady_part hv value _ hmentions hs.2
    rw [met_ite] at hvalue
    exact .ofRule r need.met_of_settled fun _ _ _ _ => .fieldAssign hv
      (steady_part hv target .value htarget hs.1) name op hvalue
  | .ifThen r condition thenBranch none, need, h, hs => by
    obtain ⟨hcondition, hthen⟩ := List.forall_mem_append.1 h
    rw [steady, Bool.and_eq_true] at hs
    exact .ofRule r need.met_of_settled fun _ _ _ hhint => .ifThen (R := fun _ => False)
      (steady_part hv condition .any hcondition hs.1)
      (steady_part hv thenBranch .any (List.forall_mem_append.1 hthen).1 hs.2)
      (by simp [wrapped?]) (fun _ => Ty.settled_unit) (fun _ _ _ _ hfalse => hfalse.elim) hhint
  | .ifThen r condition thenBranch (some elseBranch), need, h, hs => by
    obtain ⟨hcondition, hbranches⟩ := List.forall_mem_append.1 h
    obtain ⟨hthen, helse⟩ := List.forall_mem_append.1 hbranches
    simp only [steady, Bool.and_eq_true, Bool.or_eq_true, bne_iff_ne] at hs
    obtain ⟨⟨⟨hc, ht⟩, he⟩, hvalue⟩ := hs
    have hrule {Q R : Ty → Prop} (hthen : thenBranch.part.Steady v Q)
        (helse : elseBranch.part.Steady v R)
        (hjoin : ∀ a b t, Q a → R b → Ty.Joins a b t → need.Met v.registry t) :
        (Expr.ifThen r condition thenBranch (some elseBranch)).part.Steady v
          (need.Met v.registry) :=
      .ofRule r (fun _ h => h) fun _ _ _ hhint => .ifThen
        (steady_part hv condition .any hcondition hc) hthen
        (fun _ hpart => Option.some.inj hpart ▸ helse) nofun hjoin hhint
    have hboth := hrule (steady_part hv thenBranch _ hthen ht)
      (steady_part hv elseBranch _ helse he)
    cases need with
    | any => exact hboth (Need.met_joins .any)
    | branch => exact hboth (Need.met_joins .branch)
    | value =>
      obtain (hneed | hvalue) | hvalue := hvalue
      · exact absurd rfl hneed
      · exact hrule (steady_part hv thenBranch .value hthen hvalue)
          (steady_part hv elseBranch .branch helse he)
          fun a b t ha hb => Need.settled_joins (.inr ha) hb (.inl ha)
      · exact hrule (steady_part hv thenBranch .branch hthen ht)
          (steady_part hv elseBranch .value helse hvalue)
          fun a b t ha hb => Need.settled_joins ha (.inr hb) (.inr hb)
  | .whileLoop r condition body, need, h, hs => by
    obtain ⟨hcondition, hbody⟩ := List.forall_mem_append.1 h
    rw [steady, Bool.and_eq_true] at hs
    exact .ofRule r need.met_of_settled fun _ _ _ _ => .whileLoop
      (steady_part hv condition .any hcondition hs.1) (steady_part hv body .any hbody hs.2)
  | .forLoop r binding source body, need, h, hs => by
    obtain ⟨hsource, hbody⟩ := List.forall_mem_append.1 h
    rw [steady, Bool.and_eq_true] at hs
    exact .ofRule r need.met_of_settled fun _ _ _ _ => .forLoop hv binding
      (steady_part hv source .value hsource hs.1) (steady_part hv body .any hbody hs.2)
  | .breakLoop r, need, _, hs | .continueLoop r, need, _, hs =>
    .ofRule r (met_of_unknown (bne_iff_ne.1 hs)) fun _ _ _ _ => .leaveLoop _ r
  | .returnValue r value, need, h, hs => by
    rw [steady, Bool.and_eq_true, bne_iff_ne] at hs
    exact .ofRule r (met_of_unknown hs.1)
      fun _ _ _ _ => .returnValue r (steady_part? hv value h hs.2)
  | .lambda r params body, need, h, hs => by
    rw [steady, Bool.and_eq_true] at hs
    have hbody := steady_part hv body _ h hs.2
    rw [met_parts] at hbody
    refine .ofRule r need.met_of_sound
      fun _ _ _ hhint => .lambda hv r (fun param hparam => ?_) hbody hhint
    exact (Option.all_eq_true _ _).1 (List.all_eq_true.1 hs.1 param hparam)
  | .array r elements, need, h, hs => by
    have helements := steady_parts hv elements _ h hs
    rw [met_parts] at helements
    exact .ofRule r need.met_of_sound fun _ _ _ hhint => .array r helements hhint
  | .tuple r items, need, h, hs => by
    have hitems := steady_parts hv items _ h hs
    rw [met_parts] at hitems
    exact .ofRule r need.met_of_sound fun _ _ _ hhint => .tuple hitems hhint
  | .record r items, need, h, hs => by
    have hitems := steady_itemParts hv items _ h hs
    rw [met_parts] at hitems
    exact .ofRule r need.met_of_sound fun _ _ _ hhint => .record hv hitems hhint
  | .interval r low high _, need, h, hs => by
    obtain ⟨hlow, hhigh⟩ := List.forall_mem_append.1 h
    rw [steady, Bool.and_eq_true] at hs
    exact .ofRule r need.met_of_settled fun _ _ _ _ => .interval
      (steady_part hv low .any hlow hs.1) (steady_part hv high .any hhigh hs.2)
  | .bracket r inner, need, h, hs =>
    .ofRule r (fun _ h => h) (steady_part hv inner need h hs)

theorem steady_parts (hv : v.Settled knows) : (es : List Expr) → (need : Need) →
    (∀ name ∈ mentionsOfList es, knows name) → steadyList v es need = true →
    ∀ part ∈ parts es, part.Steady v (need.Met v.registry)
  | [], _, _, _ => nofun
  | e :: rest, need, h, hs => by
    obtain ⟨hfirst, hrest⟩ := List.forall_mem_append.1 h
    rw [steadyList, Bool.and_eq_true] at hs
    exact List.forall_mem_cons.2
      ⟨steady_part hv e need hfirst hs.1, steady_parts hv rest need hrest hs.2⟩

theorem steady_itemParts (hv : v.Settled knows) : (items : List (Ident × Expr)) → (need : Need) →
    (∀ name ∈ mentionsOfItems items, knows name) → steadyItems v items need = true →
    ∀ item ∈ itemParts items, item.2.Steady v (need.Met v.registry)
  | [], _, _, _ => nofun
  | (_, e) :: rest, need, h, hs => by
    obtain ⟨hfirst, hrest⟩ := List.forall_mem_append.1 h
    rw [steadyItems, Bool.and_eq_true] at hs
    exact List.forall_mem_cons.2
      ⟨steady_part hv e need hfirst hs.1, steady_itemParts hv rest need hrest hs.2⟩

theorem steady_block (hv : v.Settled knows) : (es : List Expr) → (need : Need) →
    (∀ name ∈ mentionsOfList es, knows name) → steadyBlock v es need = true →
    (∀ part ∈ (parts es).dropLast, part.Steady v (Need.any.Met v.registry)) ∧
      ∀ last ∈ (parts es).getLast?, last.Steady v (need.Met v.registry)
  | [], _, _, _ => ⟨nofun, nofun⟩
  | [last], need, h, hs => by
    have hlast := steady_part hv last need (List.forall_mem_append.1 h).1 hs
    exact ⟨nofun, fun part hpart => Option.some.inj hpart ▸ hlast⟩
  | first :: next :: rest, need, h, hs => by
    obtain ⟨hfirst, hmentions⟩ := List.forall_mem_append.1 h
    simp only [steadyBlock, Bool.and_eq_true] at hs
    obtain ⟨hrest, hlast⟩ := steady_block hv (next :: rest) need hmentions hs.2
    exact ⟨List.forall_mem_cons.2 ⟨steady_part hv first .any hfirst hs.1, hrest⟩, hlast⟩

theorem steady_part? (hv : v.Settled knows) : (e : Option Expr) →
    (∀ name ∈ mentions? e, knows name) → steady? v e = true →
    ∀ part ∈ part? e, part.Steady v (Need.any.Met v.registry)
  | none, _, _ => nofun
  | some e, h, hs => fun _ hpart => Option.some.inj hpart ▸ steady_part hv e .any h hs
end

end Expr

end ScriptCheck
