import ScriptCheck.Proofs.RegimeNames

/-!
# Operators, assignments and branches under a regime

The rules for operators, for expressions that declare variables or assign to them, and for those
that decide what is run. Blocks, branches and loop bodies have their effects in scopes of their own.
-/

namespace ScriptCheck

open Check

namespace Regime

variable {G : Type} [Effects G] {L : Regime G} {x : L.Site} {g h k : G}
  {hint : Option Ty} {name : Ident} {range : Range} {parts parts' : List Part}
  {value value' : Part} {v v' : View} {c c' : Checker} {target target' : Part}

/-! ## Operators -/

/-- The overload that is found is the same in both runs, and has a good result. -/
theorem search (overloads : Symbols → List Overload) (other : Ty)
    (hfind : ∀ {v v'}, L.Like v v' →
      v'.symbols.pick? (overloads v'.symbols) other = v.symbols.pick? (overloads v.symbols) other ∧
      ∀ found ∈ v.symbols.pick? (overloads v.symbols) other, L.Good found.result) :
    L.Keeps x (fun found => ∀ o ∈ found, L.Good o.result) (search overloads other) := by
  rw [search_eq]
  refine symbols fun v v' hv => ?_
  obtain ⟨hsame, hgood⟩ := hfind hv
  rw [hsame]
  exact pure hgood

/-- The rule for a unary operator has the effect of the operand. -/
theorem unary (hrange : L.margins.spots range) (op : Operator) {operand operand' : Part}
    (ho : operand.Runs L g operand') :
    L.Runs x g L.Good (unary range op operand x.id) (unary range op operand' x.id') := by
  refine ho.alone.settle fun ty hty => ?_
  unfold unaryOf
  split
  · exact pure L.good_unknown
  · refine (search (·.prefixOverloads ty op) Ty.unit
      (L.like_prefixOperator? op · hty (L.good_prelude _))).quiet fun found hfound => ?_
    cases found with
    | some found => exact pure (hfound found rfl)
    | none => exact complaint rfl rfl hrange

/-- The result of an operator is a good type, the same in both runs. -/
theorem apply {range range' : Range} (hspot : L.margins.spots range) (hrange : range' = range)
    {left : Ty} (op : Operator)
    {right : Ty} (hleft : L.Good left) (hright : L.Good right) :
    L.Runs x 1 L.Good (apply range left op right) (apply range' left op right) := by
  subst hrange
  unfold Check.apply
  split
  · exact pure L.good_unknown
  · refine (search (·.suffixOverloads left op) right
      (L.like_suffixOperator? op · hleft hright)).quiet fun found hfound => ?_
    cases found with
    | some found => exact pure (hfound found rfl)
    | none =>
      refine (search (·.prefixOverloads right op) left
        (L.like_prefixOperator? op · hright hleft)).quiet fun found hfound => ?_
      cases found with
      | some found => exact pure (hfound found rfl)
      | none => exact complaint rfl rfl hspot

/-- The rule for a binary operator: the effects of both operands follow each other. -/
theorem binary (hrange : L.margins.spots range) {left left' : Part} (op : Operator)
    {right right' : Part} (hl : left.Runs L g left') (hr : right.Runs L h right') :
    L.Runs x (g * h) L.Good (binary range left op right x.id)
      (binary range left' op right' x.id') := by
  have hbool : L.Good Ty.bool := L.good_prelude _
  unfold Check.binary
  split
  · exact (require hl (L.hint hbool)).bind fun _ _ =>
      (require hr (L.hint hbool)).settle fun _ _ => pure hbool
  · exact hl.alone.bind fun _ hleft => hr.alone.settle fun _ hright =>
      apply hrange rfl op hleft hright

/-! ## Declarations and assignments -/

/-- Fields of a good type have good types, one for each name. -/
theorem fieldTypes (hv : L.Like v v') {ty : Ty} (hty : L.Good ty) :
    (names : List Ident) → (∀ name ∈ names, L.Binds name) →
    L.Runs x 1 (fun types => types.length = names.length ∧ ∀ t ∈ types, L.Good t)
      (fieldTypes v.symbols ty names) (fieldTypes v'.symbols ty names)
  | [], _ => pure ⟨rfl, List.forall_mem_nil _⟩
  | name :: rest, h => by
    obtain ⟨hname, hnames⟩ := List.forall_mem_cons.1 h
    obtain ⟨hsame, hgood⟩ := L.like_field? name.name hv (L.hint hty)
    have hrest {t : Ty} (ht : L.Good t) := (fieldTypes hv hty rest hnames).quiet fun types htypes =>
      pure (L := L) (x := x) (P := fun types => types.length = (name :: rest).length ∧
        ∀ t ∈ types, L.Good t) (a := t :: types)
        ⟨congrArg (· + 1) htypes.1, List.forall_mem_cons.2 ⟨ht, htypes.2⟩⟩
    rw [Check.fieldTypes, Check.fieldTypes, hsame]
    split
    · rename_i found hfound
      exact hrest ((hgood found hfound).2 hty)
    · exact (error rfl rfl hname.spot).quiet fun _ _ => hrest L.good_unknown

/-- A value of a good type is taken apart into good types, one for each name. -/
theorem destructured {names : List Ident} (hnames : ∀ name ∈ names, L.Binds name) {ty : Ty}
    (hty : L.Good ty) {range range' : Range} (hspot : L.margins.spots range)
    (hrange : range' = range) :
    L.Runs x 1 (fun types => types.length = names.length ∧ ∀ t ∈ types, L.Good t)
      (destructured names ty range) (destructured names ty range') := by
  subst hrange
  have hunknown : ∀ t ∈ names.map fun _ => Ty.unknown, L.Good t := by
    intro t ht
    obtain ⟨-, -, rfl⟩ := List.mem_map.1 ht
    exact L.good_unknown
  unfold Check.destructured
  split
  · exact pure ⟨List.length_map _, hunknown⟩
  · rename_i items
    have hitems : ∀ t ∈ (List.range names.length).map fun i => (items[i]?).getD .unknown,
        L.Good t := by
      intro t ht
      obtain ⟨i, -, rfl⟩ := List.mem_map.1 ht
      exact good_getD fun t ht => L.good_tuple.2 hty t (List.mem_of_getElem? ht)
    have hlength := (List.length_map fun i => (items[i]?).getD .unknown).trans
      (List.length_range (n := names.length))
    split
    · exact pure ⟨hlength, hitems⟩
    · rename_i hcount
      exact (miscount _ hcount hspot).quiet fun _ _ => pure ⟨hlength, hitems⟩
  · exact symbols fun v v' hv => fieldTypes hv hty names hnames
  · exact (error rfl rfl hspot).quiet fun _ _ => pure ⟨List.length_map _, hunknown⟩

/-- A value is taken apart, which binds the names. -/
theorem destructure {names : List Ident} (hnames : ∀ name ∈ names, L.Binds name) {ty : Ty}
    (hty : L.Good ty) (isConst inferred : Bool) {range range' : Range}
    (hspot : L.margins.spots range) (hrange : range' = range) :
    L.Runs x (Effects.binds names) Any
      (destructure x.id names ty isConst inferred range)
      (destructure x.id' names ty isConst inferred range') := by
  refine (destructured hnames hty hspot hrange).quiet fun types htypes => ?_
  have hvars := declareVars (L := L) (x := x) isConst inferred (names.zip types) fun v hv =>
    ⟨hnames _ (List.of_mem_zip hv).1, htypes.2 _ (List.of_mem_zip hv).2⟩
  rwa [List.map_fst_zip htypes.1.ge] at hvars

/-- The type of a declaration is good, be it written or found. -/
theorem declaredType {declared : Option Ty} (hdeclared : ∀ t ∈ declared, L.Good t)
    (hv : value.Runs L g value') :
    L.Runs x g L.Good (declaredType declared value x.id)
      (declaredType declared value' x.id') := by
  refine (hv.check x fun t ht => L.hint (hdeclared t ht)).settle fun found hfound => ?_
  cases declared with
  | some expected =>
    have hexpected := hdeclared expected rfl
    exact (expect (L.hint hexpected) hfound hv.spot hv.range).quiet fun _ _ => pure hexpected
  | none => exact pure hfound

/-- The rule for `let` and `const`: after the effect of the value the names are bound. -/
theorem declare (hrange : L.margins.spots range) (isConst : Bool) {binding : Binding}
    (hbinding : ∀ name ∈ binding.names, L.Binds name) {type : Option TypeSpec}
    (htype : ∀ spec ∈ type, L.Allows spec) (hv : value.Runs L g value') :
    L.Runs x (g * Effects.binds binding.names) L.Good
      (declare range isConst binding type value x.id)
      (declare range isConst binding type value' x.id') := by
  refine (annotated htype).quiet fun declared hdeclared =>
    (declaredType hdeclared hv).bind fun ty hty => ?_
  cases binding with
  | single name =>
    have hname := hbinding name List.mem_cons_self
    have hdeclare := unit (declareVar (x := x) hname hty isConst)
    rw [Binding.names, Effects.binds, List.map_singleton, List.prod_singleton]
    dsimp only
    split
    · split
      · exact (warn _ hname.spot).quiet fun _ _ => hdeclare
      · exact (inlay _ _).quiet fun _ _ => hdeclare
    · exact hdeclare
  | tuple names => exact unit (destructure hbinding hty _ _ hrange rfl)

/-- The value of an assignment has its effect. -/
theorem assigned {target : Ty} (htarget : L.Good target) (op : Option Operator)
    (hv : value.Runs L g value') :
    L.Runs x g Any (assigned target op value x.id)
      (assigned target op value' x.id') := by
  cases op with
  | none => exact require hv (L.hint htarget)
  | some op =>
    exact hv.alone.settle fun found hfound => (apply hv.spot hv.range op htarget hfound).quiet
      fun _ hresult => expect (L.hint htarget) hresult hv.spot hv.range

theorem noVariable (hv : L.Like v v') {name : String} (hname : L.Known name) :
    noVariable v'.symbols name = noVariable v.symbols name := by
  have hnone : ∀ m ∈ (none : Option String), L.Outside m := nofun
  rw [Check.noVariable, Check.noVariable, (L.like_constant? hv hnone fun _ => hname).1,
    (L.like_function? name hv hnone hints_none).1]

/-- The rule for an assignment: the name is used, then the value has its effect. -/
theorem assign (h : L.Reaches none name) (op : Option Operator) (hv : value.Runs L g value') :
    L.Runs x (Effects.use .var name * g) L.Good (assign name op value x.id)
      (assign name op value' x.id') := by
  obtain ⟨hplain, hname⟩ := h.plain
  have hvalue := unit (hv.alone (x := x))
  refine getAt fun c c' hc => ?_
  obtain ⟨hsame, hgood⟩ := L.rel_local? name.name hc x.same
  dsimp only
  rw [noVariable (L.like hc) hplain, hsame]
  have hfound := c.scopes.isSome_resolve? c.view.symbols x.id name.name none
  cases hlocal : c.scopes.local? x.id name.name with
  | none =>
    rw [hlocal, Option.isSome_none, Bool.false_or] at hfound
    cases hknown : c.view.symbols.knows name.name with
    | true =>
      rw [hknown] at hfound
      refine Terms.RunsAt.given (post_found rfl hfound) ((?_ : L.RunsOn x g _ _ _) c c')
      exact (error (isTyped_noVariable hknown) (compares_noVariable _ _) h.spot).quiet
        fun _ _ => hvalue
    | false =>
      rw [hknown] at hfound
      rw [noVariable_eq_undefined hknown]
      exact (unbound h.spot rfl hfound).bindAt fun _ _ _ => hvalue _ _
  | some v =>
    rw [hlocal, Option.isSome_some, Bool.true_or] at hfound
    refine Terms.RunsAt.given (post_found rfl hfound) ((?_ : L.RunsOn x g _ _ _) c c')
    refine (mark hname (L.rel_placed hc hlocal)).quiet fun _ _ => ?_
    split
    · exact (error rfl rfl h.spot).quiet fun _ _ => hvalue
    · exact unit (assigned (hgood v hlocal) op hv)

/-- The rule for an assignment to a field: the effects of target and value follow each other. -/
theorem fieldAssign (ht : target.Runs L g target') (hname : L.Refers .member name)
    (op : Option Operator) (hv : value.Runs L h value') :
    L.Runs x (g * h) L.Good (fieldAssign target name op value x.id)
      (fieldAssign target' name op value' x.id') := by
  have hvalue := unit (hv.alone (x := x))
  refine ht.alone.bind fun owner howner => ?_
  unfold fieldAssigned
  split
  · exact hvalue
  · refine symbols fun v v' hs => ?_
    obtain ⟨hsame, hgood⟩ := L.like_field? name.name hs (L.hint howner)
    rw [hsame]
    split
    · exact (error rfl rfl hname.spot).quiet fun _ _ => hvalue
    · rename_i found hfound
      refine (markField hname _ hs hfound).quiet fun _ _ => ?_
      split
      · exact (error rfl rfl hname.spot).quiet fun _ _ => hvalue
      · exact unit (assigned ((hgood found hfound).2 howner) op hv)

/-! ## Blocks, branches and loops -/

/-- Several parts, one after the other. -/
inductive PartsRun (L : Regime G) : List Part → List Part → G → Prop
  | nil : PartsRun L [] [] 1
  | cons {p p' : Part} {ps ps' : List Part} {g h : G} (hp : p.Runs L g p')
      (hrest : PartsRun L ps ps' h) : PartsRun L (p :: ps) (p' :: ps') (g * h)

/-- A part that may be missing. -/
inductive PartRun? (L : Regime G) : Option Part → Option Part → G → Prop
  | none : PartRun? L none none 1
  | some {p p' : Part} {g : G} (hp : p.Runs L g p') : PartRun? L (some p) (some p') g

/-- The expressions of a block have their effects one after the other. -/
theorem sequence (hhint : L.Hints hint) (hparts : PartsRun L parts parts' g) :
    L.Runs x g L.Good (sequence x.id hint parts) (sequence x.id' hint parts') := by
  induction hparts with
  | nil => exact pure (L.good_prelude _)
  | cons hp hrest ih =>
    cases hrest with
    | nil =>
      rw [mul_one]
      exact hp.check x hhint
    | cons _ _ => exact hp.alone.bind fun _ _ => ih

/-- The rule for a block: its expressions have their effect in a scope of its own. -/
theorem block (hparts : PartsRun L parts parts' g) (hhint : L.Hints hint) :
    L.Runs x (Effects.nest .block g) L.Good (block parts x.id hint)
      (block parts' x.id' hint) :=
  withinLast .block nofun fun _ => sequence hhint hparts

/-- The branches of an `if` give a good type if both have one. -/
theorem join {a b : Ty} (ha : L.Good a) (hb : L.Good b) : L.Keeps x L.Good (join a b) := by
  unfold Check.join
  split
  · exact pure hb
  · split
    · exact pure ha
    · refine (ask (L.hint ha) hb).quiet fun accepted _ => ?_
      split
      · exact pure ha
      · refine (ask (L.hint hb) ha).quiet fun accepted _ => ?_
        split
        · exact pure hb
        · exact pure (L.good_prelude _)

/-- The rule for `if`: the condition has its effect outside, each branch in a scope of its own. -/
theorem ifThen {condition condition' thenBranch thenBranch' : Part}
    {elseBranch elseBranch' : Option Part} (hc : condition.Runs L g condition')
    (ht : thenBranch.Runs L h thenBranch') (he : PartRun? L elseBranch elseBranch' k)
    (hhint : L.Hints hint) :
    L.Runs x (g * (Effects.nest .block h * Effects.nest .block k)) L.Good
      (ifThen condition thenBranch elseBranch x.id hint)
      (ifThen condition' thenBranch' elseBranch' x.id' hint) := by
  refine (require hc (L.hint (L.good_prelude _))).bind fun _ _ => ?_
  cases he with
  | none =>
    rw [Effects.nest_one]
    exact within .block nofun (fun _ => ht.alone) fun _ _ _ _ => pure (L.good_prelude _)
  | some he =>
    refine within .block nofun (fun _ => ht.check _ hhint) fun _ _ a ha => ?_
    rw [← mul_one (Effects.nest _ k)]
    exact within .block nofun (fun _ => he.check _ hhint) fun _ _ b hb => join ha hb

/-- The rule for `while`: the condition has its effect outside, the body in the loop. -/
theorem whileLoop {condition condition' body body' : Part} (hc : condition.Runs L g condition')
    (hb : body.Runs L h body') :
    L.Runs x (g * Effects.nest .loop h) L.Good (whileLoop condition body x.id)
      (whileLoop condition' body' x.id') :=
  (require hc (L.hint (L.good_prelude _))).bind fun _ _ =>
    withinLast .loop nofun fun _ => unit hb.alone

/-- The elements that a loop runs through have a good type. -/
theorem elementType {source source' : Part} (hs : source.Runs L g source') :
    L.Runs x g L.Good (elementType source x.id) (elementType source' x.id') := by
  unfold Check.elementType
  rw [hs.range]
  exact hs.alone.settle fun ty hty => elementOf .iteration (L.like_iterated? · hty) hs.spot

/-- The rule for `for`: the source has its effect outside; in the loop the names are bound first. -/
theorem forLoop {binding : Binding} (hbinding : ∀ name ∈ binding.names, L.Binds name)
    {source source' body body' : Part}
    (hs : source.Runs L g source') (hb : body.Runs L h body') :
    L.Runs x (g * Effects.nest .loop (Effects.binds binding.names * h)) L.Good
      (forLoop binding source body x.id) (forLoop binding source' body' x.id') := by
  refine (elementType hs).bind fun element helement =>
    withinLast .loop nofun fun y => ?_
  have hbody := unit (hb.alone (x := y))
  cases binding with
  | single name =>
    have hname := hbinding name List.mem_cons_self
    have hdeclare := (declareVar (x := y) hname helement false).bind fun _ _ => hbody
    rw [Binding.names, Effects.binds, List.map_singleton, List.prod_singleton]
    dsimp only
    split
    · exact hdeclare
    · exact (inlay _ _).quiet fun _ _ => hdeclare
  | tuple names =>
    exact (destructure hbinding helement _ _ hs.spot hs.range).bind fun _ _ => hbody

/-- There is nothing to jump out of, and a complaint. -/
theorem misplaced {jump : Jump} (hrange : L.margins.spots range)
    (hallows : (c.scopes.place x.id).allows jump = false) :
    L.RunsAt x (Effects.jump jump range) (Same Any)
      (Check.error (.misplaced jump) range) (Check.error (.misplaced jump) range) c c' := by
  intro hc
  have hpost := L.post_jump jump range x.id c
  rw [if_neg (by simp [hallows])] at hpost
  exact ⟨⟨rfl, trivial⟩, rel_error rfl hrange hc, hpost⟩

theorem post_allowed {jump : Jump} {id : Nat} {c : Checker}
    (hallows : (c.scopes.place id).allows jump = true) :
    L.Post id (Effects.jump jump range) c c := by
  have hpost := L.post_jump jump range id c
  rwa [if_pos hallows] at hpost

/-- The rule for `break` and `continue`: a jump, without a value. -/
theorem leaveLoop (jump : Jump) (hjump : jump ≠ .returnValue) (hrange : L.margins.spots range) :
    L.Runs x (Effects.jump jump range) L.Good (leaveLoop jump range x.id)
      (leaveLoop jump range x.id') := by
  rw [← mul_one (Effects.jump _ _)]
  refine getAt fun c c' hc => ?_
  have hallows : (c.scopes.place x.id).allows jump = c.scopes.inLoop x.id := by
    cases jump with
    | breakLoop | continueLoop => rfl
    | returnValue => exact absurd rfl hjump
  dsimp only
  rw [L.rel_inLoop hc x.same]
  cases hloop : c.scopes.inLoop x.id with
  | true => exact (pure L.good_unknown c c').given (post_allowed (hallows.trans hloop))
  | false =>
    exact (misplaced hrange (hallows.trans hloop)).bindAt fun _ _ _ => pure L.good_unknown _ _

/-- The rule for `return`: a jump, and the effect of the value. -/
theorem returnValue (hrange : L.margins.spots range) {value value' : Option Part}
    (hv : PartRun? L value value' g) :
    L.Runs x (Effects.jump .returnValue range * g) L.Good
      (returnValue range value x.id) (returnValue range value' x.id') := by
  have hunknown := pure (L := L) (x := x) L.good_unknown
  refine getAt fun c c' hc => ?_
  obtain ⟨hsame, hexpected⟩ := L.rel_returnType? hc x.same
  dsimp only
  rw [hsame]
  cases hresult : c.scopes.returnType? x.id with
  | none =>
    have hallows : (c.scopes.place x.id).allows .returnValue = false := by
      rw [Scopes.place, hresult]
      rfl
    refine (misplaced hrange hallows).bindAt fun _ _ _ => ?_
    cases hv with
    | some hv => exact (hv.alone.settle fun _ _ => hunknown) _ _
    | none => exact hunknown _ _
  | some expected =>
    have hallows : (c.scopes.place x.id).allows .returnValue = true := by
      rw [Scopes.place, hresult]
      rfl
    have hexpected := hexpected expected hresult
    refine Terms.RunsAt.given (post_allowed hallows) ?_
    cases hv with
    | some hv => exact ((require hv hexpected).settle fun _ _ => hunknown) c c'
    | none =>
      exact ((expect hexpected (L.good_prelude _) hrange rfl).quiet fun _ _ => hunknown) c c'

end Regime

end ScriptCheck
