import ScriptCheck.Proofs.SteadyChecks

/-!
# Steady statements and literals

The steady rules for declarations, assignments, blocks, branches, loops, lambdas and collections. A
variable enters its scope with a settled type; this is where a warning could be given, and only a
failed check gives one. Jumps have no type, so the value of a branch is settled if one side has a
value and the other side has one or is left by a jump.
-/

namespace ScriptCheck

theorem Ty.getD_unless_isUnknown (t : Ty) :
    (if t.isUnknown then none else some t).getD .unknown = t := by
  cases t <;> rfl

/-- The types that a value from two branches of the given types may have. -/
inductive Ty.Joins (a b : Ty) : Ty → Prop
  | left : a.isUnknown = false → Joins a b a
  | right : a.isUnknown = true ∨ b.isUnknown = false → Joins a b b
  | unit : a.isUnknown = false → b.isUnknown = false → Joins a b Ty.unit

namespace Check.Steady

variable {v : View} {knows : String → Prop} {p : Prop} {id : Nat} {Q : Ty → Prop} {hint : Option Ty}
  {slack : Slack} {value : Part}

/-! ## Declarations and assignments -/

/-- Variables of settled types enter the scope. -/
theorem declareVars (isConst inferred : Bool) : (vars : List (Ident × Ty)) →
    (p → ∀ var ∈ vars, var.2.Settled v.registry) →
    Steady v p Whatever (declareVars id isConst inferred vars)
  | [], _ => pure fun _ => trivial
  | (name, ty) :: rest, h => by
    have hdeclare := (declareVar id name (fun hp => h hp _ List.mem_cons_self) isConst).andThen
      (declareVars isConst inferred rest fun hp var hvar => h hp var (List.mem_cons_of_mem _ hvar))
    rw [Check.declareVars]
    split
    · exact (inlay _ _).andThen hdeclare
    · exact hdeclare

/-- A variable has the type it is declared with, or else the settled type of its value. -/
theorem declaredType {declared : Option Ty}
    (hdeclared : p → ∀ t ∈ declared, t.Settled v.registry) (hvalue : value.Steady v
      (Ty.Sound v.registry (if declared.isSome then .anything else .only []))) :
    Steady v p (Ty.Settled v.registry) (declaredType declared value id) := by
  refine (hvalue p id declared fun hp t ht => (hdeclared hp t ht).saturated).bind fun found => ?_
  cases declared with
  | some expected =>
    exact (expect _ _ _).bind fun _ => pure fun hp => hdeclared hp.1.1 expected rfl
  | none => exact pure And.right

section Settled

variable (hv : v.Settled knows)

include hv

/-- The fields of a value of settled type have settled types. -/
theorem fieldTypes (ty : Ty) : {p : Prop} →
    (p → ty.Settled v.registry) → (names : List Ident) →
    Steady v p (fun types => ∀ t ∈ types, t.Settled v.registry) (fieldTypes v.symbols ty names)
  | _, _, [] => pure fun _ => nofun
  | _, hty, name :: rest => by
    rw [Check.fieldTypes]
    split
    · rename_i found hfound
      exact (fieldTypes ty hty rest).bind fun types => pure fun hp =>
        List.forall_mem_cons.2 ⟨hv.symbols.field? (hty hp.1) hfound, hp.2⟩
    · exact errorThen _ _
        ((fieldTypes ty False.elim rest).bind fun _ => pure fun hp => hp.1.elim)

/-- What a value of settled type is taken apart into is of settled types. -/
theorem destructured (names : List Ident) {ty : Ty}
    (hty : p → ty.Settled v.registry) (range : Range) :
    Steady v p (fun types => ∀ t ∈ types, t.Settled v.registry)
      (destructured names ty range) := by
  unfold Check.destructured
  split
  · exact pure fun hp => absurd (hty hp).isUnknown_eq_false (by simp [Ty.isUnknown])
  · rename_i items
    split
    · rename_i hlength
      refine pure fun hp t ht => ?_
      obtain ⟨i, hi, rfl⟩ := List.mem_map.1 ht
      have hi : i < items.length := hlength ▸ List.mem_range.1 hi
      rw [List.getElem?_eq_getElem hi]
      exact Ty.sound_tuple.1 (hty hp) _ (List.getElem_mem hi)
    · exact fails _ _
  · exact symbols (fieldTypes hv _ hty names)
  · exact fails _ _

theorem destructure (names : List Ident) {ty : Ty}
    (hty : p → ty.Settled v.registry) (isConst inferred : Bool) (range : Range) :
    Steady v p Whatever (destructure id names ty isConst inferred range) :=
  (destructured hv names hty range).bind fun _ => declareVars isConst inferred _ fun hp _ hvar =>
    hp.2 _ (List.of_mem_zip hvar).2

/-- A warning is given for a value of unknown type only, which a steady check does not find. -/
theorem declareTyped (range : Range) (isConst : Bool) (binding : Binding)
    {declared : Option Ty} (hdeclared : p → ∀ t ∈ declared, t.Settled v.registry)
    (hvalue : value.Steady v
      (Ty.Sound v.registry (if declared.isSome then .anything else .only []))) :
    Steady v p (Ty.Settled v.registry)
      (declareTyped range isConst binding value id declared) := by
  refine (declaredType hdeclared hvalue).bind fun ty => ?_
  cases binding with
  | single name =>
    have hdeclare {p : Prop} (hty : p → ty.Settled v.registry) :
        Steady v p (Ty.Settled v.registry)
          (do Check.declareVar id name ty isConst; return Ty.unit) :=
      (declareVar id name hty isConst).andThen (pure fun _ => Ty.settled_unit)
    dsimp only
    split
    · split
      · rename_i hunknown
        refine (warn (fun hp => ?_) _ _).andThen (hdeclare And.right)
        simp [hp.2.isUnknown_eq_false] at hunknown
      · exact (inlay _ _).andThen (hdeclare And.right)
    · exact hdeclare And.right
  | tuple names =>
    exact (destructure hv names And.right _ _ _).andThen (pure fun _ => Ty.settled_unit)

/-- A declaration is steady if its annotation is saturated and its value is steady; without an
annotation the value needs a settled type. -/
theorem declare (range : Range) (isConst : Bool) (binding : Binding)
    {type : Option TypeSpec} (htype : ∀ spec ∈ type, spec.saturated v = true)
    (hvalue : value.Steady v
      (Ty.Sound v.registry (if type.isSome then .anything else .only []))) :
    Steady v p (Ty.Settled v.registry) (declare range isConst binding type value id) := by
  unfold Check.declare
  cases type with
  | none =>
    rw [Check.annotated, pure_bind]
    exact declareTyped hv range isConst binding (fun _ => nofun) hvalue
  | some spec =>
    rw [Check.annotated, bind_map_left]
    exact (checkSpec hv fun _ => htype spec rfl).bind fun declared =>
      declareTyped hv range isConst binding (fun hp t ht => Option.some.inj ht ▸ hp.2) hvalue

/-- The value of an assignment is compared with its target, or first combined with it by an
operator, which needs its settled type. -/
theorem assigned {target : Ty}
    (htarget : p → target.Settled v.registry) (op : Option Operator)
    (hvalue : value.Steady v
      (Ty.Sound v.registry (if op.isNone then .anything else .only []))) :
    Steady v p Whatever (assigned target op value id) := by
  cases op with
  | none => exact require hvalue fun hp => (htarget hp).saturated
  | some op =>
    exact (unhinted hvalue).bind fun found =>
      (apply hv _ op (fun hp => htarget hp.1) And.right).bind fun _ =>
        (expect _ _ _).imp (fun h => h) fun _ _ _ => trivial

/-- Variables have settled types. -/
theorem assign (name : Ident) (op : Option Operator) (hvalue : value.Steady v
      (Ty.Sound v.registry (if op.isNone then .anything else .only []))) :
    Steady v p (Ty.Settled v.registry) (assign name op value id) := by
  have hunit {p : Prop} : Steady v p (Ty.Settled v.registry) (Pure.pure Ty.unit) :=
    pure fun _ => Ty.settled_unit
  refine get fun c => ?_
  dsimp only
  split
  · exact errorThen _ _ ((ignored hvalue).andThen hunit)
  · rename_i found hlocal
    refine (mark _ _).andThen ?_
    split
    · exact errorThen _ _ ((ignored hvalue).andThen hunit)
    · exact (assigned hv (fun hp => hp.2.locals.local? hlocal) op hvalue).andThen hunit

/-- A field is assigned to in a value of settled type. -/
theorem fieldAssign {target : Part}
    (ht : target.Steady v (Ty.Settled v.registry)) (name : Ident) (op : Option Operator)
    (hvalue : value.Steady v
      (Ty.Sound v.registry (if op.isNone then .anything else .only []))) :
    Steady v p (Ty.Settled v.registry) (fieldAssign target name op value id) := by
  have hunit {p : Prop} : Steady v p (Ty.Settled v.registry) (Pure.pure Ty.unit) :=
    pure fun _ => Ty.settled_unit
  refine (unhinted ht).bind fun owner => ?_
  rw [fieldAssigned]
  split
  · exact (ignored hvalue).andThen hunit
  · refine symbols ?_
    split
    · exact errorThen _ _ ((ignored hvalue).andThen hunit)
    · rename_i found hfound
      refine (markField _ _ _).andThen ?_
      split
      · exact errorThen _ _ ((ignored hvalue).andThen hunit)
      · exact (assigned hv (fun hp => hv.symbols.field? hp.2 hfound) op hvalue).andThen hunit

end Settled

/-! ## Blocks, branches and loops -/

/-- A sequence has the property if its last expression has it. -/
theorem sequence (hunit : Q Ty.unit) : {p : Prop} →
    (p → ∀ t ∈ hint, t.Saturated v.registry) → {parts : List Part} →
    (∀ part ∈ parts.dropLast, part.Steady v (Ty.Saturated v.registry)) →
    (∀ last ∈ parts.getLast?, last.Steady v Q) → Steady v p Q (sequence id hint parts)
  | _, _, [], _, _ => pure fun _ => hunit
  | _, hhint, [last], _, h => h last rfl _ _ _ hhint
  | _, hhint, first :: next :: rest, hrest, h => by
    obtain ⟨hfirst, hrest⟩ := List.forall_mem_cons.1 hrest
    exact (ignored hfirst).andThen (sequence hunit hhint hrest h)

theorem block (hunit : Q Ty.unit) (hhint : p → ∀ t ∈ hint, t.Saturated v.registry)
    {parts : List Part}
    (hrest : ∀ part ∈ parts.dropLast, part.Steady v (Ty.Saturated v.registry))
    (hlast : ∀ last ∈ parts.getLast?, last.Steady v Q) : Steady v p Q (block parts id hint) :=
  (openBlock _).bind fun _ => sequence hunit (fun hp => hhint hp.1) hrest hlast

/-- Two branches have the type of one of them, and a known one if there is any. -/
theorem join (a b : Ty) : Steady v p (Ty.Joins a b) (join a b) := by
  unfold Check.join
  split
  · rename_i ha
    exact pure fun _ => .right (.inl ha)
  · rename_i ha
    have ha := Bool.eq_false_of_not_eq_true ha
    split
    · exact pure fun _ => .left ha
    · rename_i hb
      have hb := Bool.eq_false_of_not_eq_true hb
      refine ask fun answer => ?_
      split
      · exact pure fun _ => .left ha
      · refine ask fun answer => ?_
        split
        · exact pure fun _ => .right (.inr hb)
        · exact pure fun _ => .unit ha hb

/-- A conditional has the property if what both branches have together has it, and `Unit` where
there is one branch only. -/
theorem ifThen {Q R S : Ty → Prop} {condition thenBranch : Part} {elseBranch : Option Part}
    (hc : condition.Steady v (Ty.Saturated v.registry)) (ht : thenBranch.Steady v Q)
    (he : ∀ other ∈ elseBranch, other.Steady v R) (hunit : elseBranch = none → S Ty.unit)
    (hjoin : ∀ a b t, Q a → R b → Ty.Joins a b t → S t)
    (hhint : p → ∀ t ∈ hint, t.Saturated v.registry) :
    Steady v p S (ifThen condition thenBranch elseBranch id hint) := by
  refine (require hc fun _ => Ty.settled_bool.saturated).andThen <|
    (openBlock _).bind fun inner => ?_
  cases elseBranch with
  | none => exact (ignored ht).andThen (pure fun _ => hunit rfl)
  | some other =>
    exact (ht _ _ _ fun hp => hhint hp.1).bind fun a => (openBlock _).bind fun _ =>
      (he other rfl _ _ _ fun hp => hhint hp.1.1.1).bind fun b =>
        (join a b).imp (fun h => h) fun t hp ht => hjoin a b t hp.1.1.2 hp.2 ht

theorem whileLoop {condition body : Part}
    (hc : condition.Steady v (Ty.Saturated v.registry))
    (hb : body.Steady v (Ty.Saturated v.registry)) :
    Steady v p (Ty.Settled v.registry) (whileLoop condition body id) :=
  (require hc fun _ => Ty.settled_bool.saturated).andThen <| (openLoop _).bind fun _ =>
    (ignored hb).andThen (pure fun _ => Ty.settled_unit)

/-- A loop runs through values of settled type. -/
theorem elementType (hv : v.Settled knows) {source : Part}
    (h : source.Steady v (Ty.Settled v.registry)) :
    Steady v p (Ty.Settled v.registry) (elementType source id) :=
  (unhinted h).bind fun _ =>
    elementOf And.right (fun _ helement hty => hv.symbols.iterated? hty.2 helement) _ _

/-- The variables of a loop have settled types. -/
theorem forLoop (hv : v.Settled knows) (binding : Binding) {source body : Part}
    (hs : source.Steady v (Ty.Settled v.registry))
    (hb : body.Steady v (Ty.Saturated v.registry)) :
    Steady v p (Ty.Settled v.registry) (forLoop binding source body id) := by
  refine (elementType hv hs).bind fun element => (openLoop _).bind fun inner => ?_
  have hbody {p : Prop} : Steady v p (Ty.Settled v.registry)
      (do let _ ← body.check inner none; return Ty.unit) :=
    (ignored hb).andThen (pure fun _ => Ty.settled_unit)
  cases binding with
  | single name =>
    have hdeclare := (declareVar inner name (fun hp => hp.1.2) false).andThen (hbody (p :=
      (p ∧ element.Settled v.registry) ∧ Whatever inner))
    dsimp only
    split
    · exact hdeclare
    · exact (inlay _ _).andThen hdeclare
  | tuple names => exact (destructure hv names (fun hp => hp.1.2) _ _ _).andThen hbody

/-- A jump has no type. -/
theorem leaveLoop (jump : Jump) (range : Range) :
    Steady v p (fun t => t = .unknown) (leaveLoop jump range id) := by
  refine get fun c => ?_
  dsimp only
  split
  · exact pure fun _ => rfl
  · exact fails _ _

/-- A result is compared with a saturated type. -/
theorem returnValue (range : Range) {value : Option Part}
    (hvalue : ∀ part ∈ value, part.Steady v (Ty.Saturated v.registry)) :
    Steady v p (fun t => t = .unknown) (returnValue range value id) := by
  refine get fun c => ?_
  dsimp only
  split
  · refine errorThen _ _ ?_
    cases value with
    | some value => exact (ignored (hvalue value rfl)).andThen (pure fun _ => rfl)
    | none => exact pure fun _ => rfl
  · rename_i expected hexpected
    have hsaturated (hc : c.Settled v) : expected.Saturated v.registry := by
      obtain ⟨scope, hscope, hkind⟩ := List.exists_of_findSome?_eq_some hexpected
      split at hkind
      · rename_i result hresult
        exact Option.some.inj hkind ▸
          hc.results scope (Scopes.mem_scopes_of_mem_chain hscope) result hresult
      · cases hkind
    cases value with
    | some value =>
      exact (require (hvalue value rfl) fun hp => hsaturated hp.2).andThen (pure fun _ => rfl)
    | none => exact (expect _ _ _).bind fun _ => pure fun _ => rfl

/-! ## Lambdas and collections -/

/-- A parameter without an annotation takes its type from the hint, if it is concrete there. -/
theorem lambdaParam (hv : v.Settled knows) {param : LambdaParam}
    (hspec : ∀ spec ∈ param.type, spec.saturated v = true) {expected : Option Ty}
    (hexpected : p → ∀ t ∈ expected, t.Saturated v.registry) :
    Steady v p (Ty.Settled v.registry) (lambdaParam param expected) := by
  unfold Check.lambdaParam
  split
  · rename_i spec htype
    exact checkSpec hv fun _ => hspec spec htype
  · split
    · rename_i ty hty
      obtain ⟨hmem, hconcrete⟩ := Option.filter_eq_some_iff.1 hty
      exact (inlay _ _).andThen
        (pure fun hp => (hexpected hp ty hmem).settled_of_isConcrete hconcrete)
    · exact fails _ _

theorem lambdaParams (hv : v.Settled knows) : {p : Prop} → {params : List LambdaParam} →
    (∀ param ∈ params, ∀ spec ∈ param.type, spec.saturated v = true) →
    {expected : List (Param Ty)} →
    (p → ∀ param ∈ expected, param.ty.Saturated v.registry) →
    Steady v p (fun types => ∀ param ∈ types, param.ty.Settled v.registry)
      (lambdaParams params expected)
  | _, [], _, _, _ => pure fun _ => nofun
  | _, param :: rest, hspecs, expected, hexpected => by
    obtain ⟨hspec, hrest⟩ := List.forall_mem_cons.1 hspecs
    refine (lambdaParam hv hspec fun hp t ht => ?_).bind fun ty =>
      (lambdaParams hv hrest fun hp param hparam =>
        hexpected hp.1 param (List.mem_of_mem_tail hparam)).bind fun types =>
          pure fun hp => List.forall_mem_cons.2 ⟨hp.1.2, hp.2⟩
    obtain ⟨first, hfirst, rfl⟩ := Option.map_eq_some_iff.1 ht
    exact hexpected hp first (List.mem_of_mem_head? hfirst)

/-- A parameter enters its scope with a settled type, unless it is complained about. -/
theorem enterUnseen (seen : List String) (name : Ident) {ty : Ty}
    (hty : p → ty.Settled v.registry) : Steady v p Whatever (enterUnseen id seen name ty) := by
  unfold Check.enterUnseen
  split
  · exact error _ _
  · exact enterParam id name hty

theorem enterParams : (seen : List String) → {params : List (Ident × Ty)} →
    (p → ∀ param ∈ params, param.2.Settled v.registry) →
    Steady v p Whatever (enterParams id seen params)
  | _, [], _ => pure fun _ => trivial
  | seen, (name, ty) :: rest, h => by
    have hrest := enterParams (name.name :: seen) fun hp => (List.forall_mem_cons.1 (h hp)).2
    exact (enterUnseen seen name fun hp => (List.forall_mem_cons.1 (h hp)).1).andThen hrest

/-- A lambda is as sound as its body. -/
theorem lambda (hv : v.Settled knows) (range : Range) {params : List LambdaParam}
    (hspecs : ∀ param ∈ params, ∀ spec ∈ param.type, spec.saturated v = true) {body : Part}
    (hb : body.Steady v (Ty.Sound v.registry slack))
    (hhint : p → ∀ t ∈ hint, t.Saturated v.registry) :
    Steady v p (Ty.Sound v.registry slack) (lambda range params body id hint) := by
  have hexpected (hp : p) : ∀ e ∈ hint.bind Ty.signature?,
      (∀ param ∈ e.params, param.ty.Saturated v.registry) ∧
        e.result.Saturated v.registry := by
    intro e he
    obtain ⟨t, ht, hsignature⟩ := Option.bind_eq_some_iff.1 he
    cases t <;> simp only [Ty.signature?, reduceCtorEq, Option.some.injEq] at hsignature
    exact hsignature ▸ (Ty.sound_function.1 (hhint hp _ ht)).2
  have hparams (hp : p) : ∀ param ∈ ((hint.bind Ty.signature?).map Signature.params).getD [],
      param.ty.Saturated v.registry := by
    cases he : hint.bind Ty.signature? with
    | none => exact List.forall_mem_nil _
    | some e => exact (hexpected hp e he).1
  have hresult (hp : p) : ∀ t ∈ ((hint.bind Ty.signature?).map Signature.result).filter
      Ty.isConcrete, t.Saturated v.registry := by
    intro t ht
    obtain ⟨e, he, rfl⟩ := Option.map_eq_some_iff.1 (Option.filter_eq_some_iff.1 ht).1
    exact (hexpected hp e he).2
  unfold Check.lambda
  dsimp only
  split
  case' h_1 => split
  case' h_1.isFalse => refine (error _ _).andThen ?_
  all_goals
    refine (lambdaParams hv hspecs hparams).bind fun types =>
      (openScope _ fun hp t ht => ?scope).bind fun inner =>
        (enterParams [] fun hp param hparam => ?params).andThen <|
          (hb _ _ _ fun hp => hresult hp.1.1).bind fun result =>
            pure fun hp => Ty.sound_function.2
              ⟨.inr rfl, fun param hparam => (hp.1.1.2 param hparam).loosen, hp.2⟩
    case scope =>
      obtain rfl := ScopeKind.function.inj ht
      cases hresultHint : (Option.filter Ty.isConcrete
          ((hint.bind Ty.signature?).map Signature.result)) with
      | none => exact Ty.saturated_unknown
      | some t => exact hresult hp.1 t hresultHint
    case params =>
      rw [← List.map_uncurry_zip_eq_zipWith] at hparam
      obtain ⟨⟨_, ty⟩, hmem, rfl⟩ := List.mem_map.1 hparam
      exact hp.1.2 ty (List.of_mem_zip hmem).2

/-- The elements of an array have the type of the first that has one. -/
theorem elements : {p : Prop} → {element : Option Ty} →
    (p → (element.getD .unknown).Sound v.registry slack) → {parts : List Part} →
    (∀ part ∈ parts, part.Steady v (Ty.Sound v.registry slack)) →
    Steady v p (fun found => (found.getD .unknown).Sound v.registry slack)
      (elements id element parts)
  | _, _, helement, [], _ => pure helement
  | _, element, helement, part :: rest, h => by
    obtain ⟨hpart, hrest⟩ := List.forall_mem_cons.1 h
    refine (hpart _ _ _ fun hp t ht => ?_).bind fun found => ?_
    · rw [Option.mem_def.1 ht] at helement
      exact (helement hp).saturated
    · cases element with
      | none => exact elements (fun hp => (Ty.getD_unless_isUnknown found).symm ▸ hp.2) hrest
      | some expected =>
        exact (expect _ _ _).bind fun _ => elements (fun hp => helement hp.1.1) hrest

/-- An array is as sound as its elements. -/
theorem array (range : Range) {parts : List Part}
    (h : ∀ part ∈ parts, part.Steady v (Ty.Sound v.registry slack))
    (hhint : p → ∀ t ∈ hint, t.Saturated v.registry) :
    Steady v p (Ty.Sound v.registry slack) (array range parts id hint) := by
  have helement (hp : p) : ∀ t ∈ elementHint hint, t.Settled v.registry := by
    intro t ht
    unfold Check.elementHint at ht
    split at ht
    · split at ht
      · rename_i element hconcrete
        cases ht
        exact (Ty.sound_array.1 (hhint hp _ rfl)).settled_of_isConcrete hconcrete
      · cases ht
    · cases ht
  cases parts with
  | nil =>
    unfold Check.array
    cases hhint : elementHint hint with
    | none => exact fails _ _
    | some element => exact pure fun hp => Ty.sound_array.2 (helement hp element hhint).loosen
  | cons part rest =>
    obtain ⟨hpart, hrest⟩ := List.forall_mem_cons.1 h
    unfold Check.array
    cases hhint : elementHint hint with
    | none =>
      have hfound : Steady v p (fun found => (found.getD .unknown).Sound v.registry slack)
          (Check.elements id none (part :: rest)) :=
        (unhinted hpart).bind fun found =>
          elements (fun hp => (Ty.getD_unless_isUnknown found).symm ▸ hp.2) hrest
      exact hfound.bind fun found => pure fun hp => Ty.sound_array.2 hp.2
    | some element =>
      exact (elements (fun hp => (helement hp element hhint).loosen) h).bind fun found =>
        pure fun hp => Ty.sound_array.2 hp.2

theorem tupleItems : {p : Prop} → {hints : List Ty} →
    (p → ∀ t ∈ hints, t.Saturated v.registry) → {parts : List Part} →
    (∀ part ∈ parts, part.Steady v (Ty.Sound v.registry slack)) →
    Steady v p (fun types => ∀ t ∈ types, t.Sound v.registry slack)
      (tupleItems id hints parts)
  | _, _, _, [], _ => pure fun _ => nofun
  | _, hints, hhints, item :: rest, h => by
    obtain ⟨hitem, hrest⟩ := List.forall_mem_cons.1 h
    exact (hitem _ _ _ fun hp t ht => hhints hp t (List.mem_of_mem_head? ht)).bind fun ty =>
      (tupleItems (fun hp t ht => hhints hp.1 t (List.mem_of_mem_tail ht)) hrest).bind fun types =>
        pure fun hp => List.forall_mem_cons.2 ⟨hp.1.2, hp.2⟩

theorem tuple {parts : List Part}
    (h : ∀ part ∈ parts, part.Steady v (Ty.Sound v.registry slack))
    (hhint : p → ∀ t ∈ hint, t.Saturated v.registry) :
    Steady v p (Ty.Sound v.registry slack) (tuple parts id hint) := by
  refine (tupleItems (fun hp => ?_) h).bind fun types => pure fun hp => Ty.sound_tuple.2 hp.2
  split
  · exact Ty.sound_tuple.1 (hhint hp _ rfl)
  · exact nofun

theorem recordItems (hv : v.Settled knows) : {p : Prop} →
    (p → ∀ t ∈ hint, t.Saturated v.registry) → (seen : List String) →
    {items : List (Ident × Part)} →
    (∀ item ∈ items, item.2.Steady v (Ty.Sound v.registry slack)) →
    Steady v p (fun found => ∀ item ∈ found, item.2.Sound v.registry slack)
      (recordItems id hint seen items)
  | _, _, _, [], _ => pure fun _ => nofun
  | _, hhint, seen, (name, value) :: rest, h => by
    obtain ⟨hvalue, hrest⟩ := List.forall_mem_cons.1 h
    rw [Check.recordItems]
    refine symbols <| (hvalue _ _ _ fun hp t ht => ?_).bind fun ty => ?_
    · obtain ⟨found, hfound, rfl⟩ := Option.map_eq_some_iff.1 ht
      obtain ⟨owner, howner, hfield⟩ := Option.bind_eq_some_iff.1 hfound
      exact hv.symbols.field? (hhint hp owner howner) hfield
    · split
      · exact errorThen _ _ (recordItems hv False.elim seen hrest)
      · exact (token _ _ _).andThen <|
          (recordItems hv (fun hp => hhint hp.1) (name.name :: seen) hrest).bind fun types =>
            pure fun hp => List.forall_mem_cons.2 ⟨hp.1.2, hp.2⟩

/-- A record is as sound as its items, whose hints are the fields of its own. -/
theorem record (hv : v.Settled knows) {items : List (Ident × Part)}
    (h : ∀ item ∈ items, item.2.Steady v (Ty.Sound v.registry slack))
    (hhint : p → ∀ t ∈ hint, t.Saturated v.registry) :
    Steady v p (Ty.Sound v.registry slack) (record items id hint) :=
  ((recordItems hv hhint [] h).imp (fun h => h) fun _ _ hitems => Ty.sound_record.2 hitems).map

theorem interval {low high : Part} (hl : low.Steady v (Ty.Saturated v.registry))
    (hh : high.Steady v (Ty.Saturated v.registry)) :
    Steady v p (Ty.Settled v.registry) (interval low high id) :=
  (require hl fun _ => Ty.settled_int.saturated).andThen <|
    (require hh fun _ => Ty.settled_int.saturated).andThen (pure fun _ => Ty.settled_range)

end Check.Steady

end ScriptCheck
