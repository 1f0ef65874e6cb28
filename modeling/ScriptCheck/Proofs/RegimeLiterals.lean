import ScriptCheck.Proofs.RegimeStatements

/-!
# Lambdas and collections under a regime

The rules for expressions that build a value. A lambda has its effect in a function of its own.
-/

namespace ScriptCheck

open Check

namespace Regime

variable {G : Type} [Effects G] {L : Regime G} {x : L.Site} {g h : G}
  {hint : Option Ty} {range : Range} {parts parts' : List Part}

/-- A parameter of a lambda has a good type, be it written or taken from the expected one. -/
theorem lambdaParam {param : LambdaParam} (hparam : L.AllowsParam param)
    {expected : Option Ty} (hexpected : L.Hints expected) :
    L.Keeps x L.Good (lambdaParam param expected) := by
  unfold Check.lambdaParam
  cases htype : param.type with
  | some spec => exact checkSpec spec (hparam.type spec htype)
  | none =>
    dsimp only
    split
    · rename_i ty hty
      exact (inlay _ _).quiet fun _ _ => pure (hexpected.good ty hty)
    · exact complaint rfl rfl hparam.name.spot

/-- The parameters of a lambda have good types. -/
theorem lambdaParams : (params : List LambdaParam) → (∀ p ∈ params, L.AllowsParam p) →
    (expected : List (Param Ty)) → (∀ p ∈ expected, L.Hint p.ty) →
    L.Keeps x (fun types => types.length = params.length ∧ ∀ p ∈ types, L.Good p.ty)
      (lambdaParams params expected)
  | [], _, _, _ => pure ⟨rfl, List.forall_mem_nil _⟩
  | param :: rest, hparams, expected, hexpected => by
    obtain ⟨hparam, hrest⟩ := List.forall_mem_cons.1 hparams
    have hhead : L.Hints (expected.head?.map Param.ty) := by
      intro t ht
      obtain ⟨p, hp, rfl⟩ := Option.map_eq_some_iff.1 ht
      exact hexpected p (List.mem_of_head? hp)
    exact (lambdaParam hparam hhead).quiet fun _ hty =>
      (lambdaParams rest hrest expected.tail fun p hp =>
        hexpected p (List.mem_of_mem_tail hp)).quiet fun _ htypes =>
          pure ⟨congrArg (· + 1) htypes.1, List.forall_mem_cons.2 ⟨hty, htypes.2⟩⟩

/-- The body of a lambda, given the function type that is expected. -/
theorem lambdaBody {params : List LambdaParam} (hparams : ∀ p ∈ params, L.AllowsParam p)
    {body body' : Part} (hb : body.Runs L g body') {expected : Option (Signature Ty)}
    (hexpected : ∀ f ∈ expected, L.Hint (.function f)) :
    L.Runs x (Effects.nest .function (Effects.binds (params.map LambdaParam.name) * g)) L.Good
      (lambdaBody params body x.id expected) (lambdaBody params body' x.id' expected) := by
  have hexpectedParams : ∀ p ∈ (expected.map Signature.params).getD [], L.Hint p.ty := by
    cases expected with
    | none => exact List.forall_mem_nil _
    | some f => exact (L.hint_function.1 (hexpected f rfl)).1
  have hresults : L.Hints (expected.map Signature.result) := by
    intro t ht
    obtain ⟨f, hf, rfl⟩ := Option.map_eq_some_iff.1 ht
    exact (L.hint_function.1 (hexpected f hf)).2
  have hresult := L.hint (good_getD hresults.good)
  refine (lambdaParams params hparams _ hexpectedParams).quiet fun types htypes => ?_
  have hvars : ∀ p ∈ List.zipWith (fun p t => (p.name, t.ty)) params types,
      L.Binds p.1 ∧ L.Good p.2 := by
    intro p hp
    rw [← List.map_uncurry_zip_eq_zipWith] at hp
    obtain ⟨⟨param, t⟩, hmem, rfl⟩ := List.mem_map.1 hp
    exact ⟨(hparams param (List.of_mem_zip hmem).1).name, htypes.2 t (List.of_mem_zip hmem).2⟩
  have hnames : (List.zipWith (fun p t => (p.name, t.ty)) params types).map Prod.fst =
      params.map LambdaParam.name := by
    have hparams := congrArg (List.map LambdaParam.name) (List.map_fst_zip htypes.1.ge)
    rw [List.map_map] at hparams
    rw [← List.map_uncurry_zip_eq_zipWith, List.map_map]
    exact hparams
  refine withinLast (.function _) ?_ fun y => ?_
  · rintro _ ⟨⟩
    exact hresult
  · rw [← hnames]
    exact Terms.RunsOn.bind
      (fun c c' => enterParams [] _ hvars c c' (List.forall_mem_nil _)) fun _ _ _ =>
      (hb.check y (hresults.filter _)).settle fun _ hty => pure (L.good_function htypes.2 hty)

/-- The rule for a lambda: in a function of its own the parameters are bound, then the body has its
effect. -/
theorem lambda (hrange : L.margins.spots range) {params : List LambdaParam}
    (hparams : ∀ p ∈ params, L.AllowsParam p) {body body' : Part} (hb : body.Runs L g body')
    (hhint : L.Hints hint) :
    L.Runs x (Effects.nest .function (Effects.binds (params.map LambdaParam.name) * g)) L.Good
      (lambda range params body x.id hint) (lambda range params body' x.id' hint) := by
  have hexpected : ∀ f ∈ hint.bind Ty.signature?, L.Hint (.function f) := by
    intro f hf
    obtain ⟨t, ht, hfunction⟩ := Option.bind_eq_some_iff.1 hf
    cases t with
    | function g =>
      obtain rfl := Option.some.inj hfunction
      exact hhint _ ht
    | _ => cases hfunction
  unfold Check.lambda
  generalize hint.bind Ty.signature? = expected at hexpected
  have hbody := lambdaBody (x := x) hparams hb hexpected
  cases expected with
  | none => exact hbody
  | some e =>
    dsimp only
    split
    · exact hbody
    · rename_i hcount
      exact (miscount _ hcount hrange).quiet fun _ _ => hbody

/-- The elements of an array have their effects one after the other. -/
theorem elements (hparts : PartsRun L parts parts' g) :
    ∀ {element : Option Ty}, (∀ t ∈ element, L.Good t) →
    L.Runs x g (fun element => ∀ t ∈ element, L.Good t) (elements x.id element parts)
      (elements x.id' element parts') := by
  induction hparts with
  | nil => exact fun helement => pure helement
  | cons hp _ ih =>
    intro element helement
    rw [Check.elements, Check.elements]
    refine (hp.check x fun t ht => L.hint (helement t ht)).bind fun found hfound => ?_
    cases element with
    | none =>
      refine ih fun t ht => ?_
      split at ht
      · cases ht
      · exact Option.some.inj ht ▸ hfound
    | some expected =>
      exact (expect (L.hint (helement expected rfl)) hfound hp.spot hp.range).quiet fun _ _ =>
        ih helement

theorem elementHint (hhint : L.Hints hint) : ∀ t ∈ elementHint hint, L.Good t := by
  intro t ht
  unfold Check.elementHint at ht
  split at ht
  · split at ht
    · rename_i hconcrete
      obtain rfl := Option.some.inj ht
      exact L.good_concrete (L.hint_array (hhint _ rfl)) hconcrete
    · cases ht
  · cases ht

/-- The rule for an array has the effect of the elements. -/
theorem array (hrange : L.margins.spots range) (hparts : PartsRun L parts parts' g)
    (hhint : L.Hints hint) :
    L.Runs x g L.Good (array range parts x.id hint)
      (array range parts' x.id' hint) := by
  have helements := elementHint hhint
  cases hparts with
  | nil =>
    unfold Check.array
    cases helement : Check.elementHint hint with
    | none => exact complaint rfl rfl hrange
    | some element => exact pure (L.good_array (helements element helement))
  | cons hp hrest =>
    exact (elements (.cons hp hrest) helements).settle fun _ helement =>
      pure (L.good_array (good_getD helement))

/-- The items of a tuple have their effects one after the other, and good types. -/
theorem tupleItems (hparts : PartsRun L parts parts' g) :
    ∀ hints : List Ty, (∀ t ∈ hints, L.Hint t) →
    L.Runs x g (fun types => ∀ t ∈ types, L.Good t) (tupleItems x.id hints parts)
      (tupleItems x.id' hints parts') := by
  induction hparts with
  | nil => exact fun _ _ => pure (List.forall_mem_nil _)
  | cons hp _ ih =>
    exact fun hints hhints => (hp.check x fun t ht => hhints t (List.mem_of_head? ht)).bind
      fun _ hty => (ih hints.tail fun t ht => hhints t (List.mem_of_mem_tail ht)).settle
        fun _ htypes => pure (List.forall_mem_cons.2 ⟨hty, htypes⟩)

/-- The rule for a tuple has the effect of the items. -/
theorem tuple (hparts : PartsRun L parts parts' g) (hhint : L.Hints hint) :
    L.Runs x g L.Good (tuple parts x.id hint) (tuple parts' x.id' hint) := by
  refine (tupleItems hparts _ ?_).settle fun _ htypes => pure (L.good_tuple.1 htypes)
  split
  · exact L.hint_tuple (hhint _ rfl)
  · exact List.forall_mem_nil _

/-- The items of a record. -/
inductive ItemsRun (L : Regime G) : List (Ident × Part) → List (Ident × Part) → G → Prop
  | nil : ItemsRun L [] [] 1
  | cons {name : Ident} {p p' : Part} {items items' : List (Ident × Part)} {g h : G}
      (hname : L.margins.spots name.range) (hp : p.Runs L g p')
      (hrest : ItemsRun L items items' h) :
      ItemsRun L ((name, p) :: items) ((name, p') :: items') (g * h)

/-- The items of a record have their effects one after the other, and good types. -/
theorem recordItems (hhint : L.Hints hint) {items items' : List (Ident × Part)}
    (hitems : ItemsRun L items items' g) : ∀ seen : List String,
    L.Runs x g (fun found => ∀ item ∈ found, L.Good item.2)
      (recordItems x.id hint seen items) (recordItems x.id' hint seen items') := by
  induction hitems with
  | nil => exact fun _ => pure (List.forall_mem_nil _)
  | @cons name _ _ _ _ _ _ hname hp _ ih =>
    intro seen
    refine symbols fun v v' hv => ?_
    have hfield : hint.bind (fun t => v'.symbols.field? t name.name) =
        hint.bind fun t => v.symbols.field? t name.name :=
      Option.bind_congr fun t ht => (L.like_field? name.name hv (hhint t ht)).1
    have hexpected : L.Hints ((hint.bind fun t => v.symbols.field? t name.name).map
        FieldType.ty) := by
      intro t ht
      obtain ⟨found, hfound, rfl⟩ := Option.map_eq_some_iff.1 ht
      obtain ⟨owner, howner, hfound⟩ := Option.bind_eq_some_iff.1 hfound
      exact ((L.like_field? name.name hv (hhint owner howner)).2 found hfound).1
    dsimp only
    rw [hfield]
    refine (hp.check x hexpected).bind fun ty hty => ?_
    split
    · exact (error rfl rfl hname).quiet fun _ _ => ih seen
    · exact (token (L.margins.marks_of_spots hname) _ _).quiet fun _ _ =>
        (ih _).settle fun _ hfound =>
        pure (List.forall_mem_cons.2 ⟨hty, hfound⟩)

/-- The rule for a record has the effect of the items. -/
theorem record {items items' : List (Ident × Part)} (hitems : ItemsRun L items items' g)
    (hhint : L.Hints hint) :
    L.Runs x g L.Good (record items x.id hint) (record items' x.id' hint) :=
  (recordItems hhint hitems []).map fun _ => L.good_record

/-- The rule for a range: the effects of both ends follow each other. -/
theorem interval {low low' high high' : Part} (hl : low.Runs L g low') (hh : high.Runs L h high') :
    L.Runs x (g * h) L.Good (interval low high x.id)
      (interval low' high' x.id') :=
  (require hl (L.hint (L.good_prelude _))).bind fun _ _ =>
    (require hh (L.hint (L.good_prelude _))).settle fun _ _ => pure (L.good_prelude _)

end Regime

end ScriptCheck
