import ScriptCheck.Proofs.RegimeAnnotations

/-!
# Names under a regime

Two parts run alike under a regime if their checks do, with a certain effect (`Part.Runs`). Every
rule of the check hands this on from the parts that it is given to the whole. Here are the rules for
names, fields and elements.
-/

namespace ScriptCheck

open Check

/-! ## Names that are known -/

theorem Symbols.knows_eq (s : Symbols) (name : String) (hint : Option Ty) :
    s.knows name = ((s.constant? none name).isSome || (s.function? none name hint).isSome) := by
  have hconstructor := isSome_constructor? name ((hint.bind Ty.signature?).map Signature.result)
  rw [Symbols.knows, Symbols.constant?, Symbols.function?, Table.contains, Table.contains,
    ← hconstructor, Bool.or_assoc]
  congr 1
  cases constructor? name ((hint.bind Ty.signature?).map Signature.result) with
  | none => simp
  | some t => simp

/-- Whether a plain name stands for something does not depend on the hint. -/
theorem Scopes.isSome_resolve? (scopes : Scopes) (s : Symbols) (id : Nat) (name : String)
    (hint : Option Ty) : (scopes.resolve? s id name hint).isSome =
      ((scopes.local? id name).isSome || s.knows name) := by
  rw [s.knows_eq name hint, Scopes.resolve?]
  cases scopes.local? id name with
  | some v => rfl
  | none => cases hconstant : s.constant? none name <;> simp

theorem noVariable_eq_undefined {s : Symbols} {name : String} (h : s.knows name = false) :
    noVariable s name = .undefined .var name none := by
  rw [s.knows_eq name none, Bool.or_eq_false_iff] at h
  simp [noVariable, h.1, h.2]

theorem isTyped_noVariable {s : Symbols} {name : String} (h : s.knows name = true) :
    (noVariable s name).isTyped = true := by
  rw [s.knows_eq name none, Bool.or_eq_true] at h
  unfold noVariable
  split_ifs with hconstant hfunction
  · rfl
  · rfl
  · exact absurd h (not_or.2 ⟨hconstant, hfunction⟩)

theorem compares_noVariable (s : Symbols) (name : String) :
    (noVariable s name).compares = false := by
  unfold noVariable
  split_ifs <;> rfl

/-! ## Parts -/

/-- A name may stand where it is, with the module in front of it. -/
structure Terms.Reaches {G : Type} (T : Terms G) (module : Option Ident) (name : Ident) : Prop where
  qualifier : ∀ m ∈ module, T.Outside m.name ∧ T.margins.spots m.range
  known : module = none → T.Known name.name ∧ T.Uses ⟨.value, name⟩
  spot : T.margins.spots name.range

theorem Terms.Reaches.plain {G : Type} {T : Terms G} {name : Ident} (h : T.Reaches none name) :
    T.Known name.name ∧ T.Refers .value name :=
  ⟨(h.known rfl).1, (h.known rfl).2, h.spot⟩

theorem Terms.Reaches.outside {G : Type} {T : Terms G} {module name : Ident}
    (h : T.Reaches (some module) name) : ∀ m ∈ some module.name, T.Outside m := by
  rintro _ ⟨⟩
  exact (h.qualifier module rfl).1

/-- Both parts check alike, with the given effect. -/
structure Part.Runs {G : Type} [Effects G] (L : Regime G) (g : G) (p p' : Part) : Prop where
  spot : L.margins.spots p.range
  range : p'.range = p.range
  isLambda : p'.isLambda = p.isLambda
  twins : L.Twins p p'
  /-- If the part is a lambda, its effect can be hidden. -/
  shut : p.isLambda = true → Effects.Shut g
  check (x : L.Site) {hint : Option Ty} (hhint : L.Hints hint) :
    L.Runs x g L.Good (p.check x.id hint) (p'.check x.id' hint)

/-- A parameter of a lambda may stand where it is, with its annotation. -/
structure Terms.AllowsParam {G : Type} (T : Terms G) (param : LambdaParam) : Prop where
  name : T.Binds param.name
  type : ∀ spec ∈ param.type, T.Allows spec

namespace Part.Runs

variable {G : Type} [Effects G] {L : Regime G} {x : L.Site} {g : G} {p p' : Part}

theorem alone (hp : p.Runs L g p') :
    L.Runs x g L.Good (p.check x.id none) (p'.check x.id' none) :=
  hp.check x Regime.hints_none

/-- A lambda that is the argument of a call. -/
theorem checkHidden (hp : p.Runs L g p') (hlambda : p.isLambda = true) {hint : Option Ty}
    (hhint : L.Hints hint) :
    L.Runs x (Effects.hide g) L.Good (p.check x.id hint) (p'.check x.id' hint) := by
  intro c c' hc
  obtain ⟨hvalue, hstate, hpost⟩ := hp.check x hhint c c' hc
  exact ⟨hvalue, hstate, L.post_hide (hp.shut hlambda) hpost⟩

end Part.Runs

namespace Regime

variable {G : Type} [Effects G] {L : Regime G} {x : L.Site} {g h : G} {γ : Type}
  {hint : Option Ty} {name : Ident} {range : Range} {v v' : View} {c c' : Checker}
  {target target' : Part}

/-- A part that has to be of a certain type has the effect of its check. -/
theorem require {part part' : Part} (hp : part.Runs L g part') {expected : Ty}
    (hexpected : L.Hint expected) :
    L.Runs x g Any (require part expected x.id) (require part' expected x.id') :=
  (hp.check x (hints_some hexpected)).settle fun _ hfound =>
    expect hexpected hfound hp.spot hp.range

/-- The effect of an inference is hidden. -/
theorem infer {part part' : Part} (hp : part.Runs L g part') (hhint : L.Hints hint) :
    L.Runs x (Effects.hide g) L.Good (infer part x.id hint) (infer part' x.id' hint) :=
  L.runs_infer hp.twins hp.check x hhint

/-! ## Names, fields and elements -/

/-- The name of a module is known in both runs or in none. -/
theorem moduleName (hname : L.Outside name.name) (hspot : L.margins.spots name.range) :
    L.Keeps x Any (moduleName name) := by
  refine symbols fun v v' hv => ?_
  rw [L.like_module? hv hname]
  split
  · exact (error rfl rfl hspot).quiet fun _ _ => pure trivial
  · exact (token (L.margins.marks_of_spots hspot) _ _).quiet fun _ _ => pure trivial

theorem markToken (hrange : L.margins.marks range) (found : Resolved) :
    L.Keeps x Any (markToken range found) := by
  unfold Check.markToken
  split <;> exact token hrange _ _

/-- A plain name is linked to a place where it is declared. -/
theorem mark (hname : L.Refers .value name) {found : Resolved}
    (hfound : ∀ d ∈ found.definition, L.Places .value name.name d) :
    L.Keeps x Any (mark name found) :=
  (markToken hname.mark _).quiet fun _ _ => (link _ hname.use hfound).quiet fun _ _ => hover _ _ _ _

theorem markConstant (hname : L.margins.spots name.range) (found : Value) :
    L.Keeps x Any (markConstant name found) :=
  (token (L.margins.marks_of_spots hname) _ _).quiet fun _ _ => hover _ _ _ _

theorem markFunction (hname : L.margins.spots name.range) (found : Value) :
    L.Keeps x Any (markFunction name found) :=
  (token (L.margins.marks_of_spots hname) _ _).quiet fun _ _ => hover _ _ _ _

/-- A field is linked to a place where it is declared. -/
theorem markField (hname : L.Refers .member name) (modifiers : List TokenModifier)
    (hv : L.Like v v') {owner : Ty} {found : FieldType}
    (hfound : v.symbols.field? owner name.name = some found) :
    L.Keeps x Any (markField name modifiers found) :=
  (token hname.mark _ _).quiet fun _ _ =>
    (link _ hname.use ((L.like_placed hv).field? hfound)).quiet fun _ _ => hover _ _ _ _

/-- The name that is used stands for something. -/
theorem post_found {kind : SymbolKind} {id : Nat} {c : Checker}
    (hkind : (Problem.undefined kind name.name none).isUnbound = true)
    (hfound : (c.scopes.resolve? c.view.symbols id name.name hint).isSome = true) :
    L.Post id (Effects.use kind name) c c := by
  have hpost := L.post_use kind name id hkind (c := c)
  rw [Scopes.isSome_resolve?] at hfound
  rwa [Scopes.isSome_resolve?, if_pos hfound] at hpost

theorem rel_error {w : L.World} {problem : Problem} (h : problem.compares = false)
    (hrange : L.margins.spots range) (hc : L.rel w c c') :
    L.rel w ((Check.error problem range).run c).2 ((Check.error problem range).run c').2 := by
  have hfits : (Report.Entry.diagnostic ⟨.error, problem, range⟩).Fits L.Good L.toDirectory
      c.view.symbols := ⟨⟨Problem.justified_of_compares h, nofun⟩, hrange⟩
  exact L.rel_write hc hfits

/-- The name that is used stands for nothing, and there is a complaint. -/
theorem unbound {kind : SymbolKind} (hname : L.margins.spots name.range)
    (hkind : (Problem.undefined kind name.name none).isUnbound = true)
    (hfound : (c.scopes.resolve? c.view.symbols x.id name.name hint).isSome = false) :
    L.RunsAt x (Effects.use kind name) (Same Any)
      (Check.error (.undefined kind name.name none) name.range)
      (Check.error (.undefined kind name.name none) name.range) c c' := by
  intro hc
  have hpost := L.post_use kind name x.id hkind (c := c)
  rw [Scopes.isSome_resolve?] at hfound
  rw [Scopes.isSome_resolve?, if_neg (by simp [hfound])] at hpost
  exact ⟨⟨rfl, trivial⟩, rel_error rfl hname hc, hpost⟩

/-- Plain names stand for the same in both runs. -/
theorem resolve? (hc : L.rel x.world c c') {name : String} (hname : L.Known name)
    (hhint : L.Hints hint) :
    c'.scopes.resolve? c'.view.symbols x.id' name hint =
        c.scopes.resolve? c.view.symbols x.id name hint ∧
      ∀ found ∈ c.scopes.resolve? c.view.symbols x.id name hint,
        (∀ d ∈ found.definition, L.Places .value name d) ∧ L.Hint found.ty ∧
          (hint = none → L.Good found.ty) := by
  have hplaced := L.like_placed (L.like hc)
  have hnone : ∀ m ∈ (none : Option String), L.Outside m := nofun
  obtain ⟨hlocal, hlocalGood⟩ := L.rel_local? name hc x.same
  obtain ⟨hconstant, hconstantGood⟩ := L.like_constant? (L.like hc) hnone fun _ => hname
  obtain ⟨hfunction, hfunctionGood⟩ := L.like_function? name (L.like hc) hnone hhint
  unfold Scopes.resolve?
  rw [hlocal, hconstant, hfunction]
  refine ⟨rfl, fun found hfound => ?_⟩
  split at hfound
  · rename_i v hv
    obtain rfl := Option.some.inj hfound
    have hgood := hlocalGood v hv
    exact ⟨L.rel_placed hc hv, L.hint hgood, fun _ => hgood⟩
  · split at hfound
    · rename_i value hvalue
      obtain rfl := Option.some.inj hfound
      have hgood := hconstantGood value hvalue
      exact ⟨hplaced.constants.get? hvalue, L.hint hgood, fun _ => hgood⟩
    · obtain ⟨value, hvalue, rfl⟩ := Option.map_eq_some_iff.1 hfound
      exact ⟨hplaced.function? hvalue, hfunctionGood value hvalue⟩

/-- A name is looked up. If it stands for nothing, there is a complaint first. -/
theorem lookup {kind : SymbolKind} (hname : L.Known name.name) (hspot : L.margins.spots name.range)
    (hkind : (Problem.undefined kind name.name none).isUnbound = true) (hhint : L.Hints hint)
    {S : γ → γ → Prop} {m m' : Option Resolved → CheckM γ} {rest rest' : CheckM γ}
    (hsome : ∀ found : Resolved, (∀ d ∈ found.definition, L.Places .value name.name d) →
      L.Hint found.ty → (hint = none → L.Good found.ty) →
      L.RunsOn x g S (m (some found)) (m' (some found))) (hnone : L.RunsOn x g S rest rest')
    (hm : m none = do Check.error (.undefined kind name.name none) name.range; rest)
    (hm' : m' none = do Check.error (.undefined kind name.name none) name.range; rest') :
    L.RunsOn x (Effects.use kind name * g) S (lookup name.name x.id hint >>= m)
      (lookup name.name x.id' hint >>= m') := by
  intro c c' hc
  obtain ⟨hsame, hgood⟩ := resolve? hc hname hhint
  have hrun : L.RunsAt x (Effects.use kind name * g) S
      (m (c.scopes.resolve? c.view.symbols x.id name.name hint))
      (m' (c'.scopes.resolve? c'.view.symbols x.id' name.name hint)) c c' := by
    rw [hsame]
    cases hfound : c.scopes.resolve? c.view.symbols x.id name.name hint with
    | some found =>
      obtain ⟨hplaces, hty, hgoodTy⟩ := hgood found hfound
      exact (hsome found hplaces hty hgoodTy c c').given (post_found hkind (by rw [hfound]; rfl))
    | none =>
      rw [hm, hm']
      exact (unbound hspot hkind (by rw [hfound]; rfl)).bindAt fun _ _ _ => hnone _ _
  exact hrun hc

/-- A name of a module stands for a good type. -/
theorem memberVar {module name : Ident} (h : L.Reaches (some module) name) :
    L.Keeps x L.Good (memberVar module name) := by
  obtain ⟨hmodule, hspot⟩ := h.qualifier module rfl
  refine (moduleName hmodule hspot).quiet fun known _ => ?_
  split
  · refine symbols fun v v' hv => ?_
    obtain ⟨hconstant, hconstantGood⟩ := L.like_constant? hv h.outside nofun
    obtain ⟨hfunction, hfunctionGood⟩ := L.like_function? name.name hv h.outside hints_none
    rw [hconstant, hfunction]
    split
    · rename_i found hfound
      exact (markConstant h.spot _).quiet fun _ _ => pure (hconstantGood found hfound)
    · split
      · rename_i found hfound
        exact (markFunction h.spot _).quiet fun _ _ => pure ((hfunctionGood found hfound).2 rfl)
      · exact complaint rfl rfl h.spot
  · exact pure L.good_unknown

/-- The rule for a name: the name is used, and its type is good. -/
theorem var {module : Option Ident} (h : L.Reaches module name) :
    L.Runs x (Effects.refer .var module name) L.Good (var module name x.id)
      (var module name x.id') := by
  cases module with
  | some module => exact memberVar h
  | none =>
    obtain ⟨hknown, hname⟩ := h.plain
    rw [Effects.refer, ← mul_one (Effects.use _ _)]
    refine lookup hknown h.spot rfl hints_none (fun found hplaces _ hgood => ?_)
      (pure L.good_unknown) rfl rfl
    exact (mark hname hplaces).quiet fun _ _ => pure (hgood rfl)

/-- The rule for a field: a good type has fields of good types. -/
theorem field (ht : target.Runs L g target') (hname : L.Refers .member name) :
    L.Runs x g L.Good (field target name x.id) (field target' name x.id') := by
  refine ht.alone.settle fun owner howner => ?_
  unfold fieldOf
  split
  · exact pure L.good_unknown
  · refine symbols fun v v' hv => ?_
    obtain ⟨hsame, hgood⟩ := L.like_field? name.name hv (L.hint howner)
    rw [hsame]
    split
    · rename_i found hfound
      exact (markField hname _ hv hfound).quiet fun _ _ => pure ((hgood found hfound).2 howner)
    · exact complaint rfl rfl hname.spot

/-- What is taken out of a value is good, if it is found alike in both runs. -/
theorem elementOf {find : Symbols → Ty → Option Ty} (what : Ty → Unsupported) {owner : Ty}
    (hfind : ∀ {v v'}, L.Like v v' → find v'.symbols owner = find v.symbols owner ∧
      ∀ t ∈ find v.symbols owner, L.Good t) (hspot : L.margins.spots range) :
    L.Keeps x L.Good (elementOf find what range owner) := by
  unfold Check.elementOf
  split
  · exact pure L.good_unknown
  · refine symbols fun v v' hv => ?_
    obtain ⟨hsame, hgood⟩ := hfind hv
    rw [hsame]
    split
    · rename_i element helement
      exact pure (hgood element helement)
    · exact complaint rfl rfl hspot

/-- The rule for an element: the effects of target and position follow each other. -/
theorem index {position position' : Part} (ht : target.Runs L g target')
    (hp : position.Runs L h position') :
    L.Runs x (g * h) L.Good (index target position x.id)
      (index target' position' x.id') := by
  unfold Check.index
  rw [ht.range]
  exact ht.alone.bind fun owner howner => (require hp (L.hint (L.good_prelude _))).settle fun _ _ =>
    elementOf .index (L.like_indexed? · howner) ht.spot

end Regime

end ScriptCheck
