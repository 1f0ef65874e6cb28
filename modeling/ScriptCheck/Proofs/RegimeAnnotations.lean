import ScriptCheck.Proofs.Regimes
import ScriptCheck.Proofs.ScopePaths

/-!
# Annotations and declarations under a regime

What the rules of the check share: expected types, annotations and the names that are entered into a
scope. They keep every regime.
-/

namespace ScriptCheck

open Check

/-! ## Expected types -/

section Hints

variable {G : Type} [Effects G] {L : Regime G} {hint : Option Ty}

theorem Regime.hints_none : L.Hints none := nofun

theorem Regime.hints_some {t : Ty} (h : L.Hint t) : L.Hints (some t) := by
  rintro _ ⟨⟩
  exact h

theorem Terms.Hints.filter (h : L.Hints hint) (p : Ty → Bool) : L.Hints (hint.filter p) :=
  fun t ht => h t (Option.filter_eq_some_iff.1 ht).1

/-- Concrete types are taken over from a hint. -/
theorem Terms.Hints.good (h : L.Hints hint) : ∀ t ∈ hint.filter Ty.isConcrete, L.Good t :=
  fun t ht => L.good_concrete (h.filter _ t ht) (Option.filter_eq_some_iff.1 ht).2

theorem Regime.good_getD {found : Option Ty} (h : ∀ t ∈ found, L.Good t) :
    L.Good (found.getD .unknown) := by
  cases found with
  | none => exact L.good_unknown
  | some t => exact h t rfl

end Hints

namespace Regime

variable {G : Type} [Effects G] {L : Regime G} {x : L.Site}
  {scope : Option String}

/-! ## Annotations -/

/-- A type name that stands for nothing is complained about, and nothing else. -/
theorem unknownType {range : Range} (hrange : L.margins.spots range)
    (hscope : ∀ m ∈ scope, L.Outside m) (name : String) :
    L.Keeps x Any (unknownType range scope name) := by
  refine symbols fun v v' hv => ?_
  cases scope with
  | none => exact error rfl rfl hrange
  | some module =>
    dsimp only
    rw [L.like_module? hv (hscope module rfl)]
    split <;> exact error rfl rfl hrange

/-- A type name is marked, and linked to its declaration in the script. -/
theorem markType {range : Range} (hrange : L.margins.marks range) {name : String}
    (huse : scope = none → L.Uses ⟨.type, name, range⟩) :
    L.Keeps x Any (markType range scope name) := by
  refine symbols fun v v' hv => ?_
  dsimp only
  rw [L.like_types name hv]
  split
  · rename_i found hown
    obtain ⟨⟨hscope, -⟩, hfound⟩ : (scope = none ∧ name ≠ "Self") ∧
        v.symbols.types.get? name = some found := by simpa using hown
    have hlink : L.Keeps x Any (Check.link range found.definition) :=
      link _ (huse hscope) ((L.like_placed hv).types.get? hfound)
    split
    · exact (token hrange _ _).quiet fun _ _ => hlink
    · split
      · exact (token hrange _ _).quiet fun _ _ => hlink
      · exact token hrange _ _
  · exact token hrange _ _

/-- A type name that may be used stands for a good type. -/
theorem typeName {range : Range} {name : String} {args : List TypeSpec}
    (h : L.Allows (.named range scope name args)) :
    L.Keeps x L.Good (typeName range scope name args) := by
  refine get fun c c' hc => ?_
  have hv := L.like hc
  have hscope : ∀ m ∈ scope, L.Outside m := fun m hm =>
    h.modules m (List.mem_append_left _ (Option.mem_toList.2 hm))
  obtain ⟨hrange, hhead⟩ := ((Margins.coversSpec_iff _).1 h.covers).1
  obtain ⟨hsame, hbase⟩ := L.like_type? name hv hscope
  obtain ⟨hresolve, hresolved⟩ := L.like_resolve hv h.modules
  dsimp only
  rw [hsame, hresolve]
  cases hfound : c.view.type? scope name with
  | none => exact (unknownType hrange hscope _).quiet fun _ _ => pure L.good_unknown
  | some base =>
    dsimp only
    rw [L.like_genericNames hv (hbase base hfound), L.like_describe hv hresolved]
    have hmark : L.Keeps x Any (Check.markType
        (if scope.isNone && !args.isEmpty then range.leading name.utf8ByteSize else range) scope
        name) := by
      cases scope with
      | some module => exact markType (L.margins.marks_of_spots hrange) nofun
      | none =>
        have huse := h.uses
        rw [TypeSpec.uses_eq] at huse
        replace huse := huse _ (List.mem_append_left _ List.mem_cons_self)
        have hmarks := hhead _ List.mem_cons_self
        cases args with
        | nil | cons => exact markType hmarks fun _ => huse
    refine hmark.quiet fun _ _ => ?_
    split
    · rename_i hcount
      have hne := bne_iff_ne.1 (Bool.and_eq_true_iff.1 hcount).2
      exact (miscount _ hne hrange).quiet fun _ _ => pure L.good_unknown
    · exact (hoverText _ _).quiet fun _ _ => pure hresolved

/-- What an annotation stands for is a good type, the same in both runs. -/
theorem resolved {spec : TypeSpec} (h : L.Allows spec) : L.Keeps x L.Good (resolved spec) := by
  refine get fun c c' hc => ?_
  obtain ⟨hsame, hgood⟩ := L.like_resolve (L.like hc) h.modules
  rw [hsame]
  exact pure hgood

mutual
/-- The check of an annotation finds a good type. -/
theorem checkSpec : (spec : TypeSpec) → L.Allows spec → L.Keeps x L.Good spec.check
  | .named _ _ _ args, h =>
    (checkSpecs args fun _ hspec => h.child hspec).quiet fun _ _ => typeName h
  | .array _ element, h => (checkSpec element h.child).quiet fun _ _ => resolved h
  | .option _ inner, h => (checkSpec inner h.child).quiet fun _ _ => resolved h
  | .result _ ok err, h =>
    (checkSpec ok h.child).quiet fun _ _ => (checkSpec err h.child).quiet fun _ _ => resolved h
  | .tuple _ items, h => (checkSpecs items fun _ hspec => h.child hspec).quiet fun _ _ => resolved h
  | .record _ items, h =>
    (checkSpecItems items fun _ hitem => h.child (List.mem_map_of_mem hitem)).quiet fun _ _ =>
      resolved h
  | .function _ _ params ret, h =>
    (checkSpecs params fun _ hspec => h.child (List.mem_append_left _ hspec)).quiet fun _ _ =>
      (checkSpec ret h.child).quiet fun _ _ => resolved h

/-- The check of annotations finds good types. -/
theorem checkSpecs : (specs : List TypeSpec) → (∀ spec ∈ specs, L.Allows spec) →
    L.Keeps x (fun types => ∀ t ∈ types, L.Good t) (TypeSpec.checkList specs)
  | [], _ => pure (List.forall_mem_nil _)
  | spec :: rest, h =>
    (checkSpec spec (List.forall_mem_cons.1 h).1).quiet fun _ hty =>
      (checkSpecs rest (List.forall_mem_cons.1 h).2).quiet fun _ htypes =>
        pure (List.forall_mem_cons.2 ⟨hty, htypes⟩)

theorem checkSpecItems : (items : List (String × TypeSpec)) → (∀ item ∈ items, L.Allows item.2) →
    L.Keeps x Any (TypeSpec.checkItems items)
  | [], _ => pure trivial
  | (_, spec) :: rest, h =>
    (checkSpec spec (List.forall_mem_cons.1 h).1).quiet fun _ _ =>
      checkSpecItems rest (List.forall_mem_cons.1 h).2
end

/-- The annotation of a declaration stands for a good type, if there is one. -/
theorem annotated {type : Option TypeSpec} (h : ∀ spec ∈ type, L.Allows spec) :
    L.Keeps x (fun declared => ∀ t ∈ declared, L.Good t) (annotated type) := by
  cases type with
  | none => exact pure nofun
  | some spec =>
    refine (checkSpec spec (h spec rfl)).map fun t ht => ?_
    rintro _ ⟨⟩
    exact ht

/-! ## Declaring variables -/

/-- A variable is entered under its name, with the place where it is declared. -/
theorem enter {name : Ident} (hname : L.Binds name) {v v' : View} (hv : L.Like v v')
    {value : Local} (h : L.Good value.ty)
    (hvalue : value.definition = v.symbols.define name.range) :
    L.Runs x (Effects.bind name) Any (enter x.id name.name value)
      (enter x.id' name.name value) := by
  have hplaces : ∀ d ∈ value.definition, L.Places .value name.name d := by
    rw [hvalue]
    rintro _ ⟨⟩
    exact (L.like_placed hv).define hname.declares
  exact modify fun c _ hc =>
    ⟨L.rel_declare name.name hc x.same h hplaces, L.post_declare name value x.id c⟩

/-- A parameter of a good type is entered, which binds its name. -/
theorem enterParam {name : Ident} (hname : L.Binds name) {ty : Ty} (h : L.Good ty) :
    L.Runs x (Effects.bind name) Any (enterParam x.id name ty) (enterParam x.id' name ty) := by
  refine (token hname.mark _ _).quiet fun _ _ => (hover _ _ _ _).quiet fun _ _ =>
    symbols fun v v' hv => ?_
  rw [L.like_define _ hv]
  exact enter hname hv h rfl

/-- A variable of a good type is declared, which binds its name, also where the name is taken. -/
theorem declareVar {name : Ident} (hname : L.Binds name) {ty : Ty} (h : L.Good ty)
    (isConst : Bool) :
    L.Runs x (Effects.bind name) Any (declareVar x.id name ty isConst)
      (declareVar x.id' name ty isConst) := by
  refine (token hname.mark _ _).quiet fun _ _ => (hover _ _ _ _).quiet fun _ _ =>
    get fun c c' hc => ?_
  rw [L.like_define _ (L.like hc)]
  refine (enter hname (L.like hc) h rfl).settle fun _ _ d d' hd => ?_
  have hplain : (Problem.duplicate .var name.name).compares = false := rfl
  refine ⟨⟨rfl, trivial⟩, (L.rel_redeclare name.name hplain hname.spot hc x.same hd).2, ?_⟩
  split
  · exact post_note (.diagnostic ⟨.error, _, _⟩) rfl x.id d
  · exact L.post_refl x.id d

/-- Variables of good types are declared one after the other. -/
theorem declareVars (isConst inferred : Bool) : (vars : List (Ident × Ty)) →
    (∀ v ∈ vars, L.Binds v.1 ∧ L.Good v.2) →
    L.Runs x (Effects.binds (vars.map Prod.fst)) Any
      (declareVars x.id isConst inferred vars)
      (declareVars x.id' isConst inferred vars)
  | [], _ => pure trivial
  | (name, ty) :: rest, h => by
    obtain ⟨⟨hname, hty⟩, hvars⟩ := List.forall_mem_cons.1 h
    have hrest := (declareVar hname hty isConst).bind fun _ _ =>
      declareVars isConst inferred rest hvars
    rw [Check.declareVars, Check.declareVars]
    split
    · exact (inlay _ _).quiet fun _ _ => hrest
    · exact hrest

theorem scopes_enterParam (id : Nat) (name : Ident) (ty : Ty) (c : Checker) :
    ∃ value, ((Check.enterParam id name ty).run c).2.scopes =
      c.scopes.declare id name.name value := by
  let marked := ((Check.hover name.range name.name ty "").run
    ((Check.token name.range .parameter [.declaration]).run c).2).2
  have hmarked : marked.scopes = c.scopes := (scopes_note _ _).trans (scopes_note _ _)
  exact ⟨_, congrArg (Scopes.declare · id name.name _) hmarked⟩

/-- A parameter that was seen before is complained about, and bound all the same. -/
theorem enterUnseen {seen : List String} {name : Ident} (hname : L.Binds name) {ty : Ty}
    (h : L.Good ty) {c c' : Checker} (hseen : ∀ other ∈ seen, x.id < c.scopes.size →
      (c.scopes.own? x.id other).isSome = true) :
    L.RunsAt x (Effects.bind name) (Same Any) (enterUnseen x.id seen name ty)
      (enterUnseen x.id' seen name ty) c c' := by
  unfold Check.enterUnseen
  split
  · rename_i hmem
    rw [← mul_one (Effects.bind name)]
    exact (error rfl rfl hname.spot c c').given
      (L.post_again name (hseen name.name (by simpa using hmem)))
  · exact enterParam hname h c c'

/-- What was seen stays bound when a parameter is entered, which then is seen as well. -/
theorem isSome_own?_enterUnseen {id : Nat} {seen : List String} {name : Ident} (ty : Ty)
    {c : Checker} (hseen : ∀ other ∈ seen, id < c.scopes.size →
      (c.scopes.own? id other).isSome = true) :
    ∀ other ∈ name.name :: seen,
      id < ((Check.enterUnseen id seen name ty).run c).2.scopes.size →
      (((Check.enterUnseen id seen name ty).run c).2.scopes.own? id other).isSome = true := by
  unfold Check.enterUnseen
  split
  · rename_i hmem
    have hscopes : ((Check.error (.duplicate .parameter name.name) name.range).run c).2.scopes =
        c.scopes := scopes_note _ _
    rw [hscopes]
    exact List.forall_mem_cons.2 ⟨hseen name.name (by simpa using hmem), hseen⟩
  · obtain ⟨value, hscopes⟩ := scopes_enterParam id name ty c
    rw [hscopes, Scopes.size_declare]
    intro other hother hsize
    rw [Scopes.isSome_own?_declare]
    rcases List.mem_cons.1 hother with rfl | hother
    · exact .inl ⟨rfl, hsize, rfl⟩
    · exact .inr (hseen other hother hsize)

/-- Parameters are entered, which binds their names. -/
theorem enterParams : (seen : List String) → (params : List (Ident × Ty)) →
    (∀ p ∈ params, L.Binds p.1 ∧ L.Good p.2) → (c c' : Checker) →
    (∀ name ∈ seen, x.id < c.scopes.size → (c.scopes.own? x.id name).isSome = true) →
    L.RunsAt x (Effects.binds (params.map Prod.fst)) (Same Any)
      (enterParams x.id seen params) (enterParams x.id' seen params) c c'
  | _, [], _, c, c', _ => pure trivial c c'
  | seen, (name, ty) :: rest, h, c, c', hseen => by
    obtain ⟨⟨hname, hty⟩, hparams⟩ := List.forall_mem_cons.1 h
    exact (enterUnseen hname hty hseen).bindAt fun _ _ _ =>
      enterParams (name.name :: seen) rest hparams _ _ (isSome_own?_enterUnseen ty hseen)

end Regime

end ScriptCheck
