import ScriptCheck.Proofs.DimmedRules

/-!
# Statements and literals under faded types

The lemmas of `DimmedRules` continued: declarations and assignments, blocks, branches and loops,
lambdas and collections.

What a declaration enters into a scope has to be allowed by the outlook (`Outlook.Binds`). The
elements of an array, and the arguments of a generic function, are looked at from the left, and only
the last one may be vague (`Outlook.leading_cons`).
-/

namespace ScriptCheck

open Check Ty

variable {o : Outlook} {path path' rest rest' : List Nat} {id id' : Nat} {g h : Grade} {a b : Ty}
  {free free' : Bool} {value : Part}

/-! ## Declarations -/

/-- Variables of that name may have types of the given grade. -/
def Outlook.Binds (o : Outlook) (g : Grade) (name : Ident) : Prop :=
  ∃ h, o.var? name.name = some h ∧ g ≤ h

theorem Outlook.binds_of_mem {binding : Binding} (hbinds : o.binds binding g = true) {name : Ident}
    (hname : name ∈ binding.names) : o.Binds g name := by
  rw [binds.eq_def, Bool.and_eq_true] at hbinds
  obtain ⟨h, hvar, hle⟩ := (Option.any_eq_true _ _).1 (List.all_eq_true.1 hbinds.1 name hname)
  exact ⟨h, hvar, of_decide_eq_true hle⟩

theorem Outlook.le_faded_of_binds {names : List Ident} (hbinds : o.binds (.tuple names) g = true) :
    g ≤ .faded := by
  rw [binds, Bool.and_eq_true] at hbinds
  exact of_decide_eq_true hbinds.2

namespace Check

theorem Notes.fieldTypes (s : Symbols) (ty : Ty) : (names : List Ident) →
    Notes (fieldTypes s ty names)
  | [] => .pure _
  | name :: rest => by
    rw [Check.fieldTypes]
    split
    · exact (fieldTypes s ty rest).bind fun _ => .pure _
    · exact (Notes.error _ _).bind fun _ => (fieldTypes s ty rest).bind fun _ => .pure _

theorem Notes.destructured (names : List Ident) (ty : Ty) (range : Range) :
    Notes (destructured names ty range) := by
  unfold Check.destructured
  split
  · exact .pure _
  · split
    · exact .pure _
    · exact (error _ _).bind fun _ => .pure _
  · exact .symbols fun s => .fieldTypes s _ _
  · exact (error _ _).bind fun _ => .pure _

theorem Notes.typeSpec (spec : TypeSpec) : Notes spec.check :=
  fun _ => ⟨_, _, spec.writes_check⟩

/-- No type is complained about where branches come together. -/
theorem Hushed.join (a b : Ty) : Hushed (join a b) := by
  unfold Check.join
  split
  · exact .pure _
  · split
    · exact .pure _
    · refine .ask fun answer => ?_
      split
      · exact .pure _
      · refine .ask fun answer => ?_
        split <;> exact .pure _

end Check

namespace Dim

/-- Both checks end with the type of an expression that is only there for its effect. -/
theorem unit : Dim o path path' Grade.same.Allows (Pure.pure Ty.unit) (Pure.pure Ty.unit) :=
  pure rfl

/-- A variable may differ as far as the outlook allows for its name. -/
theorem declareVar {name : Ident} (hname : o.Binds g name) (hab : g.Allows a b) (isConst : Bool) :
    Dim o (id :: rest) (id' :: rest') (fun _ _ => True) (declareVar id name a isConst)
      (declareVar id' name b isConst) := by
  refine marks (.token _ _ _) (.token _ _ _) fun _ _ => marks (.hover _ _ _ _) (.hover _ _ _ _)
    fun _ _ => get fun c c' hc => ?_
  obtain ⟨h, hvar, hle⟩ := hname
  have hlocal (definition definition' : Option Definition) : Local.Dims (o.var? name.name)
      { ty := a, definition, isConst } { ty := b, definition := definition', isConst } :=
    ⟨rfl, rfl, h, hvar, hab.mono hle⟩
  refine (enter name.name (hlocal _ _)).bind fun _ _ _ => ?_
  rw [hc.scopes.isSome_own?_eq name.name]
  split
  · exact error rfl _
  · exact pure trivial

theorem declareVars (isConst inferred : Bool) {types types' : List Ty}
    (htypes : List.Forall₂ g.Allows types types') :
    (names : List Ident) → (∀ name ∈ names, o.Binds g name) →
    Dim o (id :: rest) (id' :: rest') (fun _ _ => True)
      (declareVars id isConst inferred (names.zip types))
      (declareVars id' isConst inferred (names.zip types')) := by
  induction htypes with
  | nil =>
    intro names _
    rw [List.zip_nil_right]
    exact pure trivial
  | @cons a b types types' hab _ ih =>
    rintro (_ | ⟨name, names⟩) hnames
    · exact pure trivial
    have hrest := (declareVar (hnames name List.mem_cons_self) hab isConst).bind fun _ _ _ =>
      ih names fun name hname => hnames name (List.mem_cons_of_mem _ hname)
    rw [List.zip_cons_cons, List.zip_cons_cons, Check.declareVars, Check.declareVars]
    split <;> split
    · exact leftMark (.inlay _ _) (rightMark (.inlay _ _) hrest)
    · exact leftMark (.inlay _ _) hrest
    · exact rightMark (.inlay _ _) hrest
    · exact hrest

/-- The fields of a faded record have faded types. -/
theorem fieldTypes (halike : Alike (Fades isUnknown) a b) : (names : List Ident) →
    Dim o path path' (List.Forall₂ (Fades isUnknown)) (fieldTypes o.symbols a names)
      (fieldTypes o.symbols b names)
  | [] => pure .nil
  | name :: rest => by
    rw [Check.fieldTypes, Check.fieldTypes]
    have hfield := o.symbols.field?_of_alike halike name.name
    generalize o.symbols.field? a name.name = found,
      o.symbols.field? b name.name = found' at hfield ⊢
    cases hfield with
    | some h => exact (fieldTypes halike rest).bind fun _ _ hrest => pure (.cons h.1 hrest)
    | none =>
      refine (error (by rfl) _).bind fun _ _ _ => ?_
      exact (fieldTypes halike rest).bind fun _ _ hrest => pure (.cons (.refl _ _) hrest)

theorem forall₂_unknown (hne : g ≠ .same) : (names : List Ident) → (types : List Ty) →
    types.length = names.length →
    List.Forall₂ g.Allows types (names.map fun _ => Ty.unknown)
  | [], [], _ => .nil
  | _ :: names, _ :: types, hlength =>
    .cons (Grade.allows_unknown hne _) (forall₂_unknown hne names types (Nat.succ.inj hlength))

/-- The first items of a faded tuple. -/
theorem forall₂_items {items items' : List Ty} (h : List.Forall₂ (Fades isUnknown) items items')
    (n : Nat) :
    List.Forall₂ (Fades isUnknown) ((List.range n).map fun i => items[i]?.getD .unknown)
      ((List.range n).map fun i => items'[i]?.getD .unknown) := by
  rw [List.forall₂_map_left_iff, List.forall₂_map_right_iff]
  refine List.forall₂_same.2 fun i _ => ?_
  have hitem := getElem?_rel h i
  generalize items[i]? = item, items'[i]? = item' at hitem ⊢
  cases hitem with
  | none => exact .refl _ _
  | some hfades => exact hfades

/-- A value of a faded type is taken apart into values of faded types. -/
theorem destructured (names : List Ident) (range : Range) (hg : g ≤ .faded) (hab : g.Allows a b) :
    Dim o path path' (List.Forall₂ g.Allows) (destructured names a range)
      (destructured names b range) := by
  rcases hab.cases hg with rfl | ⟨rfl, hne⟩ | ⟨rfl, hb, halike⟩
  · refine (same (.destructured names b range)).mono fun types _ htypes => ?_
    rw [htypes]
    exact List.forall₂_same.2 fun t _ => .refl g t
  · refine leftLast (.of_notes (.destructured names a range)) fun c => ?_
    have hrun : (Regime.alone .any).Runs ⟨(), 0, 0, rfl⟩ 1 _ (Check.destructured names a range)
        (Check.destructured names a range) :=
          Regime.destructured (fun _ _ => ⟨trivial, trivial⟩) trivial
          trivial rfl
    exact forall₂_unknown hne names _ (hrun c c ⟨rfl, trivial⟩).1.2.1
  · have hother (problem problem' : Problem) (hcategory : problem'.category = problem.category) :
        Dim o path path' (List.Forall₂ Grade.faded.Allows)
          (do Check.error problem range; return names.map fun _ => Ty.unknown)
          (do Check.error problem' range; return names.map fun _ => Ty.unknown) :=
      (error hcategory range).bind fun _ _ _ => pure (List.forall₂_same.2 fun t _ => .refl _ t)
    cases halike with
    | unknown => cases hb
    | tuple hitems =>
      unfold Check.destructured
      have htypes := forall₂_items hitems names.length
      dsimp only
      rw [hitems.length_eq]
      split
      · exact pure htypes
      · exact (error rfl _).bind fun _ _ _ => pure htypes
    | record name hitems => exact symbols (fieldTypes (.record name hitems) names)
    | _ => exact hother _ _ rfl

/-- A value is taken apart whose type differs as far as the outlook allows for all the names. -/
theorem destructure {names : List Ident} (hbinds : o.binds (.tuple names) g = true)
    (hab : g.Allows a b) (isConst inferred : Bool) (range : Range) :
    Dim o (id :: rest) (id' :: rest') (fun _ _ => True)
      (destructure id names a isConst inferred range)
      (destructure id' names b isConst inferred range) :=
  (destructured names range (Outlook.le_faded_of_binds hbinds) hab).bind fun _ _ htypes =>
    declareVars isConst inferred htypes names fun _ hname => Outlook.binds_of_mem hbinds hname

/-- A variable with an annotation has the same type in both checks. -/
theorem declaredType (hvalue : value.Dims o g free) : (declared : Option Ty) →
    (declared.isSome = true → o.fits g = true) →
    Dim o (id :: rest) (id' :: rest') (if declared.isSome then Grade.same else g).Allows
      (declaredType declared value id) (declaredType declared value id')
  | some _, hfits => (check hvalue _).bind fun _ _ hfound =>
    (expect value.range (Outlook.accepts_of_fits o.fits_same (hfits rfl) (.refl _ _) hfound)).bind
      fun _ _ _ => pure rfl
  | none, _ => (check hvalue _).bind fun _ _ hfound => pure hfound

/-- The value of a declaration has to fit the annotation, or else the names have to bear its
type. -/
theorem declareTyped (hvalue : value.Dims o g free) (range : Range) (isConst : Bool)
    {binding : Binding} (declared : Option Ty) (hfits : declared.isSome = true → o.fits g = true)
    (hbinds : o.binds binding (if declared.isSome then Grade.same else g) = true) :
    Dim o (id :: rest) (id' :: rest') Grade.same.Allows
      (declareTyped range isConst binding value id declared)
      (declareTyped range isConst binding value id' declared) := by
  refine (declaredType hvalue declared hfits).bind fun a b hab => ?_
  cases binding with
  | single name =>
    have hdeclare : Dim o (id :: rest) (id' :: rest') Grade.same.Allows
        (do Check.declareVar id name a isConst; return Ty.unit)
        (do Check.declareVar id' name b isConst; return Ty.unit) :=
      (declareVar (Outlook.binds_of_mem hbinds List.mem_cons_self) hab isConst).bind
        fun _ _ _ => unit
    dsimp only
    split
    · split <;> split
      · exact marks (.warn _ _) (.warn _ _) fun _ _ => hdeclare
      · exact marks (.warn _ _) (.inlay _ _) fun _ _ => hdeclare
      · exact marks (.inlay _ _) (.warn _ _) fun _ _ => hdeclare
      · exact marks (.inlay _ _) (.inlay _ _) fun _ _ => hdeclare
    · exact hdeclare
  | tuple names => exact (destructure hbinds hab _ _ _).bind fun _ _ _ => unit

theorem declare (hvalue : value.Dims o g free) (range : Range) (isConst : Bool) {binding : Binding}
    {type : Option TypeSpec} (hfits : type.isSome = true → o.fits g = true)
    (hbinds : o.binds binding (if type.isSome then Grade.same else g) = true) :
    Dim o (id :: rest) (id' :: rest') Grade.same.Allows
      (declare range isConst binding type value id)
      (declare range isConst binding type value id') := by
  cases type with
  | none => exact declareTyped hvalue range isConst none hfits hbinds
  | some spec =>
    have hspec : Dim o (id :: rest) (id' :: rest') (fun declared declared' =>
        declared' = declared ∧ declared.isSome = true) (annotated (some spec))
        (annotated (some spec)) :=
      map (same (.typeSpec spec)) fun _ _ hty => ⟨congrArg some hty, rfl⟩
    refine bind (k := Check.declareTyped range isConst binding value id) hspec ?_
    rintro declared _ ⟨rfl, hsome⟩
    exact declareTyped hvalue range isConst _ (fun _ => hfits rfl) (by rw [hsome]; exact hbinds)

end Dim

/-! ## Assignments -/

namespace Dim

variable {op : Option Operator} {isLambda : Bool}

/-- A value is checked whose type does not matter. -/
theorem checked (hvalue : value.Dims o g free) :
    Dim o (id :: rest) (id' :: rest') Grade.same.Allows
      (do let _ ← value.check id none; return Ty.unit)
      (do let _ ← value.check id' none; return Ty.unit) :=
  (check hvalue none).bind fun _ _ _ => unit

/-- A value has to fit its target. If the target may have faded, the value must not take its type
from it. -/
theorem assigned (hvalue : value.Dims o g free)
    (hassigns : o.assigns h op ⟨isLambda, g, free⟩ = true) (hab : h.Allows a b) :
    Dim o (id :: rest) (id' :: rest') (fun _ _ => True) (assigned a op value id)
      (assigned b op value id') := by
  have hfits {k : Grade} (hk : k ≤ .lost) : o.fits k = true := by simp [Outlook.fits, hk]
  cases op with
  | some op =>
    obtain ⟨hh, hg⟩ : h ≤ .lost ∧ g ≤ .lost := by simpa [Outlook.assigns] using hassigns
    have hmax : max h g ≤ .lost := by
      revert hh hg
      cases h <;> cases g <;> decide
    exact (check hvalue none).bind fun _ _ hfound => (apply _ op hh hg hab hfound).bind
      fun _ _ happlied => expect _ (Outlook.accepts_of_fits (hfits hh) (hfits hmax) hab happlied)
  | none =>
    obtain ⟨htarget, hg⟩ : (h = .same ∨ free = true ∧ o.fits h = true) ∧ o.fits g = true := by
      simpa [Outlook.assigns] using hassigns
    rcases htarget with rfl | ⟨hfree, hh⟩
    · exact require hvalue hg hab o.fits_same (.inr hab.symm)
    · exact require hvalue hg hab hh (.inl hfree)

/-- The type of the variable may have faded. -/
theorem assign {name : Ident} (hvalue : value.Dims o g free)
    (hassigns : ((o.var? name.name).all fun h => o.assigns h op ⟨isLambda, g, free⟩) = true) :
    Dim o (id :: rest) (id' :: rest') Grade.same.Allows (assign name op value id)
      (assign name op value id') := by
  refine get fun c c' hc => ?_
  have hlocal := hc.scopes.local? name.name
  rw [hc.view]
  generalize c.scopes.local? id name.name = v, c'.scopes.local? id' name.name = v' at hlocal ⊢
  cases hlocal with
  | none => exact (error rfl _).bind fun _ _ _ => checked hvalue
  | @some v v' hv =>
    obtain ⟨h, hvar, hab⟩ := hv.ty
    rw [hvar] at hassigns
    have hfixed : fixed? v' = fixed? v := by rw [fixed?, fixed?, hv.isConst, hv.isParam]
    refine marks (.mark _ _) (.mark _ _) fun _ _ => ?_
    rw [hfixed]
    split
    · exact (error rfl _).bind fun _ _ _ => checked hvalue
    · exact (assigned hvalue hassigns hab).bind fun _ _ _ => unit

/-- A value is assigned to a field that both checks know. -/
theorem fieldAssigned_of_known {name : Ident} (hvalue : value.Dims o g free)
    (hassigns : o.assigns h op ⟨isLambda, g, free⟩ = true) (ha : a.isUnknown = false)
    (hb : b.isUnknown = false)
    (hfield : Option.Rel (fun f f' => h.Allows f.ty f'.ty ∧ f'.readOnly = f.readOnly)
      (o.symbols.field? a name.name) (o.symbols.field? b name.name)) :
    Dim o (id :: rest) (id' :: rest') Grade.same.Allows (fieldAssigned name op value id a)
      (fieldAssigned name op value id' b) := by
  unfold fieldAssigned
  rw [ha, hb]
  refine symbols ?_
  generalize o.symbols.field? a name.name = found, o.symbols.field? b name.name = found' at hfield ⊢
  cases hfield with
  | none => exact (error (by rfl) _).bind fun _ _ _ => checked hvalue
  | some hf =>
    obtain ⟨hty, hreadOnly⟩ := hf
    refine marks (.markField _ _ _) (.markField _ _ _) fun _ _ => ?_
    rw [hreadOnly]
    split
    · exact (error (by rfl) _).bind fun _ _ _ => checked hvalue
    · exact (assigned hvalue hassigns hty).bind fun _ _ _ => unit

/-- Only the first check knows the field, and no matter which type it expects of the value. -/
theorem fieldAssigned_of_lost {name : Ident} (hvalue : value.Dims o g free)
    (hassigns : o.assigns h op ⟨isLambda, g, free⟩ = true) (hne : h ≠ .same) (a : Ty) :
    Dim o (id :: rest) (id' :: rest') Grade.same.Allows (fieldAssigned name op value id a)
      (fieldAssigned name op value id' .unknown) := by
  have hleft (ty : Ty) : Dim o (id :: rest) (id' :: rest') (fun _ _ => True)
      (Check.assigned ty op value id) (value.check id' none) := by
    cases op with
    | some op =>
      exact (check hvalue none).thenLeft fun _ =>
        .of_notes ((Notes.apply _ _ _ _).bind fun _ => .expect _ _ _)
    | none =>
      have hfree : free = true := by
        simp only [Outlook.assigns, Bool.and_eq_true, Bool.or_eq_true, beq_iff_eq] at hassigns
        exact (hassigns.1.resolve_left hne).1
      exact (hvalue _ _ _ _ _ _ (.inl hfree)).thenLeft fun _ => .of_notes (.expect _ _ _)
  unfold fieldAssigned
  rw [if_pos (show Ty.unknown.isUnknown = true from rfl)]
  dsimp only
  split
  · exact checked hvalue
  · refine left (.of_notes (.symbols fun s => .pure s)) fun s => ?_
    split
    · exact left (.of_notes (.error _ _)) fun _ => checked hvalue
    · refine leftMark (.markField _ _ _) ?_
      split
      · exact left (.of_notes (.error _ _)) fun _ => checked hvalue
      · exact (hleft _).bind fun _ _ _ => unit

/-- The field may have faded with its owner, or be lost. -/
theorem fieldAssign {target : Part} (htarget : target.Dims o h free') (hh : h ≤ .faded)
    (name : Ident) (hvalue : value.Dims o g free)
    (hassigns : o.assigns h op ⟨isLambda, g, free⟩ = true) :
    Dim o (id :: rest) (id' :: rest') Grade.same.Allows (fieldAssign target name op value id)
      (fieldAssign target name op value id') := by
  refine (check htarget none).bind fun a b hab => ?_
  rcases hab.cases hh with rfl | ⟨rfl, hne⟩ | ⟨rfl, hb, halike⟩
  · cases hb : b.isUnknown with
    | false =>
      exact fieldAssigned_of_known hvalue hassigns hb hb
        (relOption_refl (fun f => ⟨.refl h f.ty, rfl⟩) _)
    | true =>
      simp only [fieldAssigned, hb, if_true]
      exact checked hvalue
  · exact fieldAssigned_of_lost hvalue hassigns hne a
  · exact fieldAssigned_of_known hvalue hassigns (not_isUnknown hb halike) hb
      (o.symbols.field?_of_alike halike name.name)

end Dim

/-! ## Blocks, branches and loops -/

namespace Dim

variable {sketches : List Sketch} {parts : List Part} {hint hint' : Option Ty}

/-- The last expression of a block gives the type. -/
theorem sequence (hparts : List.Forall₂ (Part.Sketched o) sketches parts)
    (hhint : sketches.getLast?.all Sketch.free = true ∨ hint = hint') :
    Dim o (id :: rest) (id' :: rest')
      ((sketches.getLast?.map Sketch.grade).getD .same).Allows (sequence id hint parts)
      (sequence id' hint' parts) := by
  induction hparts with
  | nil => exact unit
  | @cons first part sketches parts hfirst hparts ih =>
    cases hparts with
    | nil => exact hfirst.dims _ _ _ _ _ _ hhint
    | cons _ _ =>
      rw [List.getLast?_cons_cons] at hhint ⊢
      exact (check hfirst.dims none).bind fun _ _ _ => ih hhint

/-- A block differs as far as its last expression. -/
theorem block (hparts : List.Forall₂ (Part.Sketched o) sketches parts)
    (hhint : sketches.getLast?.all Sketch.free = true ∨ hint = hint') :
    Dim o (id :: rest) (id' :: rest')
      ((sketches.getLast?.map Sketch.grade).getD .same).Allows (block parts id hint)
      (block parts id' hint') :=
  nestedLast .block fun _ _ => sequence hparts hhint

variable {condition thenBranch elseBranch source body : Part} {k : Grade}

/-- Without a second branch the type is `Unit`. -/
theorem ifThen_none (hcondition : condition.Dims o k free) (hk : o.fits k = true)
    (hthen : thenBranch.Dims o g free') (hint hint' : Option Ty) :
    Dim o (id :: rest) (id' :: rest') Grade.same.Allows (ifThen condition thenBranch none id hint)
      (ifThen condition thenBranch none id' hint') :=
  (requireSame hcondition hk Ty.bool).bind fun _ _ _ =>
    nested .block (fun _ _ => check hthen none) fun _ _ _ _ _ => unit

/-- An unknown branch leaves the type to the other one, so that the types may differ in any way. -/
theorem ifThen_some {freeThen freeElse : Bool} (hcondition : condition.Dims o k free)
    (hk : o.fits k = true) (hthen : thenBranch.Dims o g freeThen)
    (helse : elseBranch.Dims o h freeElse) (hhint : (freeThen && freeElse) = true ∨ hint = hint') :
    Dim o (id :: rest) (id' :: rest')
      (if g = .same ∧ h = .same then Grade.same else .loose).Allows
      (ifThen condition thenBranch (some elseBranch) id hint)
      (ifThen condition thenBranch (some elseBranch) id' hint') := by
  rw [Bool.and_eq_true] at hhint
  refine (requireSame hcondition hk Ty.bool).bind fun _ _ _ =>
    nested .block (fun _ _ => hthen _ _ _ _ _ _ (hhint.imp_left And.left)) fun _ _ a a' ha => ?_
  refine nested .block (fun _ _ => helse _ _ _ _ _ _ (hhint.imp_left And.right))
    fun _ _ b b' hb => ?_
  split
  · rename_i hsame
    obtain ⟨rfl, rfl⟩ := hsame
    rw [show a' = a from ha, show b' = b from hb]
    exact unchanged (Hushed.join a b).notes _
  · exact hushed (.join a b) (.join a' b')

theorem whileLoop (hcondition : condition.Dims o k free) (hk : o.fits k = true)
    (hbody : body.Dims o g free') :
    Dim o (id :: rest) (id' :: rest') Grade.same.Allows (whileLoop condition body id)
      (whileLoop condition body id') :=
  (requireSame hcondition hk Ty.bool).bind fun _ _ _ =>
    nested .loop (fun _ _ => check hbody none) fun _ _ _ _ _ => unit

/-- The variables of a loop differ as far as its source. -/
theorem forLoop {binding : Binding} (hsource : source.Dims o g free) (hg : g ≤ .faded)
    (hbinds : o.binds binding g = true) (hbody : body.Dims o h free') :
    Dim o (id :: rest) (id' :: rest') Grade.same.Allows (forLoop binding source body id)
      (forLoop binding source body id') := by
  have helement : Dim o (id :: rest) (id' :: rest') g.Allows (elementType source id)
      (elementType source id') :=
    (check hsource none).bind fun _ _ hab =>
      elementOf Symbols.iterated? Unsupported.iteration source.range
        (fun _ _ => o.symbols.elementIn?_of_alike _) hg hab
  refine helement.bind fun a b hab => nestedLast .loop fun inner inner' => ?_
  have hrest : Dim o (inner :: id :: rest) (inner' :: id' :: rest') Grade.same.Allows
      (do let _ ← body.check inner none; return Ty.unit)
      (do let _ ← body.check inner' none; return Ty.unit) := checked hbody
  cases binding with
  | single name =>
    have hdeclare : Dim o (inner :: id :: rest) (inner' :: id' :: rest') Grade.same.Allows
        (do Check.declareVar inner name a false; let _ ← body.check inner none; return Ty.unit)
        (do Check.declareVar inner' name b false; let _ ← body.check inner' none; return Ty.unit) :=
      (declareVar (Outlook.binds_of_mem hbinds List.mem_cons_self) hab false).bind fun _ _ _ =>
        hrest
    dsimp only
    split <;> split
    · exact hdeclare
    · exact rightMark (.inlay _ _) hdeclare
    · exact leftMark (.inlay _ _) hdeclare
    · exact leftMark (.inlay _ _) (rightMark (.inlay _ _) hdeclare)
  | tuple names => exact (destructure hbinds hab _ _ _).bind fun _ _ _ => hrest

/-- The kinds of the scopes are the same in both checks. -/
theorem leaveLoop (jump : Jump) (range : Range) :
    Dim o (id :: rest) (id' :: rest') Grade.same.Allows (leaveLoop jump range id)
      (leaveLoop jump range id') := by
  refine get fun c c' hc => ?_
  rw [hc.scopes.inLoop_eq]
  dsimp only
  split
  · exact pure rfl
  · exact fails rfl _

theorem returnValue_none (range : Range) :
    Dim o (id :: rest) (id' :: rest') Grade.same.Allows (returnValue range none id)
      (returnValue range none id') := by
  refine get fun c c' hc => ?_
  rw [hc.scopes.returnType?_eq]
  dsimp only
  split
  · exact fails rfl _
  · exact (expect range fun haccepts => haccepts).bind fun _ _ _ => pure rfl

/-- A result is compared with the same type in both checks. -/
theorem returnValue_some (range : Range) (hvalue : value.Dims o g free) (hg : o.fits g = true) :
    Dim o (id :: rest) (id' :: rest') Grade.same.Allows (returnValue range (some value) id)
      (returnValue range (some value) id') := by
  refine get fun c c' hc => ?_
  rw [hc.scopes.returnType?_eq]
  dsimp only
  split
  · exact (error rfl _).bind fun _ _ _ => (check hvalue none).bind fun _ _ _ => pure rfl
  · exact (requireSame hvalue hg _).bind fun _ _ _ => pure rfl

end Dim

/-! ## Lambdas -/

namespace Grade

/-- The types of lambdas that differ in their results only. -/
theorem allows_function (hg : g ≠ lost) (params : List (Param Ty)) (hab : g.Allows a b) :
    g.Allows (.function { params, result := a }) (.function { params, result := b }) := by
  cases g with
  | same => exact congrArg (fun t => Ty.function { params, result := t }) hab
  | lost => exact absurd rfl hg
  | faded =>
    exact Alike.fades (.function (List.forall₂_same.2 fun p _ => Fades.refl isUnknown p.ty) hab)
  | loose => trivial

theorem allows_array (hg : g ≠ lost) (hab : g.Allows a b) : g.Allows (.array a) (.array b) := by
  cases g with
  | same => exact congrArg Ty.array hab
  | lost => exact absurd rfl hg
  | faded => exact Alike.fades (.array hab)
  | loose => trivial

theorem allows_tuple (hg : g ≠ lost) {types types' : List Ty}
    (htypes : List.Forall₂ g.Allows types types') : g.Allows (.tuple types) (.tuple types') := by
  cases g with
  | same => exact congrArg Ty.tuple (List.forall₂_eq_eq_eq ▸ htypes.flip)
  | lost => exact absurd rfl hg
  | faded => exact Alike.fades (.tuple htypes)
  | loose => trivial

theorem allows_record (hg : g ≠ lost) {items items' : List (String × Ty)}
    (hitems : List.Forall₂ (fun x y => x.1 = y.1 ∧ g.Allows x.2 y.2) items items') :
    g.Allows (anonymous items) (anonymous items') := by
  cases g with
  | same =>
    have heq : items' = items := by
      refine List.forall₂_eq_eq_eq ▸ (hitems.imp fun x y hxy => ?_).flip
      exact Prod.ext hxy.1.symm hxy.2
    exact congrArg anonymous heq
  | lost => exact absurd rfl hg
  | faded => exact Alike.fades (.record none hitems)
  | loose => trivial

end Grade

namespace Check.Notes

theorem lambdaParam (param : LambdaParam) (expected : Option Ty) :
    Notes (lambdaParam param expected) := by
  unfold Check.lambdaParam
  split
  · exact .typeSpec _
  · split
    · exact (Hushed.inlay _ _).notes.bind fun _ => .pure _
    · exact (error _ _).bind fun _ => .pure _

theorem lambdaParams : (params : List LambdaParam) → (expected : List (Param Ty)) →
    Notes (lambdaParams params expected)
  | [], _ => .pure _
  | param :: rest, expected =>
    (lambdaParam param _).bind fun _ => (lambdaParams rest expected.tail).bind fun _ => .pure _

end Check.Notes

namespace Dim

variable {body : Part}

theorem enterUnseen (seen : List String) {name : Ident} (hbinds : o.Binds .same name) (ty : Ty) :
    Dim o (id :: rest) (id' :: rest') (fun _ _ => True) (enterUnseen id seen name ty)
      (enterUnseen id' seen name ty) := by
  unfold Check.enterUnseen
  split
  · exact error rfl _
  · obtain ⟨h, hvar, -⟩ := hbinds
    exact marks (.token _ _ _) (.token _ _ _) fun _ _ => marks (.hover _ _ _ _) (.hover _ _ _ _)
      fun _ _ => symbols (enter name.name ⟨rfl, rfl, h, hvar, .refl h ty⟩)

theorem enterParams : (seen : List String) → (params : List (Ident × Ty)) →
    (∀ param ∈ params, o.Binds .same param.1) →
    Dim o (id :: rest) (id' :: rest') (fun _ _ => True) (enterParams id seen params)
      (enterParams id' seen params)
  | _, [], _ => pure trivial
  | seen, (name, ty) :: params, hbinds => by
    have hrest := enterParams (name.name :: seen) params fun param hparam =>
      hbinds param (List.mem_cons_of_mem _ hparam)
    exact (enterUnseen seen (hbinds _ List.mem_cons_self) ty).bind fun _ _ _ => hrest

/-- The parameters are the same in both checks, so that only the results may differ. -/
theorem lambdaBody {params : List LambdaParam}
    (hbinds : o.binds (.tuple (params.map LambdaParam.name)) .same = true)
    (hbody : body.Dims o g free) (expected : Option (Signature Ty)) :
    Dim o (id :: rest) (id' :: rest') (Grade.whole [g]).Allows (lambdaBody params body id expected)
      (lambdaBody params body id' expected) := by
  refine (same (.lambdaParams _ _)).bind fun types _ htypes => ?_
  rw [htypes]
  have hparams :
      ∀ param ∈ List.zipWith (fun (p : LambdaParam) (t : Param Ty) => (p.name, t.ty)) params types,
        o.Binds .same param.1 := by
    intro param hparam
    obtain ⟨i, hi, rfl⟩ := List.getElem_of_mem hparam
    rw [List.getElem_zipWith]
    exact Outlook.binds_of_mem hbinds (List.mem_map_of_mem (List.getElem_mem _))
  refine nestedLast _ fun inner inner' => (enterParams [] _ hparams).bind fun _ _ _ =>
    (check hbody _).bind fun _ _ hab => ?_
  exact pure (Grade.allows_function (Grade.whole_ne_lost _) types
    (hab.mono (Grade.le_whole List.mem_cons_self)))

/-- A lambda differs as far as its body. -/
theorem lambda {params : List LambdaParam}
    (hbinds : o.binds (.tuple (params.map LambdaParam.name)) .same = true)
    (hbody : body.Dims o g free) (range : Range) (hint : Option Ty) :
    Dim o (id :: rest) (id' :: rest') (Grade.whole [g]).Allows (lambda range params body id hint)
      (lambda range params body id' hint) := by
  have hlambda : Dim o (id :: rest) (id' :: rest') (Grade.whole [g]).Allows
      (Check.lambdaBody params body id (hint.bind Ty.signature?)) _ := lambdaBody hbinds hbody _
  unfold Check.lambda
  dsimp only
  split
  · split
    · exact hlambda
    · exact (error rfl _).bind fun _ _ _ => hlambda
  · exact hlambda

end Dim

/-! ## Collections -/

namespace Outlook

variable {vague : Grade → Bool}

/-- Only the last one of several values may be vague. -/
theorem leading_cons {first : Grade} {others : List Grade}
    (hleading : leading vague (first :: others) = some g) :
    (first = .same ∧ leading vague others = some g) ∨
      (others = [] ∧ vague first = true ∧ g = .faded) := by
  by_cases hfirst : first = .same
  · refine .inl ⟨hfirst, hleading ▸ ?_⟩
    rw [hfirst]
    cases others <;> simp [leading]
  · have hall : ((first :: others).all (· == .same)) = false := by simp [hfirst]
    rw [leading, hall] at hleading
    cases others with
    | nil =>
      obtain ⟨hvague, hg⟩ : vague first = true ∧ Grade.faded = g := by simpa using hleading
      exact .inr ⟨rfl, hvague, hg.symm⟩
    | cons _ _ => simp [hfirst] at hleading

/-- If not everything is the same, then there is a value that may be vague. -/
theorem cases_of_leading {grades : List Grade} (hleading : leading vague grades = some g) :
    g = .same ∨ (g = .faded ∧ ∃ k, vague k = true) := by
  induction grades with
  | nil =>
    cases hleading
    exact .inl rfl
  | cons first others ih =>
    rcases leading_cons hleading with ⟨-, hothers⟩ | ⟨-, hvague, rfl⟩
    · exact ih hothers
    · exact .inr ⟨rfl, first, hvague⟩

end Outlook

namespace Dim

variable {sketches : List Sketch} {parts : List Part} {hint hint' : Option Ty}

/-- The first known type is that of the elements. -/
theorem elements (hparts : List.Forall₂ (Part.Sketched o) sketches parts) {element : Option Ty}
    (hleading : Outlook.leading o.fits (sketches.map Sketch.grade) = some g) :
    Dim o (id :: rest) (id' :: rest')
      (fun x y => g.Allows (x.getD .unknown) (y.getD .unknown)) (elements id element parts)
      (elements id' element parts) := by
  induction hparts generalizing element with
  | nil => exact pure (.refl _ _)
  | @cons sketch part sketches parts hfirst hparts ih =>
    rw [Check.elements, Check.elements]
    refine (check hfirst.dims element).bind fun a b hab => ?_
    rcases Outlook.leading_cons hleading with ⟨hsame, hleading⟩ | ⟨hnil, hfits, rfl⟩
    · rw [hsame] at hab
      obtain rfl : b = a := hab
      cases element with
      | none => exact ih hleading
      | some expected =>
        exact (expect part.range fun haccepts => haccepts).bind fun _ _ _ => ih hleading
    · obtain rfl := List.map_eq_nil_iff.1 hnil
      cases hparts
      cases element with
      | none =>
        have hknown (t : Ty) : (if t.isUnknown then none else some t).getD .unknown = t := by
          cases t <;> rfl
        refine pure ?_
        rw [hknown, hknown]
        exact hab.mono (Outlook.le_faded_of_fits hfits)
      | some expected =>
        exact (expect part.range (Outlook.accepts_of_fits o.fits_same hfits (.refl _ _) hab)).bind
          fun _ _ _ => pure (.refl _ _)

/-- Only the last element of an array may differ, and the array as far as it does. -/
theorem array (hparts : List.Forall₂ (Part.Sketched o) sketches parts)
    (hleading : Outlook.leading o.fits (sketches.map Sketch.grade) = some g) (range : Range)
    (hint : Option Ty) :
    Dim o (id :: rest) (id' :: rest') g.Allows (array range parts id hint)
      (array range parts id' hint) := by
  have hne : g ≠ .lost := by
    rcases Outlook.cases_of_leading hleading with rfl | ⟨rfl, -⟩ <;> decide
  unfold Check.array
  split
  · exact pure (.refl _ _)
  · exact fails rfl _
  · exact (elements hparts hleading).bind fun _ _ hab => pure (Grade.allows_array hne hab)

theorem tupleItems (hparts : List.Forall₂ (Part.Sketched o) sketches parts)
    (hgrades : ∀ sketch ∈ sketches, sketch.grade ≤ g) {hints hints' : List Ty}
    (hhints : sketches.all Sketch.free = true ∨ hints = hints') :
    Dim o (id :: rest) (id' :: rest') (List.Forall₂ g.Allows) (tupleItems id hints parts)
      (tupleItems id' hints' parts) := by
  induction hparts generalizing hints hints' with
  | nil => exact pure .nil
  | @cons sketch part sketches parts hfirst hparts ih =>
    rw [List.all_cons, Bool.and_eq_true] at hhints
    refine (hfirst.dims _ _ _ _ _ _ (hhints.imp And.left (congrArg List.head?))).bind
      fun a b hab => ?_
    refine (ih (fun sketch hsketch => hgrades sketch (List.mem_cons_of_mem _ hsketch))
      (hhints.imp And.right (congrArg List.tail))).bind fun _ _ hrest => ?_
    exact pure (.cons (hab.mono (hgrades sketch List.mem_cons_self)) hrest)

/-- A tuple differs as far as its items. -/
theorem tuple (hparts : List.Forall₂ (Part.Sketched o) sketches parts)
    (hhint : sketches.all Sketch.free = true ∨ hint = hint') :
    Dim o (id :: rest) (id' :: rest') (Grade.whole (sketches.map Sketch.grade)).Allows
      (tuple parts id hint) (tuple parts id' hint') := by
  have hgrades (sketch : Sketch) (hsketch : sketch ∈ sketches) :
      sketch.grade ≤ Grade.whole (sketches.map Sketch.grade) :=
    Grade.le_whole (List.mem_map_of_mem hsketch)
  refine (tupleItems hparts hgrades (hhint.imp_right fun h => by rw [h])).bind fun _ _ htypes => ?_
  exact pure (Grade.allows_tuple (Grade.whole_ne_lost _) htypes)

/-- An item whose name was used before does not matter for the type. -/
theorem recordItems : (seen : List String) →
    (items : List (Ident × Part)) →
    (∀ item ∈ items, ∃ free, item.2.Dims o g free ∧ (free = true ∨ hint = hint')) →
    Dim o (id :: rest) (id' :: rest')
      (List.Forall₂ fun x y => x.1 = y.1 ∧ g.Allows x.2 y.2) (recordItems id hint seen items)
      (recordItems id' hint' seen items)
  | _, [], _ => pure .nil
  | seen, (name, value) :: items, hitems => by
    have hrest (seen : List String) := recordItems seen items fun item hitem =>
      hitems item (List.mem_cons_of_mem _ hitem)
    obtain ⟨free, hvalue, hhint⟩ := hitems _ List.mem_cons_self
    rw [Check.recordItems, Check.recordItems]
    refine symbols ((hvalue _ _ _ _ _ _ (hhint.imp_right fun h => by rw [h])).bind
      fun a b hab => ?_)
    split
    · exact (error rfl _).bind fun _ _ _ => hrest seen
    · refine marks (.token _ _ _) (.token _ _ _) fun _ _ => ?_
      exact (hrest _).bind fun _ _ hrest => pure (.cons ⟨rfl, hab⟩ hrest)

/-- A record differs as far as its items. -/
theorem record {items : List (Ident × Part)} (hg : g ≠ .lost)
    (hitems : ∀ item ∈ items, ∃ free, item.2.Dims o g free ∧ (free = true ∨ hint = hint')) :
    Dim o (id :: rest) (id' :: rest') g.Allows (record items id hint) (record items id' hint') :=
  map (recordItems [] items hitems) fun _ _ => Grade.allows_record hg

theorem interval {low high : Part} (hlow : low.Dims o g free) (hg : o.fits g = true)
    (hhigh : high.Dims o h free') (hh : o.fits h = true) :
    Dim o (id :: rest) (id' :: rest') Grade.same.Allows (interval low high id)
      (interval low high id') :=
  (requireSame hlow hg Ty.int).bind fun _ _ _ => (requireSame hhigh hh Ty.int).bind fun _ _ _ =>
    pure rfl

end Dim

end ScriptCheck
