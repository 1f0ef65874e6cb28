import ScriptCheck.Check.Item
import ScriptCheck.Proofs.RegimeExpr

/-!
# Items under a regime

At module level there is no scope yet. Items open scopes of their own, and forget them at their end.
A regime that is kept by these steps (`Regime.Grounds`) is kept by the check of every item, and the
second run may see expressions in another way (`Regime.Sees`).
-/

namespace ScriptCheck

open Check

/-! ## Names in items -/

namespace Terms

variable {G : Type} {T : Terms G} {x : Item}

/-- A function may stand where it is, with all that is in it. -/
structure AdmitsFunction (T : Terms G) (decl : FunctionDecl) : Prop where
  name : T.margins.spots decl.name.range
  params : ∀ p ∈ decl.params, T.Binds p.name
  annotations : ∀ spec ∈ decl.annotations, T.Allows spec
  expressions : ∀ e ∈ decl.expressions, T.Admits e

/-- An item may stand where it is, with all that is in it. -/
structure AdmitsItem (T : Terms G) (x : Item) : Prop where
  imports : ∀ decl, x = .use decl → T.Outside decl.module.name
  idents : ∀ name ∈ x.idents, T.margins.spots name.range
  refers : ∀ o ∈ x.refers, T.Uses o
  params : ∀ decl ∈ x.functions, ∀ o ∈ decl.parameters, T.Declares o
  annotations : ∀ spec ∈ x.annotations, T.Allows spec
  expressions : ∀ e ∈ x.expressions, T.Admits e

namespace AdmitsItem

theorem function (h : T.AdmitsItem x) {decl : FunctionDecl} (hdecl : decl ∈ x.functions) :
    T.AdmitsFunction decl := by
  have hidents {name : Ident} (hname : name ∈ decl.idents) : name ∈ x.idents := by
    cases x <;> simp [Item.functions] at hdecl
    case function => exact hdecl ▸ hname
    all_goals exact List.mem_cons_of_mem _ (List.mem_flatMap.2 ⟨decl, hdecl, hname⟩)
  have hwritten {spec : TypeSpec} (hspec : spec ∈ decl.annotations) : spec ∈ x.annotations := by
    have hmem := List.mem_flatMap.2 ⟨decl, hdecl, hspec⟩
    cases x <;> first | exact hmem | cases hdecl
  have hexpression {e : Expr} (he : e ∈ decl.expressions) : e ∈ x.expressions := by
    have hmem := List.mem_flatMap.2 ⟨decl, hdecl, he⟩
    cases x <;> first | exact hmem | cases hdecl
  refine ⟨h.idents _ (hidents List.mem_cons_self), fun p hp => ⟨?_, ?_⟩,
    fun _ hspec => h.annotations _ (hwritten hspec),
    fun _ he => h.expressions _ (hexpression he)⟩
  · exact h.params decl hdecl _ (List.mem_map_of_mem hp)
  · exact h.idents _ (hidents (List.mem_cons_of_mem _ (List.mem_map_of_mem hp)))

/-- It is enough that the names of the item may stand in it. -/
theorem of_names (hknown : ∀ name, T.Known name) (hmodules : ∀ m ∈ x.modules, T.Outside m)
    (huses : ∀ o ∈ x.uses, T.Uses o) (hdeclares : ∀ o ∈ x.declares, T.Declares o)
    (hcovers : T.margins.CoversItem x) : T.AdmitsItem x := by
  simp only [Item.uses, Item.declares, List.forall_mem_append, List.forall_mem_flatMap]
    at huses hdeclares
  refine ⟨?_, hcovers.idents, huses.1.1, hdeclares.1.2, fun spec hspec => ?_, fun e he => ?_⟩
  · rintro decl rfl
    exact hmodules _ List.mem_cons_self
  · exact ⟨fun m hm => hmodules m (Item.modules_subset_of_annotation hspec hm),
      huses.1.2 spec hspec, hcovers.annotations spec hspec⟩
  · exact ⟨fun m hm => hmodules m (Item.modules_subset_of_expression he hm), fun _ _ => hknown _,
      huses.2 e he, hdeclares.2 e he, hcovers.expressions e he⟩

/-- Without a directory only the modules matter. -/
theorem of_any (hT : T.toDirectory = {}) (hknown : ∀ name, T.Known name)
    (hmodules : ∀ m ∈ x.modules, T.Outside m) : T.AdmitsItem x :=
  of_names hknown hmodules (by simp [hT]) (by simp [hT]) (hT ▸ Margins.wide_coversItem x)

end AdmitsItem

end Terms

/-! ## Items -/

namespace Regime

variable {G : Type} [Effects G] {α β : Type} {L : Regime G} {w : L.World} {x : L.Site}
  {see : Expr → Part}

/-- A way to see expressions that the regime does not notice. -/
def Sees (L : Regime G) (see : Expr → Part) : Prop :=
  ∀ {e : Expr}, L.Admits e → e.part.Runs L e.effect (see e)

/-- At module level, the views of both runs give the same answers and the regime is kept. -/
structure Grounds (L : Regime G) : Prop where
  known (name : String) : L.Known name
  like_registered? {v v' : View} (name : Ident) (role : Role) : L.Like v v' →
    registered? v' name role = registered? v name role
  like_self {v v' : View} : L.Like v v' → v'.self = v.self ∧ ∀ self ∈ v.self, L.Good self.ty
  like_constants {v v' : View} (name : String) : L.Like v v' →
    v'.symbols.constants.get? name = v.symbols.constants.get? name
  like_functions {v v' : View} (name : String) : L.Like v v' →
    v'.symbols.functions.get? name = v.symbols.functions.get? name
  like_registry {v v' : View} {name : String} : L.Like v v' → L.Outside name →
    v'.symbols.registry.module? name = v.symbols.registry.module? name
  rel_size {w : L.World} {c c' : Checker} : L.rel w c c' →
    L.ids w c.scopes.size c'.scopes.size
  rel_root {w : L.World} {c c' : Checker} {kind : ScopeKind} : L.rel w c c' →
    (∀ t, kind = .function t → L.Hint t) →
    L.rel w { c with scopes := c.scopes.push none kind }
      { c' with scopes := c'.scopes.push none kind }

/-- What is done between items, and what blocks for a struct do to `Self`. -/
structure Level (L : Regime G) (w : L.World) : Prop where
  close : Coupled (L.rel w) (Same Any) closeScopes closeScopes
  block (name : String) {m m' : Symbols → CheckM Unit}
    (hm : ∀ {v v'}, L.Like v v' → ∀ u, Coupled (L.rel u) (Same Any) closeScopes closeScopes →
      Coupled (L.rel u) (Same Any) (m v.symbols) (m' v'.symbols)) :
    Coupled (L.rel w) (Same Any)
      (do let s ← Check.symbols; setSelf (Symbols.selfOf? s name); m s; setSelf none)
      (do let s ← Check.symbols; setSelf (Symbols.selfOf? s name); m' s; setSelf none)

namespace Grounds

variable (hL : L.Grounds)

include hL

theorem top {g : G} {P : α → Prop} {m m' : CheckM α} (h : ∀ {x : L.Site}, L.Runs x g P m m') :
    Coupled (L.rel w) (Same P) m m' :=
  Regime.top hL.rel_size h

/-- An item opens a scope of its own. -/
theorem openRoot (kind : ScopeKind) (hkind : ∀ t, kind = .function t → L.Hint t) {R : α → β → Prop}
    {k : Nat → CheckM α} {k' : Nat → CheckM β}
    (hk : ∀ id id', L.ids w id id' → Coupled (L.rel w) R (k id) (k' id')) :
    Coupled (L.rel w) R (openScope none kind >>= k) (openScope none kind >>= k') :=
  fun _ _ hc => hk _ _ (hL.rel_size hc) (hL.rel_root hc hkind)

/-- The value of a constant, of which nothing but the type is taken over. -/
theorem inferred (htwins : ∀ p, L.Twins p p) {e : Expr} (h : L.Admits e) :
    Coupled (L.rel w) (Same L.Good) (Declare.inference e.part) (Declare.inference e.part) :=
  hL.openRoot .block nofun fun id id' hid =>
    (infer (x := ⟨w, id, id', hid⟩) (L.expr htwins h) hints_none).coupled

theorem importedName {name : Ident} (hname : L.margins.spots name.range) :
    L.Keeps x Any (importedName name) := by
  refine symbols fun v v' hv => ?_
  rw [hL.like_constants _ hv, hL.like_functions _ hv, Table.contains, Table.contains,
    L.like_types _ hv]
  split
  · exact markConstant hname _
  · split
    · exact markFunction hname _
    · split
      · exact token (L.margins.marks_of_spots hname) _ _
      · exact pure trivial

theorem importedNames : (names : List Ident) →
    (∀ name ∈ names, L.margins.spots name.range) → L.Keeps x Any (importedNames names)
  | [], _ => pure trivial
  | _ :: rest, h =>
    (hL.importedName (List.forall_mem_cons.1 h).1).quiet fun _ _ =>
      importedNames rest (List.forall_mem_cons.1 h).2

/-- An import marks names that both runs find. -/
theorem use {decl : UseDecl} (h : L.AdmitsItem (.use decl)) : L.Keeps x Any (use decl) := by
  obtain ⟨module, imports, range⟩ := decl
  obtain ⟨hmodule, hnames⟩ := List.forall_mem_cons.1 h.idents
  refine symbols fun v v' hv => ?_
  rw [hL.like_registry hv (h.imports _ rfl)]
  split
  · exact pure trivial
  · refine (token (L.margins.marks_of_spots hmodule) _ _).quiet fun _ _ => ?_
    dsimp only
    split
    case' isFalse => refine (hoverText _ _).quiet fun _ _ => ?_
    all_goals
      cases imports with
      | all => exact pure trivial
      | names listed => exact hL.importedNames listed hnames
      | module shortName =>
        cases shortName with
        | none => exact pure trivial
        | some name =>
          exact token (L.margins.marks_of_spots (hnames name List.mem_cons_self)) _ _

omit hL in
theorem typeAlias {decl : AliasDecl} (h : L.AdmitsItem (.typeAlias decl)) :
    L.Keeps x Any (typeAlias decl) := by
  have hname := h.idents _ List.mem_cons_self
  exact (checkSpec _ (h.annotations _ List.mem_cons_self)).quiet fun _ _ =>
    (token (L.margins.marks_of_spots hname) _ _).quiet fun _ _ => hover _ _ _ _

omit hL in
theorem showConst {decl : ConstDecl} (hname : L.margins.spots decl.name.range) (inferred : Bool)
    (ty : Ty) : L.Keeps x Any (showConst decl inferred ty) := by
  have hend : L.Keeps x Any (do
      Check.token decl.name.range .var [.declaration, .readonly]
      Check.hover decl.name.range decl.name.name ty decl.description) :=
    (token (L.margins.marks_of_spots hname) _ _).quiet fun _ _ => hover _ _ _ _
  unfold Check.showConst
  dsimp only
  split
  · split
    · exact (warn _ hname).quiet fun _ _ => hend
    · exact (inlay _ _).quiet fun _ _ => hend
  · exact hend

variable (hsee : L.Sees see)

include hsee

/-- The value of a constant is checked in a scope of its own. -/
theorem const {decl : ConstDecl} (h : L.AdmitsItem (.const decl)) :
    Coupled (L.rel w) (Same Any) (const Expr.part decl) (const see decl) := by
  have hvalue := h.expressions _ List.mem_cons_self
  refine (hL.top (annotated fun spec hspec =>
    h.annotations spec (Option.mem_toList.2 hspec))).bind_same fun declared hdeclared => ?_
  have htype : Coupled (L.rel w) (Same L.Good) (rootType declared decl.value.part)
      (rootType declared (see decl.value)) :=
    hL.openRoot .block nofun fun id id' hid =>
      (declaredType (x := ⟨w, id, id', hid⟩) hdeclared (hsee hvalue)).coupled
  exact htype.bind_same fun ty _ =>
    hL.top (showConst (h.idents _ List.mem_cons_self) _ ty)

theorem structFields :
    (fields : List FieldDecl) → (∀ f ∈ fields, L.margins.spots f.name.range ∧ L.Allows f.type ∧
      ∀ e ∈ f.default, L.Admits e) →
    Coupled (L.rel w) (Same Any) (structFields Expr.part fields) (structFields see fields)
  | [], _ => hL.top (pure trivial)
  | decl :: rest, h => by
    obtain ⟨⟨hname, htype, hdefault⟩, hrest⟩ := List.forall_mem_cons.1 h
    have hrest := structFields rest hrest
    refine (hL.top (checkSpec _ htype)).bind_same fun ty hty =>
      (hL.top (token (L.margins.marks_of_spots hname) _ _)).bind_same fun _ _ =>
        (hL.top (hover _ _ _ _)).bind_same fun _ _ => ?_
    cases hvalue : decl.default with
    | some value =>
      exact hL.openRoot .block nofun fun id id' hid => (require (x := ⟨w, id, id', hid⟩)
        (hsee (hdefault value hvalue)) (L.hint hty)).coupled.bind_same fun _ _ => hrest
    | none => exact hrest

/-- A struct is checked field by field, with a scope for each default value. -/
theorem struct {decl : StructDecl} (h : L.AdmitsItem (.struct decl)) :
    Coupled (L.rel w) (Same Any) (struct Expr.part decl) (struct see decl) := by
  obtain ⟨hname, hnames⟩ := List.forall_mem_cons.1 h.idents
  have hfields := hL.structFields (w := w) hsee decl.fields fun f hf =>
    ⟨hnames _ (List.mem_map_of_mem hf), h.annotations _ (List.mem_map_of_mem hf), fun e he =>
      h.expressions e (List.mem_flatMap.2 ⟨f, hf, Option.mem_toList.2 he⟩)⟩
  refine (hL.top (token (L.margins.marks_of_spots hname) _ _)).bind_same fun _ _ =>
    topSymbols fun v v' hv => ?_
  rw [L.like_types _ hv]
  cases v.symbols.types.get? decl.name.name with
  | some found => exact (hL.top (hover _ _ _ _)).bind_same fun _ _ => hfields
  | none => exact hfields

omit hsee in
theorem paramType {param : ParamDecl} (hname : L.margins.spots param.name.range)
    (h : ∀ spec ∈ param.type, L.Allows spec) (isReceiver : Bool) :
    L.Keeps x L.Good (paramType param isReceiver) := by
  unfold Check.paramType
  cases htype : param.type with
  | some spec => exact checkSpec spec (h spec htype)
  | none =>
    dsimp only
    split
    · refine get fun c c' hc => ?_
      obtain ⟨hsame, hgood⟩ := hL.like_self (L.like hc)
      rw [View.selfType?, View.selfType?, hsame]
      refine pure (good_getD fun t ht => ?_)
      obtain ⟨self, hself, rfl⟩ := Option.map_eq_some_iff.1 ht
      exact hgood self hself
    · exact complaint rfl rfl hname

theorem checkDefault {param : ParamDecl} (h : ∀ e ∈ param.default, L.Admits e) {ty : Ty}
    (hty : L.Good ty) {defaults defaults' : Nat} (hdefaults : L.ids w defaults defaults') :
    Coupled (L.rel w) (Same Any) (checkDefault Expr.part param ty defaults)
      (checkDefault see param ty defaults') := by
  unfold Check.checkDefault
  cases hvalue : param.default with
  | none => exact hL.top (pure trivial)
  | some value =>
    exact (require (x := ⟨w, defaults, defaults', hdefaults⟩) (hsee (h value hvalue))
      (L.hint hty)).coupled

omit hsee in
theorem enterUnseen (seen : List String) {name : Ident} (hname : L.Binds name) {ty : Ty}
    (hty : L.Good ty) {body body' : Nat} (hbody : L.ids w body body') :
    Coupled (L.rel w) (Same Any) (Check.enterUnseen body seen name ty)
      (Check.enterUnseen body' seen name ty) := by
  unfold Check.enterUnseen
  split
  · exact hL.top (error rfl rfl hname.spot)
  · exact (enterParam (x := ⟨w, body, body', hbody⟩) hname hty).coupled

/-- Default values are checked in one scope, and parameters enter another. -/
theorem functionParams (role : Role) {body body' defaults defaults' : Nat}
    (hbody : L.ids w body body') (hdefaults : L.ids w defaults defaults') :
    (first : Bool) → (seen : List String) →
    (params : List ParamDecl) → (∀ p ∈ params, L.Binds p.name ∧ (∀ spec ∈ p.type, L.Allows spec) ∧
      ∀ e ∈ p.default, L.Admits e) →
    Coupled (L.rel w) (Same Any) (functionParams Expr.part role body defaults first seen params)
      (functionParams see role body' defaults' first seen params)
  | _, _, [], _ => hL.top (pure trivial)
  | first, seen, param :: rest, h => by
    obtain ⟨⟨hname, htype, hdefault⟩, hrest⟩ := List.forall_mem_cons.1 h
    exact (hL.top (hL.paramType hname.spot htype _)).bind_same fun ty hty =>
      (hL.checkDefault hsee hdefault hty hdefaults).bind_same fun _ _ =>
        (hL.enterUnseen seen hname hty hbody).bind_same fun _ _ =>
          (functionParams role hbody hdefaults false (param.name.name :: seen) rest
            hrest).bind_same fun _ _ => hL.top (pure trivial)

omit hsee in
theorem showRegistered (role : Role) (decl : FunctionDecl) :
    L.Keeps x Any (showRegistered role decl) := by
  refine get fun c c' hc => ?_
  rw [hL.like_registered? _ _ (L.like hc)]
  split
  · exact hover _ _ _ _
  · exact pure trivial

/-- What the check of a body works with, in both runs. -/
structure OpeningRuns (L : Regime G) (w : L.World) (o o' : Opening) : Prop where
  body : L.ids w o.body o'.body
  result : o'.result = o.result
  good : L.Good o.result

/-- A function is opened with the same result in both runs. -/
theorem opening (role : Role) {decl : FunctionDecl} (h : L.AdmitsFunction decl) :
    Coupled (L.rel w) (OpeningRuns L w) (opening Expr.part role decl) (opening see role decl) := by
  obtain ⟨hresult, htypes⟩ := List.forall_mem_cons.1 h.annotations
  have hdefaults := (List.forall_mem_cons.1 h.expressions).2
  have hparams : ∀ p ∈ decl.params, L.Binds p.name ∧ (∀ spec ∈ p.type, L.Allows spec) ∧
      ∀ e ∈ p.default, L.Admits e := fun p hp =>
    ⟨h.params p hp,
      fun spec hspec => htypes spec (List.mem_flatMap.2 ⟨p, hp, Option.mem_toList.2 hspec⟩),
      fun e he => hdefaults e (List.mem_flatMap.2 ⟨p, hp, Option.mem_toList.2 he⟩)⟩
  refine (hL.top (checkSpec _ hresult)).bind_same fun result hresult =>
    (hL.top (token (L.margins.marks_of_spots h.name) _ _)).bind_same fun _ _ =>
      (hL.top (hL.showRegistered role decl)).bind_same fun _ _ => ?_
  refine hL.openRoot (.function result) ?_ fun body body' hid =>
    hL.openRoot .block nofun fun _ _ hdefaults =>
      (hL.functionParams hsee role hid hdefaults true [] _ hparams).bind_same fun _ _ =>
        .pure ⟨hid, rfl, hresult⟩
  rintro _ ⟨⟩
  exact L.hint hresult

/-- The check of a function keeps the regime, with that of its body. -/
theorem function (role : Role) {decl : FunctionDecl} (h : L.AdmitsFunction decl) :
    Coupled (L.rel w) (Same Any) (function Expr.part role decl) (function see role decl) := by
  have hbody := (List.forall_mem_cons.1 h.expressions).1
  refine (hL.opening hsee role h).bind fun o o' ho => ?_
  unfold checkBody
  rw [ho.result]
  exact ((hsee hbody).check ⟨w, o.body, o'.body, ho.body⟩
    (hints_some (L.hint ho.good))).coupled.bind_same fun _ hfound =>
      hL.top (expect (L.hint ho.good) hfound hbody.covers.resultRange rfl)

theorem functions (hclose : Coupled (L.rel w) (Same Any) closeScopes closeScopes) (role : Role) :
    (decls : List FunctionDecl) → (∀ decl ∈ decls, L.AdmitsFunction decl) →
    Coupled (L.rel w) (Same Any) (functions Expr.part role decls) (functions see role decls)
  | [], _ => hL.top (pure trivial)
  | decl :: rest, h => by
    obtain ⟨hdecl, hrest⟩ := List.forall_mem_cons.1 h
    exact (hL.function hsee role hdecl).bind_same fun _ _ => hclose.bind_same fun _ _ =>
      functions hclose role rest hrest

/-- A block is checked with its struct for `Self`. -/
theorem impl (hlevel : L.Level w) (role : Role) {decl : ImplDecl} (hname : L.Refers .type decl.name)
    (h : ∀ f ∈ decl.functions, L.AdmitsFunction f) :
    Coupled (L.rel w) (Same Any) (impl Expr.part role decl) (impl see role decl) := by
  let inside (see : Expr → Part) (s : Symbols) : CheckM Unit := do
    Check.token decl.name.range .struct []
    Check.link decl.name.range ((s.types.get? decl.name.name).bind TypeAlias.definition)
    Check.functions see role decl.functions
  have hblock := hlevel.block decl.name.name (m := inside Expr.part) fun {v v'} hv u hclose => by
    have hplaces : ∀ d ∈ (v.symbols.types.get? decl.name.name).bind TypeAlias.definition,
        L.Places .type decl.name.name d := by
      intro d hd
      obtain ⟨found, hfound, hd⟩ := Option.bind_eq_some_iff.1 hd
      exact (L.like_placed hv).types.get? hfound d hd
    change Coupled _ _ _ (inside see v'.symbols)
    dsimp only [inside]
    rw [L.like_types _ hv]
    exact (hL.top (token hname.mark _ _)).bind_same fun _ _ =>
      (hL.top (link _ hname.use hplaces)).bind_same fun _ _ => hL.functions hsee hclose role _ h
  simpa only [inside, Check.impl, openImpl, bind_assoc] using hblock

/-- The check of every item keeps the regime. -/
theorem item (hlevel : L.Level w) :
    (x : Item) → L.AdmitsItem x → Coupled (L.rel w) (Same Any) (item Expr.part x) (item see x)
  | .use _, h => hL.top (hL.use h)
  | .const _, h => hL.const hsee h
  | .function _, h => hL.function hsee .function (h.function List.mem_cons_self)
  | .struct _, h => hL.struct hsee h
  | .typeAlias _, h => hL.top (typeAlias h)
  | .methods _, h =>
    hL.impl hsee hlevel .method ⟨h.refers _ List.mem_cons_self, h.idents _ List.mem_cons_self⟩
      fun _ hf => h.function hf
  | .operators _, h =>
    hL.impl hsee hlevel .operator
      ⟨h.refers _ List.mem_cons_self, h.idents _ List.mem_cons_self⟩
      fun _ hf => h.function hf

/-- The second pass keeps the regime. -/
theorem items (hlevel : L.Level w) :
    (xs : List Item) → (∀ x ∈ xs, L.AdmitsItem x) →
    Coupled (L.rel w) (Same Any) (items Expr.part xs) (items see xs)
  | [], _ => hL.top (pure trivial)
  | x :: rest, h => by
    obtain ⟨hx, hrest⟩ := List.forall_mem_cons.1 h
    exact (hL.item hsee hlevel x hx).bind_same fun _ _ => hlevel.close.bind_same fun _ _ =>
      items hlevel rest hrest

end Grounds

end Regime

/-! ## Invariants -/

namespace Invariant

open Regime

variable {G : Type} [Effects G] {Post : Nat → G → Checker → Checker → Prop}
  {Inv : Checker → Prop} {Sees : View → Prop} {D : Directory}

theorem grounds (h : Invariant Inv Sees Any D) (hpost : EffectLaws Post) :
    (h.regime hpost).Grounds where
  known _ := trivial
  like_registered? _ _ hv := by rw [hv.1]
  like_self hv := ⟨by rw [hv.1], fun _ _ => trivial⟩
  like_constants _ hv := by rw [hv.1]
  like_functions _ hv := by rw [hv.1]
  like_registry hv _ := by rw [hv.1]
  rel_size hc := by rw [hc.1]; rfl
  rel_root hc _ := ⟨by rw [hc.1], h.push none _ hc.2⟩

theorem closeScopes (h : Invariant Inv Sees Any D) :
    Coupled ((h.regime .any).rel ()) (Same Any) closeScopes closeScopes := by
  rintro _ c ⟨rfl, hc⟩
  exact ⟨⟨rfl, trivial⟩, rfl, h.truncate 0 hc⟩

/-- The second pass keeps an invariant that has nothing to do with `Self`. -/
theorem items (h : Invariant Inv Sees Any D)
    (hself : ∀ {c : Checker} (self : Option SelfType), Inv c → Inv ((setSelf self).run c).2)
    {xs : List Item} (hxs : ∀ x ∈ xs, (h.regime .any).AdmitsItem x) {c : Checker} (hc : Inv c) :
    Inv ((items Expr.part xs).run c).2 := by
  have hlevel : Level (h.regime .any) () := by
    refine ⟨h.closeScopes, fun name m m' hm => ?_⟩
    rintro _ c ⟨rfl, hc⟩
    obtain ⟨-, hstate, hend⟩ := hm (v := c.view) ⟨rfl, h.view hc⟩ () h.closeScopes
      ⟨rfl, hself (Symbols.selfOf? c.view.symbols name) hc⟩
    exact ⟨⟨rfl, trivial⟩, congrArg (fun d => ((setSelf none).run d).2) hstate, hself none hend⟩
  have hrun := (h.grounds .any).items (fun he => Regime.expr (fun _ => trivial) he) hlevel xs hxs
  exact (hrun ⟨rfl, hc⟩).2.2

end Invariant

end ScriptCheck
