import ScriptCheck.Proofs.SettledDeclarations

/-!
# Warnings follow errors

A warning is given for a variable or a constant whose type is unknown. In a script whose annotations
are saturated and whose expressions are steady, over a complete library, an unknown type is the
consequence of an error: the check of each item complains about an error first, if it complains at
all. Every warning then has an error before it, unless something that the script declares has an
error itself, which is reported with the item that declares it (`warnings_follow_errors`).

In other scripts there may be warnings and no errors (`warnings_without_errors`). Jumps have no
type, a generic function may leave its result open, and the first pass enters as unknown what is
declared later.
-/

namespace ScriptCheck

open Declare
open Check (Role)

/-! ## Items -/

/-- The check of a steady expression where all constants are settled. -/
theorem Expr.steady_settled {v : View} (hv : v.Settled fun _ => True) {e : Expr} {need : Need}
    (h : e.steady v need = true) : e.part.Steady v (need.Met v.registry) :=
  e.steady_part hv need (fun _ _ => trivial) h

namespace Check.Steady

variable {v : View} {p : Prop}

theorem importedName (name : Ident) : Steady v p Whatever (importedName name) := by
  refine symbols ?_
  split
  · exact markConstant _ _
  · split
    · exact markFunction _ _
    · split
      · exact token _ _ _
      · exact pure fun _ => trivial

theorem importedNames : (names : List Ident) → Steady v p Whatever (importedNames names)
  | [] => pure fun _ => trivial
  | name :: rest => (importedName name).andThen (importedNames rest)

theorem use (decl : UseDecl) : Steady v p Whatever (use decl) := by
  refine symbols ?_
  split
  · exact pure fun _ => trivial
  · refine (token _ _ _).andThen ?_
    dsimp only
    split
    case' isFalse => refine (hoverText _ _).andThen ?_
    all_goals
      split
      · exact token _ _ _
      · exact pure fun _ => trivial
      · exact pure fun _ => trivial
      · exact importedNames _

variable (hv : v.Settled fun _ => True)

include hv

/-- A constant is steady if its annotation is saturated and its value is steady; without an
annotation the value needs a settled type. -/
theorem const {decl : ConstDecl} (htype : ∀ spec ∈ decl.type, spec.saturated v = true)
    (hvalue : decl.value.steady v (if decl.type.isSome then .any else .value) = true) :
    Steady v p Whatever (const Expr.part decl) := by
  cases hdecl : decl.type with
  | none =>
    rw [hdecl] at hvalue
    rw [const_eq hdecl]
    exact (rootType hv (fun _ _ => trivial) hvalue).bind fun ty =>
      showConst decl true fun hp => hp.2.isUnknown_eq_false
  | some spec =>
    rw [hdecl] at hvalue
    rw [Check.const, hdecl, annotated, bind_map_left]
    have hroot (declared : Ty) : Steady v (p ∧ declared.Settled v.registry)
        (Ty.Settled v.registry) (Check.rootType (some declared) decl.value.part) :=
      (openBlock none).bind fun id =>
        declaredType (by simp) (decl.value.steady_settled hv hvalue)
    exact (checkSpec hv fun _ => htype spec hdecl).bind fun declared =>
      (hroot declared).bind fun ty => showConst decl _ fun hp => hp.2.isUnknown_eq_false

theorem structFields : {p : Prop} → (fields : List FieldDecl) →
    (∀ f ∈ fields, f.type.saturated v = true) →
    (∀ f ∈ fields, ∀ value ∈ f.default, value.steady v .any = true) →
    Steady v p Whatever (structFields Expr.part fields)
  | _, [], _, _ => pure fun _ => trivial
  | _, decl :: rest, htypes, hdefaults => by
    obtain ⟨htype, htypes⟩ := List.forall_mem_cons.1 htypes
    obtain ⟨hdefault, hdefaults⟩ := List.forall_mem_cons.1 hdefaults
    have hrest {p : Prop} : Steady v p Whatever (Check.structFields Expr.part rest) :=
      structFields rest htypes hdefaults
    refine (checkSpec hv fun _ => htype).bind fun ty => (token _ _ _).andThen <|
      (hover _ _ _ _).andThen ?_
    cases hvalue : decl.default with
    | none => exact hrest
    | some value =>
      exact (openBlock none).bind fun id =>
        (require (Expr.steady_settled hv (hdefault value hvalue))
          fun hp => hp.1.2.saturated).andThen hrest

theorem struct {decl : StructDecl} (htypes : ∀ f ∈ decl.fields, f.type.saturated v = true)
    (hdefaults : ∀ f ∈ decl.fields, ∀ value ∈ f.default, value.steady v .any = true) :
    Steady v p Whatever (struct Expr.part decl) := by
  refine (token _ _ _).andThen <| symbols ?_
  dsimp only
  split
  · exact (hover _ _ _ _).andThen (structFields hv _ htypes hdefaults)
  · exact structFields hv _ htypes hdefaults

theorem typeAlias {decl : AliasDecl} (htype : decl.type.saturated v = true) :
    Steady v p Whatever (typeAlias decl) :=
  (checkSpec hv fun _ => htype).bind fun _ => (token _ _ _).andThen (hover _ _ _ _)

/-! ### Functions -/

/-- The receiver of a method has the type that `Self` stands for. -/
theorem paramType {param : ParamDecl} {isReceiver : Bool}
    (htype : ∀ spec ∈ param.type, spec.saturated v = true)
    (hself : isReceiver = true → v.self.isSome) :
    Steady v p (Ty.Settled v.registry) (paramType param isReceiver) := by
  unfold Check.paramType
  split
  · rename_i spec hspec
    exact checkSpec hv fun _ => htype spec hspec
  · split
    · rename_i hreceiver
      refine get fun c => pure fun hp => ?_
      obtain ⟨self, hself⟩ := Option.isSome_iff_exists.1 (hself hreceiver)
      rw [View.selfType?, hp.2.view, hself]
      exact hv.self self hself
    · exact fails _ _

/-- Parameters enter the scope of the body with settled types. -/
theorem functionParams {role : Role} (hself : role = .method → v.self.isSome)
    (body defaults : Nat) :
    {p : Prop} → (first : Bool) → (seen : List String) → {params : List ParamDecl} →
    (∀ param ∈ params, ∀ spec ∈ param.type, spec.saturated v = true) →
    (∀ param ∈ params, ∀ value ∈ param.default, value.steady v .any = true) →
    Steady v p Whatever (functionParams Expr.part role body defaults first seen params)
  | _, _, _, [], _, _ => pure fun _ => trivial
  | p, first, seen, param :: rest, htypes, hdefaults => by
    obtain ⟨htype, htypes⟩ := List.forall_mem_cons.1 htypes
    obtain ⟨hdefault, hdefaults⟩ := List.forall_mem_cons.1 hdefaults
    have hreceiver (h : (role == .method && first && param.name.name == "self") = true) :
        role = .method := by
      simp_all
    have hcheck (ty : Ty) : Steady v (p ∧ ty.Settled v.registry) Whatever
        (checkDefault Expr.part param ty defaults) := by
      unfold checkDefault
      split
      · rename_i value hvalue
        exact require (Expr.steady_settled hv (hdefault value hvalue)) fun hp => hp.2.saturated
      · exact pure fun _ => trivial
    exact (paramType hv htype fun h => hself (hreceiver h)).bind fun ty =>
      (hcheck ty).andThen <| (enterUnseen seen _ And.right).andThen <|
        (functionParams hself body defaults false _ htypes hdefaults).bind fun _ =>
          pure fun _ => trivial

/-- The result of a function that is opened has a settled type. -/
theorem opening {role : Role} (hself : role = .method → v.self.isSome) {decl : FunctionDecl}
    (hsaturated : decl.saturated v = true) (hsteady : decl.steady v = true) :
    Steady v p (fun o => o.result.Settled v.registry) (opening Expr.part role decl) := by
  simp only [FunctionDecl.saturated, FunctionDecl.steady, Bool.and_eq_true, List.all_eq_true,
    Option.all_eq_true] at hsaturated hsteady
  have hshow (q : Prop) : Steady v q Whatever (showRegistered role decl) := by
    refine get fun c => ?_
    split
    · exact hover _ _ _ _
    · exact pure fun _ => trivial
  refine (checkSpec hv fun _ => hsaturated.1).bind fun result => (token _ _ _).andThen <|
    (hshow _).andThen <| (openScope none fun hp t ht => ?_).bind fun body =>
      (openBlock none).bind fun defaults =>
        (functionParams hv hself body defaults true [] hsaturated.2 hsteady.1).bind fun params =>
          pure fun hp => hp.1.1.1.2
  exact ScopeKind.function.inj ht ▸ hp.2.saturated

/-- A function is steady if its annotations are saturated and its default values and its body are
steady; their types are compared, not read. -/
theorem function {role : Role} (hself : role = .method → v.self.isSome) {decl : FunctionDecl}
    (hsaturated : decl.saturated v = true) (hsteady : decl.steady v = true) :
    Steady v p Whatever (function Expr.part role decl) := by
  have hbody : decl.body.steady v .any = true := by
    simp only [FunctionDecl.steady, Bool.and_eq_true] at hsteady
    exact hsteady.2
  exact (opening hv hself hsaturated hsteady).bind fun o =>
    (Expr.steady_settled hv hbody _ _ _ fun hp t ht =>
      Option.some.inj ht ▸ hp.2.saturated).bind fun found =>
        (expect _ _ _).imp (fun h => h) fun _ _ _ => trivial

theorem functions {role : Role} (hself : role = .method → v.self.isSome) :
    (decls : List FunctionDecl) →
    (∀ decl ∈ decls, decl.saturated v = true) → (∀ decl ∈ decls, decl.steady v = true) →
    Steady v p Whatever (functions Expr.part role decls)
  | [], _, _ => pure fun _ => trivial
  | decl :: rest, hsaturated, hsteady => by
    obtain ⟨hfirst, hsaturated⟩ := List.forall_mem_cons.1 hsaturated
    obtain ⟨hfirst', hsteady⟩ := List.forall_mem_cons.1 hsteady
    exact (function hv hself hfirst hfirst').andThen
      (closeScopes.andThen (functions hself rest hsaturated hsteady))

omit hv in
/-- The functions of a block are checked with `Self` for the struct, if there is one. -/
theorem impl {s : Symbols} (hs : s.Settled fun _ => True) {role : Role} {decl : ImplDecl}
    (hself : role = .method → (Symbols.selfOf? s decl.name.name).isSome)
    (hsaturated : ∀ f ∈ decl.functions, f.saturated (decl.view s) = true)
    (hsteady : ∀ f ∈ decl.functions, f.steady (decl.view s) = true) :
    Steady { symbols := s } p Whatever (impl Expr.part role decl) := by
  have hblock : Steady (decl.view s) True Whatever (do
      Check.token decl.name.range .struct []
      Check.link decl.name.range ((s.types.get? decl.name.name).bind TypeAlias.definition)
      Check.functions Expr.part role decl.functions) :=
    (token _ _ _).andThen <| (link _ _).andThen <|
      functions ⟨hs, hs.selfOf?⟩ hself decl.functions hsaturated hsteady
  have hleft {c : Checker} (h : c.view = decl.view s) :
      ({ c.view with self := none } : View) = { symbols := s } := by rw [h, ImplDecl.view]
  constructor
  · rintro ⟨_, scopes, report, muted⟩ ⟨rfl, hc⟩
    obtain ⟨hview, hend⟩ := hblock.failed { view := decl.view s, scopes, report, muted } ⟨rfl, hc⟩
    exact ⟨hleft hview, hend⟩
  · rintro _ ⟨_, scopes, report, muted⟩ hc
    obtain rfl := hc.view
    obtain ⟨hview, hend⟩ | ⟨hend, -⟩ := hblock.settled trivial
      { view := decl.view s, scopes, report, muted } { hc with view := rfl }
    · exact .inl ⟨hleft hview, hend⟩
    · exact .inr ⟨{ hend with view := hleft hend.view }, trivial⟩

omit hv in
theorem item {s : Symbols} (hs : s.Settled fun _ => True) {x : Item}
    (hsaturated : x.saturated s = true) (hsteady : x.steady s = true)
    (hself : ∀ decl, x = .methods decl → (Symbols.selfOf? s decl.name.name).isSome) :
    Steady { symbols := s } p Whatever (item Expr.part x) := by
  cases x with
  | use decl => exact use decl
  | const decl => exact const hs.root ((Option.all_eq_true _ _).1 hsaturated) hsteady
  | function decl => exact function hs.root (by nofun) hsaturated hsteady
  | struct decl =>
    simp only [Item.saturated, Item.steady, List.all_eq_true, Option.all_eq_true]
      at hsaturated hsteady
    exact struct hs.root hsaturated hsteady
  | typeAlias decl => exact typeAlias hs.root hsaturated
  | methods decl =>
    exact impl hs (fun _ => hself decl rfl) (List.all_eq_true.1 hsaturated)
      (List.all_eq_true.1 hsteady)
  | operators decl =>
    exact impl hs (fun h => absurd h (by decide)) (List.all_eq_true.1 hsaturated)
      (List.all_eq_true.1 hsteady)

end Check.Steady

/-! ## Scripts -/

/-- The first complaint, if there is any, is an error. -/
def ErrorLed (ds : List Diagnostic) : Prop := ∀ d ∈ ds.head?, d.isError = true

namespace ErrorLed

theorem nil : ErrorLed [] := by simp [ErrorLed]

theorem append {ds more : List Diagnostic} (h : ErrorLed ds) (hmore : ErrorLed more) :
    ErrorLed (ds ++ more) := by
  cases ds with
  | nil => exact hmore
  | cons d rest => exact h

theorem flatMap {α : Type} {f : α → List Diagnostic} : {as : List α} →
    (∀ a ∈ as, ErrorLed (f a)) → ErrorLed (as.flatMap f)
  | [], _ => nil
  | a :: rest, h => by
    obtain ⟨hfirst, hrest⟩ := List.forall_mem_cons.1 h
    exact hfirst.append (flatMap hrest)

/-- A warning is not the first complaint. -/
theorem exists_error {before after : List Diagnostic} {w : Diagnostic}
    (h : ErrorLed (before ++ w :: after)) (hw : w.severity = .warn) :
    ∃ e ∈ before, e.severity = .error := by
  cases before with
  | nil =>
    have herror := h w rfl
    simp [Diagnostic.isError, hw] at herror
  | cons d rest => exact ⟨d, List.mem_cons_self, by simpa [Diagnostic.isError] using h d rfl⟩

end ErrorLed

/-- What is checked from a settled state complains about an error first. -/
theorem errorLed_itemDiagnostics {s : Symbols} {x : Item}
    (h : Check.Steady { symbols := s } True Check.Whatever (Check.item Expr.part x)) :
    ErrorLed (itemDiagnostics s x) := by
  unfold itemDiagnostics
  obtain ⟨-, d, rest, hd, herror⟩ | ⟨hend, -⟩ := h.settled trivial _ (Checker.settled_start _)
  · rw [hd]
    exact fun _ hhead => Option.some.inj hhead ▸ herror
  · rw [hend.diagnostics]
    exact ErrorLed.nil

/-- The first pass complains about errors only. -/
theorem Script.isError_of_mem_declarations {registry : Registry} {script : Script} :
    ∀ d ∈ (script.declarations registry).diagnostics, d.isError = true := by
  refine Script.declarations_induction (I := fun d => ∀ e ∈ d.diagnostics, e.isError = true)
    (List.forall_mem_nil _) fun hstep hd => ?_
  cases hstep with
  | complaint =>
    exact List.forall_mem_append.2 ⟨hd, fun _ he => List.mem_singleton.1 he ▸ rfl⟩
  | entry => exact hd

/-- A phase leaves no complaint only if there was none before. -/
theorem diagnostics_of_afterPhase {xs : List Item} {phase : Phase} {d : Declarations}
    (h : (afterPhase xs phase d).diagnostics = []) : d.diagnostics = [] := by
  by_contra hd
  refine afterPhase_induction (I := fun d => d.diagnostics ≠ []) (fun hstep hd => ?_) hd h
  cases hstep with
  | complaint => exact List.append_ne_nil_of_left_ne_nil hd _
  | entry => exact hd

/-- The first pass complains about a block for something that is no struct. -/
theorem isSome_selfOf?_afterPhase {decl : ImplDecl} : (ys : List Item) → (d : Declarations) →
    .methods decl ∈ ys → (afterPhase ys .functions d).diagnostics = [] →
    (Symbols.selfOf? (afterPhase ys .functions d).symbols decl.name.name).isSome
  | y :: ys, d, hmem, h => by
    have hsame := sameTypes_afterPhase (y :: ys) (Or.inl rfl) d
    rcases List.mem_cons.1 hmem with rfl | hmem
    · have hblock := (congrArg Declarations.diagnostics (after_block .methods decl d)).symm.trans
        (diagnostics_of_afterPhase h)
      cases hself : Symbols.selfOf? d.symbols decl.name.name with
      | none =>
        rw [hself] at hblock
        exact absurd hblock (List.append_ne_nil_of_right_ne_nil _ (List.cons_ne_nil _ _))
      | some self => rw [← hsame.selfOf?, hself, Option.isSome_some]
    · exact isSome_selfOf?_afterPhase ys (after (functionItem y) d) hmem h

theorem Script.isSome_selfOf? {registry : Registry} {script : Script}
    (h : (script.declarations registry).diagnostics = []) {decl : ImplDecl}
    (hmem : .methods decl ∈ script.items) :
    (Symbols.selfOf? (script.declarations registry).symbols decl.name.name).isSome := by
  have hself : Symbols.selfOf? (script.declaredUpTo registry .functions).symbols decl.name.name =
      Symbols.selfOf? (script.declarations registry).symbols decl.name.name :=
    (sameTypes_afterPhase script.items (Or.inr rfl) _).selfOf? _
  have hconstants : (afterPhase script.items .constants
      (script.declaredUpTo registry .functions)).diagnostics = [] := h
  rw [← hself]
  exact isSome_selfOf?_afterPhase script.items _ hmem (diagnostics_of_afterPhase hconstants)

/-- Whether the annotations of a script are saturated and its expressions steady, given the tables
that the first pass fills. -/
def Script.steady (registry : Registry) (script : Script) : Bool :=
  script.items.all fun x => x.saturated (script.declarations registry).symbols &&
    x.steady (script.declarations registry).symbols

theorem Item.declarationErrors_subset (s : Symbols) (x : Item) :
    x.declarationErrors s ⊆ itemDiagnostics s x := by
  unfold Item.declarationErrors
  split
  · exact List.filter_subset_self _
  · exact x.faults_subset s

theorem Item.isError_of_mem_declarationErrors {s : Symbols} {x : Item} {e : Diagnostic}
    (h : e ∈ x.declarationErrors s) : e.isError = true := by
  unfold Item.declarationErrors at h
  split at h
  · exact (List.mem_filter.1 h).2
  · exact Item.isError_of_mem_faults h

/-- If nothing that a script declares has an error, every item complains about an error first. -/
theorem Script.errorLed_diagnostics {registry : Registry} {script : Script}
    (hregistry : registry.complete = true) (haliases : aliasesFirst script.items = true)
    (hconstants : constantsFirst script.items = true) (hsteady : script.steady registry = true)
    (herrors : ∀ x ∈ script.items,
      x.declarationErrors (script.declarations registry).symbols = []) :
    ErrorLed (script.validate registry).report.diagnostics := by
  simp only [Script.steady, List.all_eq_true, Bool.and_eq_true] at hsteady
  have hsettled := Script.settled_declarations rfl hregistry haliases hconstants
    (fun x hx => (hsteady x hx).1) (fun x hx => (hsteady x hx).2) herrors
  rw [Script.diagnostics_validate]
  cases hfirst : (script.declarations registry).diagnostics with
  | cons d rest =>
    have herror := Script.isError_of_mem_declarations d (hfirst ▸ List.mem_cons_self)
    exact fun _ hhead => Option.some.inj hhead ▸ herror
  | nil =>
    refine ErrorLed.flatMap fun x hx => errorLed_itemDiagnostics ?_
    refine Check.Steady.item hsettled (hsteady x hx).1 (hsteady x hx).2 ?_
    rintro decl rfl
    exact Script.isSome_selfOf? hfirst hx

/-- In a steady script over a complete library, whose aliases and constants come before what depends
on them, every warning comes after an error, or else something that the script declares has an error
that is reported as well. -/
theorem warnings_follow_errors (registry : Registry) (script : Script)
    (hregistry : registry.complete = true) (haliases : aliasesFirst script.items = true)
    (hconstants : constantsFirst script.items = true) (hsteady : script.steady registry = true)
    {before after : List Diagnostic} {w : Diagnostic}
    (hdiagnostics : (script.validate registry).report.diagnostics = before ++ w :: after)
    (hw : w.severity = .warn) :
    (∃ e ∈ before, e.severity = .error) ∨
      ∃ x ∈ script.items, ∃ e ∈ x.declarationErrors (script.declarations registry).symbols,
        e ∈ after ∧ e.severity = .error := by
  by_cases herrors : ∀ x ∈ script.items,
      x.declarationErrors (script.declarations registry).symbols = []
  · have hled := Script.errorLed_diagnostics hregistry haliases hconstants hsteady herrors
    rw [hdiagnostics] at hled
    exact .inl (hled.exists_error hw)
  · push Not at herrors
    obtain ⟨x, hx, hne⟩ := herrors
    obtain ⟨e, he⟩ := List.exists_mem_of_ne_nil _ hne
    have herror : e.severity = .error := by
      simpa [Diagnostic.isError] using Item.isError_of_mem_declarationErrors he
    have hmem : e ∈ (script.validate registry).report.diagnostics := by
      rw [Script.diagnostics_validate]
      exact List.mem_append_right _
        (List.mem_flatMap.2 ⟨x, hx, Item.declarationErrors_subset _ x he⟩)
    rw [hdiagnostics, List.mem_append, List.mem_cons] at hmem
    obtain hbefore | rfl | hafter := hmem
    · exact .inl ⟨e, hbefore, herror⟩
    · exact absurd (hw.symm.trans herror) (by decide)
    · exact .inr ⟨x, hx, e, he, hafter, herror⟩

/-- The item `fn f(params) -> Unit = { body }`. -/
def unitFunction (params : List ParamDecl) (body : List Expr) : Item :=
  .function (.ofBody "f" params "Unit" (.block {} body))

/-- The item `use * from cells`. -/
def useCells : Item := .use { module := ⟨"cells", {}⟩, imports := .all, range := {} }

/-- A library of one module, with the constant `spare : Cell<int>`, the function
`cell<T>(content : T) -> Cell<T>` and the type `Cell<T>` with the field `content : T`. -/
def cellLibrary : Registry :=
  .ofModules
    [{ name := "cells"
       constants := [{ name := "spare", type := .standard "cells" "Cell" [.builtin "int"] }]
       functions :=
        [{ name := "cell", generics := ["T"]
           params := [{ name := "content", type := .generic "T" }]
           result := .standard "cells" "Cell" [.generic "T"] }]
       types :=
        [{ name := "Cell", generics := ["T"]
           fields := .ofList [("content", { type := .generic "T" })] }] }]

/-- The script `use * from cells`,
`const full = cell(spare.content)`,
`struct Tank ( fuel : float, level : Cell<int> )`,
`impl Tank { fn share(self) -> float = self.fuel }`,
`fn f(tank : Tank) -> Unit = { let amount = missing(full.content);
let last = tank.level.content }`. -/
def tanks : Script :=
  .ofItems
    [useCells, .const (.ofValue "full" (.ofCall "cell" [.ofField (.ofName "spare") "content"])),
      .ofStruct "Tank"
        [("fuel", .plain "float"), ("level", .named {} none "Cell" [.plain "int"])],
      .methods (.ofFunctions "Tank"
        [.ofBody "share" [.self] "float" (.ofField (.ofName "self") "fuel")]),
      unitFunction [.ofType "tank" (.plain "Tank")]
        [.ofLet "amount" (.ofCall "missing" [.ofField (.ofName "full") "content"]),
          .ofLet "last" (.ofField (.ofField (.ofName "tank") "level") "content")]]

/-- The type of `amount` is unknown, because `missing` is. -/
theorem warnings_follow_errors_tanks :
    cellLibrary.complete = true ∧ aliasesFirst tanks.items = true ∧
      constantsFirst tanks.items = true ∧ tanks.steady cellLibrary = true ∧
      (tanks.validate cellLibrary).report.diagnostics =
        [⟨.error, .undefined .function "missing" none, {}⟩] ++
          ⟨.warn, .uninferred (.var "amount"), {}⟩ :: [] ∧
      ((∃ e ∈ [(⟨.error, .undefined .function "missing" none, {}⟩ : Diagnostic)],
          e.severity = .error) ∨
        ∃ x ∈ tanks.items, ∃ e ∈ x.declarationErrors (tanks.declarations cellLibrary).symbols,
          e ∈ ([] : List Diagnostic) ∧ e.severity = .error) := by
  have hregistry : cellLibrary.complete = true := by decide +kernel
  have haliases : aliasesFirst tanks.items = true := by decide +kernel
  have hconstants : constantsFirst tanks.items = true := by decide +kernel
  have hsteady : tanks.steady cellLibrary = true := by decide +kernel
  have hdiagnostics : (tanks.validate cellLibrary).report.diagnostics =
      [⟨.error, .undefined .function "missing" none, {}⟩] ++
        ⟨.warn, .uninferred (.var "amount"), {}⟩ :: [] := by decide +kernel
  exact ⟨hregistry, haliases, hconstants, hsteady, hdiagnostics,
    warnings_follow_errors cellLibrary tanks hregistry haliases hconstants hsteady hdiagnostics rfl⟩

/-- The severities of the diagnostics of a script. -/
def severities (registry : Registry) (script : Script) : List Severity :=
  (script.validate registry).report.diagnostics.map Diagnostic.severity

/-- What is asked of a library and a script for warnings to follow errors: a complete library,
aliases first, constants first, and steady items. -/
def orderly (registry : Registry) (script : Script) : List Bool :=
  [registry.complete, aliasesFirst script.items, constantsFirst script.items,
    script.steady registry]

/-- The script `fn f() -> Unit = { let x = return }`. -/
def jumpValue : Script := .ofItems [unitFunction [] [.ofLet "x" (.returnValue {} none)]]

/-- The script `fn f() -> Unit = { let x = None(); let y = x.value }`. -/
def openCall : Script :=
  .ofItems
    [unitFunction [] [.ofLet "x" (.ofCall "None" []), .ofLet "y" (.ofField (.ofName "x") "value")]]

/-- The script `use * from cells`, `fn f(c : Cell) -> Unit = { let x = c.content }`. -/
def bareCell : Script :=
  .ofItems
    [useCells,
      unitFunction [.ofType "c" (.plain "Cell")] [.ofLet "x" (.ofField (.ofName "c") "content")]]

/-- The script `const a = b`, `const b = 1`, `fn f() -> Unit = { let x = a }`. -/
def laterConstant : Script :=
  .ofItems
    [.const (.ofValue "a" (.ofName "b")), .const (.ofValue "b" (.int {} 1)),
      unitFunction [] [.ofLet "x" (.ofName "a")]]

/-- The script `type A = B`, `type B = int`, `fn f(a : A) -> Unit = { let x = a }`. -/
def laterAliasParam : Script :=
  .ofItems
    [.ofAlias "A" "B", .ofAlias "B" "int",
      unitFunction [.ofType "a" (.plain "A")] [.ofLet "x" (.ofName "a")]]

/-- A library with a constant whose type is not known. -/
def brokenLibrary : Registry :=
  .ofModules [{ name := "cells", constants := [{ name := "spare", type := .builtin "Missing" }] }]

/-- The script `use * from cells`, `fn f() -> Unit = { let x = spare }`. -/
def spareUser : Script :=
  .ofItems [useCells, unitFunction [] [.ofLet "x" (.ofName "spare")]]

/-- The script `fn f() -> Unit = { let x = g() }`, `fn g() -> Missing = 1`. -/
def laterSignature : Script :=
  .ofItems
    [unitFunction [] [.ofLet "x" (.ofCall "g" [])],
      .function (.ofBody "g" [] "Missing" (.int {} 1))]

/-- A warning without any error, where one of the conditions does not hold: for a jump, for a call
that leaves its result open, for a generic type without arguments, for a constant and for an alias
that is declared later, and for a broken library. Under all conditions, the error may come after the
warning. -/
theorem warnings_without_errors :
    (orderly .empty jumpValue = [true, true, true, false] ∧
        severities .empty jumpValue = [.warn]) ∧
      (orderly .empty openCall = [true, true, true, false] ∧
        severities .empty openCall = [.warn]) ∧
      (orderly cellLibrary bareCell = [true, true, true, false] ∧
        severities cellLibrary bareCell = [.warn]) ∧
      (orderly .empty laterConstant = [true, true, false, true] ∧
        severities .empty laterConstant = [.warn]) ∧
      (orderly .empty laterAliasParam = [true, false, true, true] ∧
        severities .empty laterAliasParam = [.warn]) ∧
      (orderly brokenLibrary spareUser = [false, true, true, true] ∧
        severities brokenLibrary spareUser = [.warn]) ∧
      (orderly .empty laterSignature = [true, true, true, true] ∧
        severities .empty laterSignature = [.warn, .error]) := by
  decide +kernel

end ScriptCheck
