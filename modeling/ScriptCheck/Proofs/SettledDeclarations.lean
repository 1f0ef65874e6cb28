import ScriptCheck.Proofs.ConstantTypes
import ScriptCheck.Proofs.KnownDeclarations
import ScriptCheck.Proofs.SteadyExpressions

/-!
# Settled declarations

If the library is complete and no annotation of a script leaves a generic type without arguments,
the first pass fills the tables with settled types, phase by phase, unless an annotation has a fault
that the second pass complains about. Aliases have to come before the types that mention them, so
that both passes find the same faults.

Constants come last, one after the other. The type of one without annotation is that of its value,
which is steady and mentions only constants that are settled already; if the second pass finds no
error in it, it is settled too.
-/

namespace ScriptCheck

open Declare
open Check (Role)

/-! ## Saturated annotations -/

namespace TypeSpec

theorem saturated_congr {v v' : View} (spec : TypeSpec) (h : AritiesAgree spec.names v v') :
    spec.saturated v = spec.saturated v' := by
  have hall (specs : List TypeSpec) (h : ∀ spec ∈ specs, spec.saturated v = spec.saturated v') :
      specs.all (saturated v) = specs.all (saturated v') := by
    rw [Bool.eq_iff_iff, List.all_eq_true, List.all_eq_true]
    exact forall₂_congr fun spec hspec => by rw [h spec hspec]
  induction spec using names_induction with
  | named range scope name args ih =>
    have hargs : args.all (saturated v) = args.all (saturated v') :=
      hall args fun arg harg => ih arg harg (h.mono (names_subset harg))
    rw [saturated, saturated, h.named, saturatedList_eq, saturatedList_eq, hargs]
  | composite spec hspec ih =>
    rw [saturated_of_composite hspec, saturated_of_composite hspec]
    exact hall spec.children fun c hc => ih c hc (h.mono (names_subset hc))

end TypeSpec

/-- Whether the annotations of a signature are saturated. -/
def FunctionDecl.saturated (v : View) (decl : FunctionDecl) : Bool :=
  decl.result.saturated v && decl.params.all fun p => p.type.all (·.saturated v)

/-- Whether the annotations of an item are saturated, apart from those inside of its expressions. -/
def Item.saturated (s : Symbols) : Item → Bool
  | .use _ => true
  | .const decl => decl.type.all (·.saturated { symbols := s })
  | .function decl => decl.saturated { symbols := s }
  | .struct decl => decl.fields.all (·.type.saturated { symbols := s })
  | .typeAlias decl => decl.type.saturated { symbols := s }
  | .methods decl | .operators decl => decl.functions.all (·.saturated (decl.view s))

/-- Saturation depends on the names of types only. -/
theorem Item.saturated_congr {s s' : Symbols} (h : s.SameTypes s') (x : Item) :
    x.saturated s = x.saturated s' := by
  have hspec (self : Option SelfType) (spec : TypeSpec) :
      spec.saturated { symbols := s, self } = spec.saturated { symbols := s', self } :=
    spec.saturated_congr (h.aritiesAgree _ self)
  cases x <;> simp only [saturated, FunctionDecl.saturated, ImplDecl.view, h.selfOf?, hspec]

/-! ## Settled entries -/

theorem Ty.callable_of_settled {r : Registry} {s : Signature Ty} (h : (Ty.function s).Settled r) :
    (Ty.function s).Callable r :=
  ⟨s, rfl, (Signature.usable_of_settled h).1⟩

theorem settled_constructor {r : Registry} (decl : StructDecl) {ty : Ty}
    {fields : List (String × Ty)} (hty : ty.Settled r)
    (hfields : ∀ item ∈ fields, item.2.Settled r) : (constructor decl ty fields).Settled r := by
  refine Ty.sound_function.2 ⟨.inr rfl, fun p hp => ?_, hty⟩
  obtain ⟨item, hitem, rfl⟩ := List.mem_map.1 hp
  exact hfields item hitem

/-- A function with saturated annotations and without faults has a settled type. -/
theorem settled_signature {knows : String → Prop} {v : View} (hv : v.Settled knows) {role : Role}
    {decl : FunctionDecl} (hsaturated : decl.saturated v = true)
    (hfaults : decl.faults v role = []) :
    (Ty.function (signature v decl (role = .method))).Settled v.registry := by
  obtain ⟨hresult, hparams⟩ := List.append_eq_nil_iff.1 hfaults
  rw [FunctionDecl.saturated, Bool.and_eq_true, List.all_eq_true] at hsaturated
  refine Ty.sound_function.2 ⟨.inr rfl, fun p hp => ?_, hv.resolve hsaturated.1 hresult⟩
  obtain ⟨param, hparam, rfl⟩ := List.mem_map.1 hp
  obtain ⟨spec, hspec, hfaults⟩ := exists_type_of_paramFaults hparams param (by simpa using hparam)
  have hsaturated := hsaturated.2 param (List.mem_of_mem_drop hparam)
  rw [hspec] at hsaturated ⊢
  exact hv.resolve hsaturated hfaults

theorem StructInfo.Settled.empty {r : Registry} : StructInfo.Settled r {} :=
  ⟨nofun, .empty, .empty, .empty⟩

theorem StructInfo.Settled.withOverload {r : Registry} {info : StructInfo} (h : info.Settled r)
    (op : Operator) {overload : Overload} (hresult : overload.result.Settled r) :
    (side : Side) → (withOverload info op overload side).Settled r
  | .prefixSide => { h with prefixOperators := all_addOverload h.prefixOperators op hresult }
  | .suffixSide => { h with suffixOperators := all_addOverload h.suffixOperators op hresult }

namespace Symbols.Settled

variable {knows : String → Prop} {s : Symbols}

theorem root (h : s.Settled knows) : View.Settled knows { symbols := s } := ⟨h, nofun⟩

theorem info (h : s.Settled knows) (name : String) :
    ((s.structs.get? name).getD {}).Settled s.registry :=
  h.structs.getD .empty name

theorem withInfo (h : s.Settled knows) (name : String) {change : StructInfo → StructInfo}
    (hchange : ∀ info : StructInfo, info.Settled s.registry → (change info).Settled s.registry) :
    (withInfo s name change).Settled knows :=
  { h with structs := h.structs.insert (hchange _ (h.info name)) }

theorem withStruct (h : s.Settled knows) {decl : StructDecl}
    (hfields : ∀ f ∈ decl.fields, (f.type.resolve { symbols := s }).Settled s.registry) :
    (withStruct decl s).Settled knows := by
  have hresolved := forall_resolvedFields (P := Ty.Settled s.registry) hfields
  have hty : (structType s decl.name.name (resolvedFields decl s)).Settled s.registry :=
    Ty.sound_record.2 hresolved
  have hinfo := h.info decl.name.name
  refine ⟨h.registry, h.constants, ?_, ?_, h.structs.insert ?_⟩
  · dsimp only [Declare.withStruct]
    split
    · exact h.functions
    · exact h.functions.insert (Ty.callable_of_settled (settled_constructor decl hty hresolved))
  · dsimp only [Declare.withStruct]
    split
    · exact h.types.insert (.inl hty)
    · exact h.types
  · exact { hinfo with fields := hresolved }

theorem withConstant (h : s.Settled knows) (name : String) {value : Value}
    (hvalue : value.ty.Settled s.registry) :
    Settled knows { s with constants := s.constants.insert name value } := by
  refine { h with constants := fun other found hknows hfound => ?_ }
  rw [Table.get?_insert] at hfound
  split at hfound
  · exact Option.some.inj hfound ▸ hvalue
  · exact h.constants other found hknows hfound

/-- `Self` stands for a struct, which is not generic. -/
theorem selfOf? (h : s.Settled knows) {name : String} :
    ∀ self ∈ Symbols.selfOf? s name, self.ty.Settled s.registry := by
  intro self hself
  obtain ⟨found, hfound, hstruct, rfl⟩ := Declare.exists_of_selfOf? hself
  obtain hsettled | ⟨hother, -⟩ := h.types.get? hfound
  · exact hsettled
  · exact absurd hstruct (by simp [hother])

end Symbols.Settled

/-! ## Imports, types and functions -/

/-- Settled symbols over a library. -/
def Symbols.SettledOver (r : Registry) (s : Symbols) : Prop :=
  s.registry = r ∧ s.Settled fun _ => True

section Phases

variable {r : Registry} {xs : List Item} {d : Declarations} {last : Symbols}

theorem settled_afterPhase_imports (hr : r.complete = true) (hd : d.symbols.SettledOver r) :
    (afterPhase xs .imports d).symbols.SettledOver r := by
  refine symbols_induction (I := Symbols.SettledOver r) (fun hentry hd => ?_) hd
  obtain ⟨hregistry, hsettled⟩ := hd
  refine ⟨?_, ?_⟩
  · cases hentry <;> exact hregistry
  · subst hregistry
    cases hentry with
    | importedConstant name info hinfo =>
      obtain ⟨_, _, hmodule, hinfo⟩ := hinfo
      exact hsettled.withConstant name
        (Library.ModuleInfo.settled_constant? (Registry.complete_module? hr hmodule) hinfo)
    | importedFunction name info hinfo =>
      obtain ⟨_, _, hmodule, hinfo⟩ := hinfo
      have hcallable :=
        Library.ModuleInfo.callable_function? (Registry.complete_module? hr hmodule) hinfo
      exact { hsettled with functions := hsettled.functions.insert hcallable }
    | importedType =>
      exact { hsettled with types := hsettled.types.insert (.inr ⟨rfl, _, rfl⟩) }
    | module => exact { hsettled with }

theorem settled_afterPhase_structs (hd : d.symbols.SettledOver r) :
    (afterPhase xs .structs d).symbols.SettledOver r := by
  refine symbols_induction (I := Symbols.SettledOver r) (fun hentry hd => ?_) hd
  cases hentry with
  | struct decl =>
    have hty {s : Symbols} : (structType s decl.name.name []).Settled s.registry :=
      Ty.sound_record.2 nofun
    exact ⟨hd.1, { hd.2 with
      types := hd.2.types.insert (.inl hty), structs := hd.2.structs.insert .empty }⟩

/-- Fields and aliases are settled if their annotations are saturated and have no faults in the
end. -/
theorem settled_afterPhase_types (hfirst : aliasesFirst xs = true) (hd : d.symbols.SettledOver r)
    (hstructs : StructsEntered xs d.symbols)
    (hlast : (afterPhase xs .types d).symbols.SameTypes last)
    (hsaturated : ∀ x ∈ xs, x.saturated last = true) (hfaults : ∀ x ∈ xs, x.faults last = []) :
    (afterPhase xs .types d).symbols.SettledOver r := by
  refine afterPhase_types_induction (I := Symbols.SettledOver r) xs (List.Subset.refl _) hfirst d
    hstructs hlast (fun x hx {s s'} hentry hagree hd => ?_) hd
  obtain ⟨hregistry, hsettled⟩ := hd
  have hresolve {spec : TypeSpec} (hnames : spec.names ⊆ x.typeMentions)
      (hsaturated : spec.saturated { symbols := last } = true)
      (hspec : spec.faults { symbols := last } = []) :
      (spec.resolve { symbols := s }).Settled s.registry :=
    hsettled.root.resolve ((spec.saturated_congr (hagree.mono hnames)).trans hsaturated)
      ((spec.faults_eq_nil_congr (hagree.mono hnames)).2 hspec)
  have hsaturated := hsaturated x hx
  have hfaults := hfaults x hx
  cases hentry with
  | fields decl hmem =>
    obtain rfl := List.mem_singleton.1 hmem
    refine ⟨hregistry, hsettled.withStruct fun f hf => hresolve ?_ ?_ ?_⟩
    · exact fun name hname => List.mem_flatMap.2 ⟨f, hf, hname⟩
    · exact List.all_eq_true.1 hsaturated f hf
    · exact List.flatMap_eq_nil_iff.1 hfaults f hf
  | typeAlias decl hmem =>
    obtain rfl := List.mem_singleton.1 hmem
    have hty := hresolve (List.Subset.refl _) hsaturated hfaults
    exact ⟨hregistry, { hsettled with types := hsettled.types.insert (.inl hty) }⟩

/-- Functions, methods and operators are settled if their annotations are saturated and have no
faults. -/
theorem settled_afterPhase_functions (hd : d.symbols.SettledOver r)
    (hlast : last.SameTypes d.symbols) (hsaturated : ∀ x ∈ xs, x.saturated last = true)
    (hfaults : ∀ x ∈ xs, x.faults last = []) :
    (afterPhase xs .functions d).symbols.SettledOver r := by
  suffices h : last.SameTypes (afterPhase xs .functions d).symbols ∧
      (afterPhase xs .functions d).symbols.SettledOver r from h.2
  refine symbols_induction (I := fun s => last.SameTypes s ∧ s.SettledOver r)
    (fun {s s'} hentry h => ⟨sameTypes_entry (Or.inl rfl) hentry h.1, ?_⟩) ⟨hlast, hd⟩
  obtain ⟨hsame, hregistry, hsettled⟩ := h
  have hsaturated x (hx : x ∈ xs) : x.saturated s = true :=
    x.saturated_congr hsame ▸ hsaturated x hx
  have hfaults x (hx : x ∈ xs) : x.faults s = [] :=
    Item.faults_eq_nil_congr hsame.symm (hfaults x hx)
  have hblock {block : ImplDecl} {self : SelfType} {role : Role} {decl : FunctionDecl}
      (hself : Symbols.selfOf? s block.name.name = some self)
      (hsaturated : decl.saturated (block.view s) = true)
      (hfaults : decl.faults (block.view s) role = []) :
      (Ty.function
        (signature { symbols := s, self := some self } decl (role = .method))).Settled
        s.registry := by
    rw [ImplDecl.view, hself] at hsaturated hfaults
    exact settled_signature ⟨hsettled, hself ▸ hsettled.selfOf?⟩ hsaturated hfaults
  cases hentry with
  | function decl hmem =>
    have hty := settled_signature hsettled.root (hsaturated _ hmem) (hfaults _ hmem)
    exact ⟨hregistry, { hsettled with
      functions := hsettled.functions.insert (Ty.callable_of_settled hty) }⟩
  | method block hmem self hself decl hdecl =>
    have hty := hblock hself (List.all_eq_true.1 (hsaturated _ hmem) decl hdecl)
      (List.flatMap_eq_nil_iff.1 (hfaults _ hmem) decl hdecl)
    refine ⟨hregistry, ?_⟩
    refine hsettled.withInfo self.name fun info hinfo => ?_
    exact { hinfo with methods := hinfo.methods.insert hty }
  | operator block hmem self hself decl hdecl op side overload hclassify =>
    have hty := hblock hself (List.all_eq_true.1 (hsaturated _ hmem) decl hdecl)
      (List.flatMap_eq_nil_iff.1 (hfaults _ hmem) decl hdecl)
    obtain ⟨-, hparams, hresult⟩ := Ty.sound_function.1 hty
    have hoverload := types_of_classify Ty.settled_unit hparams hresult hclassify
    exact ⟨hregistry, hsettled.withInfo self.name fun info hinfo =>
      hinfo.withOverload op hoverload.2 side⟩

end Phases

/-! ## Constants -/

/-- Whether the expressions of a function are steady. -/
def FunctionDecl.steady (v : View) (decl : FunctionDecl) : Bool :=
  decl.params.all (fun p => p.default.all (·.steady v .any)) && decl.body.steady v .any

/-- Whether the expressions of an item are steady. -/
def Item.steady (s : Symbols) : Item → Bool
  | .use _ | .typeAlias _ => true
  | .const decl => decl.value.steady { symbols := s } (if decl.type.isSome then .any else .value)
  | .function decl => decl.steady { symbols := s }
  | .struct decl => decl.fields.all fun f => f.default.all (·.steady { symbols := s } .any)
  | .methods decl | .operators decl => decl.functions.all (·.steady (decl.view s))

/-- The names that the type of a constant is inferred from. -/
def Item.inferredFrom : Item → List String
  | .const decl => if decl.type.isNone then decl.value.mentions else []
  | _ => []

/-- Whether every constant is declared before the constants whose types are inferred from it. -/
def constantsFirst : List Item → Bool
  | [] => true
  | x :: rest =>
    (constNames (x :: rest)).all (fun name => !x.inferredFrom.contains name) && constantsFirst rest

theorem constantsFirst_cons {x : Item} {rest : List Item}
    (h : constantsFirst (x :: rest) = true) :
    (∀ name ∈ x.inferredFrom, name ∉ constNames (x :: rest)) ∧ constantsFirst rest = true := by
  rw [constantsFirst, Bool.and_eq_true, List.all_eq_true] at h
  refine ⟨fun name hname hmem => ?_, h.2⟩
  have hnot := h.1 name hmem
  simp [hname] at hnot

namespace Check

/-- The annotation of a constant is checked. -/
theorem Reports.const {v : View} {decl : ConstDecl} {spec : TypeSpec} (h : decl.type = some spec) :
    Reports v (const Expr.part decl) (spec.faults v) := by
  unfold Check.const
  rw [h, annotated, bind_map_left]
  have hroot (declared : Ty) : Reports v (rootType (some declared) decl.value.part) [] :=
    (openScope _ _).bind fun id =>
      of_parallel fun _ => parallel.declaredType _ (parallel.keeps_part _) rfl
  refine (checkSpec spec).bindAny fun declared => (hroot declared).bind fun ty => ?_
  unfold Check.showConst
  rw [if_neg (by simp)]
  exact (token _ _ _).bind fun _ => hover _ _ _ _

namespace Steady

variable {α β : Type} {v : View} {knows : String → Prop} {p : Prop} {Q : α → Prop} {S : β → Prop}

/-- If a check has not failed in the end, what a part of it found is as stated. -/
theorem result {m : CheckM α} {k : α → CheckM β} (hm : Steady v p Q m)
    (hk : ∀ a, Steady v False S (k a)) (hp : p) {c : Checker} (hc : c.Settled v)
    (h : ¬((m >>= k).run c).2.Failed v) : Q (m.run c).1 := by
  obtain hfailed | ⟨-, hQ⟩ := hm.settled hp c hc
  · exact absurd ((hk _).failed _ hfailed) h
  · exact hQ

/-- The value of a constant without an annotation gives it a settled type. -/
theorem rootType (hv : v.Settled knows) {value : Expr}
    (hknows : ∀ name ∈ value.mentions, knows name) (hsteady : value.steady v .value = true) :
    Steady v p (Ty.Settled v.registry) (rootType none value.part) :=
  (openBlock none).bind fun _ =>
    declaredType (fun _ => nofun) (value.steady_part hv .value hknows hsteady)

/-- A warning is given for a constant of unknown type only. -/
theorem showConst (decl : ConstDecl) (inferred : Bool) {ty : Ty} (hty : p → ty.isUnknown = false) :
    Steady v p Whatever (showConst decl inferred ty) := by
  have hshown : Steady v p Whatever (do
      Check.token decl.name.range .var [.declaration, .readonly]
      Check.hover decl.name.range decl.name.name ty decl.description) :=
    (token _ _ _).andThen (hover _ _ _ _)
  unfold Check.showConst
  dsimp only
  split
  · split
    · rename_i hunknown
      exact (warn (fun hp => by simp [hty hp] at hunknown) _ _).andThen hshown
    · exact (inlay _ _).andThen hshown
  · exact hshown

end Steady

end Check

/-- A check starts in a settled state. -/
theorem Checker.settled_start (v : View) : Checker.Settled v { view := v } :=
  ⟨rfl, rfl, rfl, nofun, nofun⟩

section Constants

variable {r : Registry} {s last : Symbols} {names : List String}

theorem Symbols.WithConstants.sameTypes (h : WithConstants names s last) : s.SameTypes last := by
  rw [h.others]
  exact ⟨rfl, rfl, rfl⟩

/-- With more constants, symbols are settled as far as the names of the new ones do not matter. -/
theorem Symbols.WithConstants.settled (h : WithConstants names s last) (hs : s.SettledOver r) :
    last.Settled (· ∉ names) := by
  have hconstants := h.constants
  rw [h.others] at hconstants ⊢
  refine { hs.2 with constants := fun name value hname hvalue => ?_ }
  exact hs.2.constants name value trivial (hconstants name hname ▸ hvalue)

/-- A constant is settled if its annotation is saturated or its value steady, and the second pass
finds no error in it. -/
theorem settled_constType {decl : ConstDecl} (hs : s.SettledOver r)
    (hlast : Symbols.WithConstants names s last)
    (hfirst : ∀ name ∈ (Item.const decl).inferredFrom, name ∉ names)
    (hsaturated : (Item.const decl).saturated last = true)
    (hsteady : (Item.const decl).steady last = true)
    (herrors : ∀ d ∈ itemDiagnostics last (.const decl), d.isError = false) :
    (constType decl s).Settled s.registry := by
  change ∀ d ∈
    ((Check.const Expr.part decl).run { view := { symbols := last } }).2.report.diagnostics,
    d.isError = false at herrors
  unfold constType
  cases htype : decl.type with
  | some spec =>
    have hagree := hlast.sameTypes.aritiesAgree spec.names none
    have hfaults : spec.faults { symbols := last } = [] := by
      obtain ⟨-, -, added, hadded, hneeded⟩ :=
        Check.Reports.const htype { view := { symbols := last } } rfl rfl
      refine List.eq_nil_iff_forall_not_mem.2 fun d hd => ?_
      rw [hadded] at herrors
      have herror := herrors d (hneeded hd)
      simp [spec.isError_of_mem_faults hd] at herror
    rw [Item.saturated, htype] at hsaturated
    exact hs.2.root.resolve ((spec.saturated_congr hagree).trans hsaturated)
      ((spec.faults_eq_nil_congr hagree).2 hfaults)
  | none =>
    have hmentions : ∀ name ∈ decl.value.mentions, name ∉ names := by
      simpa [Item.inferredFrom, htype] using hfirst
    -- the second pass sees the same, as far as the value mentions it
    have hweak : Weakened (· ∈ decl.value.mentions) { view := { symbols := s } }
        { view := { symbols := last } } :=
      ⟨⟨hlast.similar, rfl⟩, fun name hname => (hlast.constants name (hmentions name hname)).symm,
        rfl⟩
    have hnot : ¬((Check.const Expr.part decl).run { view := { symbols := last } }).2.Failed
        { symbols := last } := by
      rintro ⟨-, d, rest, hd, herror⟩
      rw [hd] at herrors
      simp [herrors d List.mem_cons_self] at herror
    rw [Check.const_eq htype] at hnot
    rw [Item.steady, htype] at hsteady
    rw [inferred_eq_rootType, Check.rootType_congr decl.value hweak, hlast.sameTypes.registry]
    exact (Check.Steady.rootType (hlast.settled hs).root hmentions hsteady).result
      (fun _ => Check.Steady.showConst decl true False.elim) trivial (Checker.settled_start _) hnot

/-- The errors in what an item declares: faults of annotations in types and signatures, and any
error in a constant. -/
def Item.declarationErrors (s : Symbols) : Item → List Diagnostic
  | .const decl => (itemDiagnostics s (.const decl)).filter Diagnostic.isError
  | x => x.faults s

theorem settled_each_const : (ys : List Item) → {d : Declarations} → d.symbols.SettledOver r →
    (after (each constItem ys) d).symbols = last → constantsFirst ys = true →
    (∀ x ∈ ys, x.saturated last = true) → (∀ x ∈ ys, x.steady last = true) →
    (∀ x ∈ ys, x.declarationErrors last = []) → last.SettledOver r
  | [], d, hd, hlast, _, _, _, _ => hlast ▸ hd
  | x :: ys, d, hd, hlast, hfirst, hsaturated, hsteady, herrors => by
    obtain ⟨hmentions, hfirst⟩ := constantsFirst_cons hfirst
    obtain ⟨hx, hsaturated⟩ := List.forall_mem_cons.1 hsaturated
    obtain ⟨hx', hsteady⟩ := List.forall_mem_cons.1 hsteady
    obtain ⟨hx'', herrors⟩ := List.forall_mem_cons.1 herrors
    refine settled_each_const ys (d := after (constItem x) d) ?_ hlast hfirst hsaturated hsteady
      herrors
    cases x with
    | const decl =>
      change (after (const decl) d).symbols.SettledOver r
      rw [symbols_after_const]
      split
      · exact hd
      · have hadded := withConstants_each (.const decl :: ys) d
        rw [hlast] at hadded
        refine ⟨hd.1, hd.2.withConstant _ (settled_constType hd hadded hmentions hx hx' ?_)⟩
        simpa [Item.declarationErrors, List.filter_eq_nil_iff] using hx''
    | use | function | struct | typeAlias | methods | operators => exact hd

end Constants

/-! ## Scripts -/

theorem Item.faults_eq_nil_of_declarationErrors {s : Symbols} {x : Item}
    (h : x.declarationErrors s = []) : x.faults s = [] := by
  cases x with
  | const => rfl
  | use | function | struct | typeAlias | methods | operators => exact h

/-- If nothing that a script declares has an error, its declarations are settled. -/
theorem Script.settled_declarations {registry : Registry} {script : Script} {last : Symbols}
    (hlast : (script.declarations registry).symbols = last) (hregistry : registry.complete = true)
    (haliases : aliasesFirst script.items = true) (hconstants : constantsFirst script.items = true)
    (hsaturated : ∀ x ∈ script.items, x.saturated last = true)
    (hsteady : ∀ x ∈ script.items, x.steady last = true)
    (herrors : ∀ x ∈ script.items, x.declarationErrors last = []) :
    last.Settled fun _ => True := by
  let start : Declarations := ⟨{ registry, moduleName := script.name }, []⟩
  have hstart : start.symbols.SettledOver registry :=
    ⟨rfl, hregistry, nofun, .empty, .empty, .empty⟩
  obtain ⟨himports, hnone⟩ := known_afterPhase_imports script.items (d := start)
    ⟨.empty, .empty, .empty⟩ .empty
  obtain ⟨-, hentered⟩ := known_afterPhase_structs script.items himports hnone
  have hstructs : (afterPhase script.items .structs
      (afterPhase script.items .imports start)).symbols.SettledOver registry :=
    settled_afterPhase_structs (settled_afterPhase_imports hregistry hstart)
  set d := afterPhase script.items .structs (afterPhase script.items .imports start)
  have hfaults : ∀ x ∈ script.items, x.faults last = [] :=
    fun x hx => Item.faults_eq_nil_of_declarationErrors (herrors x hx)
  have hsame : (afterPhase script.items .types d).symbols.SameTypes last := by
    rw [← hlast]
    exact (sameTypes_afterPhase script.items (Or.inl rfl) _).trans
      (sameTypes_afterPhase script.items (Or.inr rfl) _)
  have htypes := settled_afterPhase_types haliases hstructs hentered hsame hsaturated hfaults
  have hfunctions := settled_afterPhase_functions htypes hsame.symm hsaturated hfaults
  exact (settled_each_const script.items hfunctions hlast hconstants hsaturated hsteady herrors).2

end ScriptCheck
