import ScriptCheck.Proofs.DeclarationOrder
import ScriptCheck.Proofs.ItemFaults

/-!
# No unknown types among the declarations

The first pass resolves annotations without a word: what it cannot resolve becomes unknown. The
second pass complains about the faults of the same annotations, but against the complete tables. If
every alias is declared before the types that mention it, both passes find the same faults, and a
script without errors declares nothing with an unknown part (`known_of_errors_eq_nil`).

The condition on aliases is needed (`unknown_without_errors`). An alias that is declared later, or
is just being declared, is not known to the first pass but known to the second.
-/

namespace ScriptCheck

open Declare
open Check (Role)

variable {s s' : Symbols} {d : Declarations} {xs : List Item}

/-! ## Known symbols -/

/-- Fields, methods and operators of a struct without unknown parts. -/
structure StructInfo.Known (info : StructInfo) : Prop where
  fields : ∀ item ∈ info.fields, item.2.Known
  methods : info.methods.All fun _ value => value.ty.Known
  prefixOperators : info.prefixOperators.All fun _ overloads =>
    ∀ o ∈ overloads, o.other.Known ∧ o.result.Known
  suffixOperators : info.suffixOperators.All fun _ overloads =>
    ∀ o ∈ overloads, o.other.Known ∧ o.result.Known

/-- Symbols whose types, structs and own functions have no unknown part. A function of the library
may have one. -/
structure Symbols.Known (s : Symbols) : Prop where
  types : s.types.All fun _ found => found.ty.Known
  functions : s.functions.All fun _ value => value.definition.isSome → value.ty.Known
  structs : s.structs.All fun _ info => info.Known

theorem StructInfo.Known.empty : StructInfo.Known {} := ⟨nofun, .empty, .empty, .empty⟩

theorem StructInfo.Known.withOverload {info : StructInfo} (h : info.Known) (op : Operator)
    {overload : Overload} (hoverload : overload.other.Known ∧ overload.result.Known) :
    (side : Side) → (withOverload info op overload side).Known := by
  rintro (_ | _)
  · exact { h with prefixOperators := all_addOverload h.prefixOperators op hoverload }
  · exact { h with suffixOperators := all_addOverload h.suffixOperators op hoverload }

namespace Symbols.Known

variable {s : Symbols}

theorem info (h : s.Known) (name : String) : ((s.structs.get? name).getD {}).Known :=
  h.structs.getD .empty name

theorem withInfo (h : s.Known) (name : String) {change : StructInfo → StructInfo}
    (hchange : ∀ info : StructInfo, info.Known → (change info).Known) :
    (withInfo s name change).Known :=
  ⟨h.types, h.functions, h.structs.insert (hchange _ (h.info name))⟩

/-- Every name in a view of known symbols stands for a known type. -/
theorem view (h : s.Known) {self : Option SelfType} (hself : ∀ t ∈ self, t.ty.Known) :
    View.Known { symbols := s, self } := by
  intro name t ht
  obtain ⟨t, hmem, rfl⟩ | ⟨found, hfound, rfl⟩ | ⟨q, rfl⟩ := View.type?_none ht
  · exact hself t hmem
  · exact h.types.get? hfound
  · exact Ty.known_named q

theorem root (h : s.Known) : View.Known { symbols := s } := h.view nofun

theorem selfOf? (h : s.Known) {name : String} : ∀ t ∈ Symbols.selfOf? s name, t.ty.Known := by
  intro t ht
  obtain ⟨found, hfound, -, rfl⟩ := Declare.exists_of_selfOf? ht
  exact h.types.get? hfound

end Symbols.Known

/-! ## Signatures without faults -/

theorem exists_type_of_paramFaults {v : View} {role : Role} :
    {first : Bool} → {params : List ParamDecl} → paramFaults v role first params = [] →
    ∀ p ∈ params.drop (if role = .method ∧ first then 1 else 0),
      ∃ spec, p.type = some spec ∧ spec.faults v = []
  | _, [], _, p, hp => by simp at hp
  | first, param :: rest, h, p, hp => by
    obtain ⟨hparam, hrest⟩ := List.append_eq_nil_iff.1 h
    have htail : ∀ p ∈ rest, ∃ spec, p.type = some spec ∧ spec.faults v = [] := by
      simpa using exists_type_of_paramFaults hrest
    split_ifs at hp with hreceiver
    · exact htail p hp
    · rcases List.mem_cons.1 hp with rfl | hp
      · have hnot : (role == .method && first && p.name.name == "self") = false := by
          simp only [Bool.and_eq_false_iff, beq_eq_false_iff_ne]
          by_cases hrole : role = .method
          · exact Or.inl (Or.inr (by simpa [hrole] using hreceiver))
          · exact Or.inl (Or.inl hrole)
        rw [hnot, ParamDecl.faults] at hparam
        cases htype : p.type with
        | none => simp [htype] at hparam
        | some spec => exact ⟨spec, rfl, by simpa [htype] using hparam⟩
      · exact htail p hp

theorem Ty.known_function {s : Signature Ty} :
    (Ty.function s).Known ↔ (∀ p ∈ s.params, p.ty.Known) ∧ s.result.Known := by
  rw [known_iff]
  simp only [ne_eq, reduceCtorEq, not_false_eq_true, true_and, children, List.forall_mem_append,
    List.forall_mem_map, List.forall_mem_singleton]

/-- A function without faults has a known type, and so has each of its parameters. -/
theorem known_signature {v : View} (hv : v.Known) {role : Role} {decl : FunctionDecl}
    (h : decl.faults v role = []) :
    (Ty.function (signature v decl (role = .method))).Known := by
  obtain ⟨hresult, hparams⟩ := List.append_eq_nil_iff.1 h
  refine Ty.known_function.2 ⟨fun p hp => ?_, decl.result.known_resolve hv hresult⟩
  obtain ⟨param, hparam, rfl⟩ := List.mem_map.1 hp
  obtain ⟨spec, hspec, hfaults⟩ := exists_type_of_paramFaults hparams param (by simpa using hparam)
  rw [hspec]
  exact spec.known_resolve hv hfaults

/-! ## What names stand for during the first pass -/

/-- How many arguments a type name of the script takes, if it is entered. -/
def Symbols.entered? (s : Symbols) (name : String) : Option Nat :=
  (s.types.get? name).map fun found => (found.ty.genericNames s.registry).length

theorem aritiesAgree_of_entered? {names : List String} (hregistry : s.registry = s'.registry)
    (hmodules : s.modules = s'.modules) (h : ∀ name ∈ names, s.entered? name = s'.entered? name)
    (self : Option SelfType) :
    TypeSpec.AritiesAgree names { symbols := s, self } { symbols := s', self } where
  member module name := by
    simp only [View.arity?, View.type?, Symbols.type?, Symbols.module?, hregistry, hmodules]
    rfl
  arity? name hname := by
    have hentered := h name hname
    simp only [Symbols.entered?, hregistry] at hentered
    simp only [View.arity?, View.type?, View.selfType?, Symbols.type?, hregistry]
    split
    · rfl
    · cases hs : s.types.get? name <;> cases hs' : s'.types.get? name <;>
        simp_all [-Option.map_if]

/-- Symbols of one script that may differ in what is neither a type nor the name of a module. -/
structure Symbols.SameTypes (s s' : Symbols) : Prop where
  types : s.types = s'.types
  modules : s.modules = s'.modules
  registry : s.registry = s'.registry

theorem Symbols.SameTypes.symm (h : s.SameTypes s') : s'.SameTypes s :=
  ⟨h.types.symm, h.modules.symm, h.registry.symm⟩

theorem Symbols.SameTypes.trans {s s' t : Symbols} (h : s.SameTypes s') (h' : s'.SameTypes t) :
    s.SameTypes t :=
  ⟨h.types.trans h'.types, h.modules.trans h'.modules, h.registry.trans h'.registry⟩

theorem Symbols.SameTypes.selfOf? (h : s.SameTypes s') (name : String) :
    Symbols.selfOf? s name = Symbols.selfOf? s' name := by
  rw [Symbols.selfOf?, Symbols.selfOf?, h.types]

theorem Symbols.SameTypes.entered? (h : s.SameTypes s') (name : String) :
    s.entered? name = s'.entered? name := by
  rw [Symbols.entered?, Symbols.entered?, h.types, h.registry]

theorem Symbols.SameTypes.aritiesAgree (h : s.SameTypes s') (names : List String)
    (self : Option SelfType) :
    TypeSpec.AritiesAgree names { symbols := s, self } { symbols := s', self } :=
  aritiesAgree_of_entered? h.registry h.modules (fun name _ => h.entered? name) self

/-- The name of the alias that an item declares. -/
def Item.aliasName? : Item → Option String
  | .typeAlias decl => some decl.name.name
  | _ => none

/-- Whether every alias is declared before the types that mention it. -/
def aliasesFirst : List Item → Bool
  | [] => true
  | x :: rest =>
    ((x :: rest).filterMap Item.aliasName?).all (fun name => !x.typeMentions.contains name) &&
      aliasesFirst rest

theorem aliasesFirst_cons {x : Item} {rest : List Item} (h : aliasesFirst (x :: rest) = true) :
    (∀ name ∈ x.typeMentions, ∀ y ∈ x :: rest, y.aliasName? ≠ some name) ∧
      aliasesFirst rest = true := by
  rw [aliasesFirst, Bool.and_eq_true, List.all_eq_true] at h
  refine ⟨fun name hname y hy halias => ?_, h.2⟩
  have hnot := h.1 name (List.mem_filterMap.2 ⟨y, hy, halias⟩)
  simp [hname] at hnot

/-- The structs among the items have their names, and a name that was not imported takes no
arguments. -/
def StructsEntered (xs : List Item) (s : Symbols) : Prop :=
  ∀ decl, Item.struct decl ∈ xs → ∃ found, s.types.get? decl.name.name = some found ∧
    (found.definition.isSome → found.ty.genericNames s.registry = [])

/-- The names of types are kept by a type declaration from among `ys`: no name but that of an alias
comes to take another number of arguments. -/
structure TypesKept (xs ys : List Item) (s s' : Symbols) : Prop where
  structs : StructsEntered xs s'
  registry : s.registry = s'.registry
  modules : s.modules = s'.modules
  entered? : ∀ name, (∀ y ∈ ys, y.aliasName? ≠ some name) → s.entered? name = s'.entered? name

theorem genericNames_structType (r : Registry) (s : Symbols) (name : String)
    (fields : List (String × Ty)) : (structType s name fields).genericNames r = [] :=
  rfl

theorem entered?_withStruct {decl : StructDecl} {s : Symbols} {found : TypeAlias}
    (hfound : s.types.get? decl.name.name = some found)
    (hgenerics : found.ty.genericNames s.registry = []) (name : String) :
    (withStruct decl s).entered? name = s.entered? name := by
  by_cases hname : name = decl.name.name
  · subst hname
    simp [Symbols.entered?, withStruct, hfound, hgenerics, genericNames_structType]
  · rw [Symbols.entered?, Symbols.entered?, (withStruct_changedAt decl s).types name hname]
    rfl

theorem TypesKept.entry {xs ys : List Item} (hsub : ys ⊆ xs) {s t t' : Symbols}
    (h : TypesKept xs ys s t) (hentry : Entry ys t .types t') : TypesKept xs ys s t' := by
  cases hentry with
  | fields decl hmem howns =>
    obtain ⟨found, hfound, hplain⟩ := h.structs decl (hsub hmem)
    have hgenerics : found.ty.genericNames t.registry = [] := by
      refine hplain ?_
      rw [owns, hfound] at howns
      cases hdefinition : found.definition with
      | none => simp [hdefinition] at howns
      | some => rfl
    have hentered := entered?_withStruct hfound hgenerics
    refine ⟨fun other hother => ?_, h.registry, h.modules,
      fun name hname => (h.entered? name hname).trans (hentered name).symm⟩
    by_cases hname : other.name.name = decl.name.name
    · rw [hname]
      simp [withStruct, hfound, genericNames_structType]
    · rw [(withStruct_changedAt decl t).types _ hname]
      exact h.structs other hother
  | typeAlias decl hmem hnew =>
    refine ⟨fun other hother => ?_, h.registry, h.modules, fun name hname => ?_⟩
    · obtain ⟨found, hfound, hplain⟩ := h.structs other hother
      have hname : other.name.name ≠ decl.name.name := by
        intro heq
        rw [heq, hnew] at hfound
        cases hfound
      exact ⟨found, by rwa [Table.get?_insert_of_ne _ hname], hplain⟩
    · have hother : name ≠ decl.name.name := fun heq => hname _ hmem (congrArg some heq.symm)
      rw [h.entered? name hname, Symbols.entered?, Symbols.entered?,
        Table.get?_insert_of_ne _ hother]

theorem TypesKept.afterPhase {xs ys : List Item} (hsub : ys ⊆ xs)
    (h : StructsEntered xs d.symbols) :
    TypesKept xs ys d.symbols (afterPhase ys .types d).symbols :=
  symbols_induction (fun hentry hkept => hkept.entry hsub hentry) ⟨h, rfl, rfl, fun _ _ => rfl⟩

/-! ## Known symbols phase by phase -/

theorem known_constructor (decl : StructDecl) {ty : Ty} {fields : List (String × Ty)}
    (hty : ty.Known) (hfields : ∀ item ∈ fields, item.2.Known) :
    (constructor decl ty fields).Known := by
  refine Ty.known_function.2 ⟨fun p hp => ?_, hty⟩
  obtain ⟨item, hitem, rfl⟩ := List.mem_map.1 hp
  exact hfields item hitem

/-- What holds of the types of all fields holds of those that a struct gets. -/
theorem forall_resolvedFields {P : Ty → Prop} {decl : StructDecl} {s : Symbols}
    (h : ∀ f ∈ decl.fields, P (f.type.resolve { symbols := s })) :
    ∀ item ∈ resolvedFields decl s, P item.2 := by
  intro item hitem
  obtain ⟨f, hf, rfl⟩ := List.mem_map.1 hitem
  exact h f (mem_of_mem_firstFields hf)

theorem Symbols.Known.withStruct {s : Symbols} (h : s.Known) {decl : StructDecl}
    (hfields : ∀ f ∈ decl.fields, (f.type.resolve { symbols := s }).Known) :
    (withStruct decl s).Known := by
  have hresolved := forall_resolvedFields (P := Ty.Known) hfields
  have hty : (structType s decl.name.name (resolvedFields decl s)).Known :=
    Ty.known_iff.2 ⟨nofun, List.forall_mem_map.2 hresolved⟩
  have hinfo := h.info decl.name.name
  refine ⟨?_, ?_, h.structs.insert ?_⟩
  · dsimp only [Declare.withStruct]
    split
    · exact h.types.insert hty
    · exact h.types
  · dsimp only [Declare.withStruct]
    split
    · exact h.functions
    · exact h.functions.insert fun _ => known_constructor decl hty hresolved
  · exact ⟨hresolved, hinfo.methods, hinfo.prefixOperators, hinfo.suffixOperators⟩

/-- The first pass removes no name of a type. -/
theorem isSome_types_entry {phase : Phase} {name : String} (hentry : Entry xs s phase s')
    (h : (s.types.get? name).isSome) : (s'.types.get? name).isSome := by
  have hinsert (other : String) (found : TypeAlias) :
      ((s.types.insert other found).get? name).isSome := by
    rw [Table.get?_insert]
    split
    · rfl
    · exact h
  cases hentry with
  | importedType | struct | typeAlias => exact hinsert _ _
  | fields decl =>
    dsimp only [withStruct]
    split
    · exact hinsert _ _
    · exact h
  | importedConstant | importedFunction | module | function | method | operator | constant =>
    exact h

theorem isSome_types_afterPhase_structs {decl : StructDecl} : (ys : List Item) →
    Item.struct decl ∈ ys → (d : Declarations) →
    ((afterPhase ys .structs d).symbols.types.get? decl.name.name).isSome
  | y :: ys, hmem, d => by
    change ((afterPhase ys .structs (after (structItem y) d)).symbols.types.get? _).isSome
    rcases List.mem_cons.1 hmem with rfl | hmem
    · refine symbols_induction isSome_types_entry ?_
      rw [structItem, register, after_enterNew]
      split
      · rename_i hcontains
        exact hcontains
      · exact Option.isSome_of_eq_some (Table.get?_insert_self _ _ _)
    · exact isSome_types_afterPhase_structs ys hmem _

theorem known_afterPhase_imports (xs : List Item) (hd : d.symbols.Known)
    (hnone : d.symbols.types.All fun _ found => found.definition = none) :
    (afterPhase xs .imports d).symbols.Known ∧
      (afterPhase xs .imports d).symbols.types.All fun _ found => found.definition = none := by
  refine symbols_induction
    (I := fun s => s.Known ∧ s.types.All fun _ found => found.definition = none)
    (fun hentry h => ?_) ⟨hd, hnone⟩
  obtain ⟨hd, hnone⟩ := h
  cases hentry with
  | importedConstant | module => exact ⟨⟨hd.types, hd.functions, hd.structs⟩, hnone⟩
  | importedFunction => exact ⟨⟨hd.types, hd.functions.insert nofun, hd.structs⟩, hnone⟩
  | importedType =>
    exact ⟨⟨hd.types.insert (Ty.known_named _), hd.functions, hd.structs⟩, hnone.insert rfl⟩

/-- Structs without their fields are known, and their names take no arguments. -/
theorem known_afterPhase_structs (xs : List Item) (hd : d.symbols.Known)
    (hnone : d.symbols.types.All fun _ found => found.definition = none) :
    (afterPhase xs .structs d).symbols.Known ∧
      StructsEntered xs (afterPhase xs .structs d).symbols := by
  have hkept : (afterPhase xs .structs d).symbols.Known ∧
      (afterPhase xs .structs d).symbols.types.All fun _ found =>
        found.definition.isSome →
          found.ty.genericNames (afterPhase xs .structs d).symbols.registry = [] := by
    refine symbols_induction
      (I := fun s => s.Known ∧ s.types.All fun _ found =>
        found.definition.isSome → found.ty.genericNames s.registry = [])
      (fun hentry hd => ?_) ⟨hd, fun entry hentry h => ?_⟩
    · obtain ⟨hd, hplain⟩ := hd
      cases hentry with
      | struct decl =>
        have hknown (s : Symbols) : (structType s decl.name.name []).Known :=
          Ty.known_iff.2 ⟨nofun, nofun⟩
        exact ⟨⟨hd.types.insert (hknown _), hd.functions, hd.structs.insert .empty⟩,
          hplain.insert fun _ => rfl⟩
    · rw [hnone entry hentry] at h
      cases h
  refine ⟨hkept.1, fun decl hdecl => ?_⟩
  obtain ⟨found, hfound⟩ := Option.isSome_iff_exists.1 (isSome_types_afterPhase_structs xs hdecl d)
  exact ⟨found, hfound, hkept.2.get? hfound⟩

/-- What the type declarations keep, if every name they mention takes as many arguments when they
are entered as in the end, holds in the end. -/
theorem afterPhase_types_induction {I : Symbols → Prop} {last : Symbols} :
    (ys : List Item) → ys ⊆ xs → aliasesFirst ys = true → (d : Declarations) →
    StructsEntered xs d.symbols → (afterPhase ys .types d).symbols.SameTypes last →
    (∀ x ∈ ys, ∀ {s s'}, Entry [x] s .types s' →
      TypeSpec.AritiesAgree x.typeMentions { symbols := s } { symbols := last } → I s → I s') →
    I d.symbols → I (afterPhase ys .types d).symbols
  | [], _, _, _, _, _, _, hd => hd
  | x :: zs, hsub, hfirst, d, hstructs, hlast, hstep, hd => by
    obtain ⟨hmentions, hfirst⟩ := aliasesFirst_cons hfirst
    have hend := TypesKept.afterPhase hsub hstructs
    have hsub' : [x] ⊆ xs := List.cons_subset.2 ⟨hsub List.mem_cons_self, List.nil_subset _⟩
    -- what `x` mentions takes as many arguments while `x` is declared as in the end
    have hagree {s : Symbols} (hkept : TypesKept xs [x] d.symbols s) :
        TypeSpec.AritiesAgree x.typeMentions { symbols := s } { symbols := last } := by
      refine aritiesAgree_of_entered?
        ((hkept.registry.symm.trans hend.registry).trans hlast.registry)
        ((hkept.modules.symm.trans hend.modules).trans hlast.modules) (fun name hname => ?_) none
      have hother := hmentions name hname
      rw [← hlast.entered? name, ← hend.entered? name hother,
        ← hkept.entered? name fun y hy => hother y (List.mem_singleton.1 hy ▸ List.mem_cons_self)]
    have hfirstStep : TypesKept xs [x] d.symbols (afterPhase [x] .types d).symbols ∧
        I (afterPhase [x] .types d).symbols :=
      symbols_induction (I := fun s => TypesKept xs [x] d.symbols s ∧ I s)
        (fun hnext h => ⟨h.1.entry hsub' hnext, hstep x List.mem_cons_self hnext (hagree h.1) h.2⟩)
        ⟨⟨hstructs, rfl, rfl, fun _ _ => rfl⟩, hd⟩
    exact afterPhase_types_induction zs (fun y hy => hsub (List.mem_cons_of_mem _ hy)) hfirst
      (afterPhase [x] .types d) hfirstStep.1.structs hlast
      (fun y hy => hstep y (List.mem_cons_of_mem _ hy)) hfirstStep.2

/-- A field or an alias whose annotation has no faults in the end has none when it is declared. -/
theorem known_afterPhase_types (hfirst : aliasesFirst xs = true) (hd : d.symbols.Known)
    (hstructs : StructsEntered xs d.symbols)
    (hfaults : ∀ x ∈ xs, x.faults (afterPhase xs .types d).symbols = []) :
    (afterPhase xs .types d).symbols.Known := by
  refine afterPhase_types_induction (I := Symbols.Known) xs (List.Subset.refl _) hfirst d hstructs
    ⟨rfl, rfl, rfl⟩ (fun x hx {s s'} hentry hagree hknown => ?_) hd
  have hresolve {spec : TypeSpec} (hnames : spec.names ⊆ x.typeMentions)
      (hspec : spec.faults { symbols := (afterPhase xs .types d).symbols } = []) :
      (spec.resolve { symbols := s }).Known :=
    spec.known_resolve hknown.root ((spec.faults_eq_nil_congr (hagree.mono hnames)).2 hspec)
  have hx := hfaults x hx
  cases hentry with
  | fields decl hmem =>
    obtain rfl := List.mem_singleton.1 hmem
    refine hknown.withStruct fun f hf => hresolve ?_ ?_
    · exact fun name hname => List.mem_flatMap.2 ⟨f, hf, hname⟩
    · exact List.flatMap_eq_nil_iff.1 hx f hf
  | typeAlias decl hmem =>
    obtain rfl := List.mem_singleton.1 hmem
    have hty := hresolve (List.Subset.refl _) hx
    exact ⟨hknown.types.insert hty, hknown.functions, hknown.structs⟩

/-- Functions and constants leave the names of types alone. -/
theorem sameTypes_entry {phase : Phase} {s t t' : Symbols}
    (hphase : phase = .functions ∨ phase = .constants) (hentry : Entry xs t phase t')
    (h : s.SameTypes t) : s.SameTypes t' := by
  cases hentry with
  | importedConstant | importedFunction | importedType | module | struct | fields | typeAlias =>
    simp at hphase
  | function | method | operator | constant => exact ⟨h.types, h.modules, h.registry⟩

theorem sameTypes_afterPhase (xs : List Item) {phase : Phase}
    (hphase : phase = .functions ∨ phase = .constants) (d : Declarations) :
    d.symbols.SameTypes (afterPhase xs phase d).symbols :=
  symbols_induction (sameTypes_entry hphase) ⟨rfl, rfl, rfl⟩

theorem paramFaults_eq_nil_congr (h : s.SameTypes s') {self : Option SelfType} {role : Role} :
    {first : Bool} → {params : List ParamDecl} →
    paramFaults { symbols := s', self } role first params = [] →
    paramFaults { symbols := s, self } role first params = []
  | _, [], _ => rfl
  | _, p :: rest, hfaults => by
    obtain ⟨hp, hrest⟩ := List.append_eq_nil_iff.1 hfaults
    refine List.append_eq_nil_iff.2 ⟨?_, paramFaults_eq_nil_congr h hrest⟩
    unfold ParamDecl.faults at hp ⊢
    cases htype : p.type with
    | none => simpa [htype] using hp
    | some spec =>
      refine (spec.faults_eq_nil_congr (h.aritiesAgree spec.names self)).2 ?_
      simpa [htype] using hp

/-- Faults depend on the names of types only. -/
theorem FunctionDecl.faults_eq_nil_congr (h : s.SameTypes s') {self : Option SelfType} {role : Role}
    {decl : FunctionDecl} (hfaults : decl.faults { symbols := s', self } role = []) :
    decl.faults { symbols := s, self } role = [] := by
  obtain ⟨hresult, hparams⟩ := List.append_eq_nil_iff.1 hfaults
  have hresult := (decl.result.faults_eq_nil_congr (h.aritiesAgree _ self)).2 hresult
  exact List.append_eq_nil_iff.2 ⟨hresult, paramFaults_eq_nil_congr h hparams⟩

theorem Item.faults_eq_nil_congr (h : s.SameTypes s') {x : Item} (hfaults : x.faults s' = []) :
    x.faults s = [] := by
  cases x with
  | use | const => rfl
  | function decl => exact FunctionDecl.faults_eq_nil_congr h hfaults
  | typeAlias decl =>
    exact (decl.type.faults_eq_nil_congr (h.aritiesAgree _ none)).2 hfaults
  | struct decl =>
    refine List.flatMap_eq_nil_iff.2 fun f hf => ?_
    exact (f.type.faults_eq_nil_congr (h.aritiesAgree _ none)).2
      (List.flatMap_eq_nil_iff.1 hfaults f hf)
  | methods decl | operators decl =>
    refine List.flatMap_eq_nil_iff.2 fun f hf => FunctionDecl.faults_eq_nil_congr h ?_
    rw [h.selfOf?]
    exact List.flatMap_eq_nil_iff.1 hfaults f hf

theorem known_afterPhase_functions (hd : d.symbols.Known)
    (hfaults : ∀ x ∈ xs, x.faults d.symbols = []) : (afterPhase xs .functions d).symbols.Known := by
  suffices h : d.symbols.SameTypes (afterPhase xs .functions d).symbols ∧
      (afterPhase xs .functions d).symbols.Known from h.2
  refine symbols_induction (I := fun s => d.symbols.SameTypes s ∧ s.Known)
    (fun {s s'} hentry h => ⟨sameTypes_entry (Or.inl rfl) hentry h.1, ?_⟩) ⟨⟨rfl, rfl, rfl⟩, hd⟩
  obtain ⟨hsame, hknown⟩ := h
  have hfaults x (hx : x ∈ xs) : x.faults s = [] :=
    Item.faults_eq_nil_congr hsame.symm (hfaults x hx)
  have hblock {block : ImplDecl} {self : SelfType} {role : Role} {decl : FunctionDecl}
      (hself : Symbols.selfOf? s block.name.name = some self)
      (hfaults : decl.faults (block.view s) role = []) :
      (Ty.function
        (signature { symbols := s, self := some self } decl (role = .method))).Known := by
    rw [ImplDecl.view, hself] at hfaults
    exact known_signature (hknown.view (hself ▸ hknown.selfOf?)) hfaults
  cases hentry with
  | function decl hmem =>
    have hsignature := known_signature hknown.root (hfaults _ hmem)
    exact ⟨hknown.types, hknown.functions.insert fun _ => hsignature, hknown.structs⟩
  | method block hmem self hself decl hdecl =>
    have hvalue : (functionValue { symbols := s, self } decl true).ty.Known :=
      hblock hself (List.flatMap_eq_nil_iff.1 (hfaults _ hmem) decl hdecl)
    refine hknown.withInfo self.name fun info hinfo => ?_
    exact { hinfo with methods := hinfo.methods.insert hvalue }
  | operator block hmem self hself decl hdecl op side overload hclassify =>
    have hsignature := hblock hself (List.flatMap_eq_nil_iff.1 (hfaults _ hmem) decl hdecl)
    obtain ⟨hparams, hresult⟩ := Ty.known_function.1 hsignature
    have hoverload := types_of_classify (by decide) hparams hresult hclassify
    exact hknown.withInfo _ fun info hinfo => hinfo.withOverload op hoverload side

theorem known_afterPhase_constants (hd : d.symbols.Known) :
    (afterPhase xs .constants d).symbols.Known := by
  refine symbols_induction (I := Symbols.Known) (fun hentry hd => ?_) hd
  cases hentry with
  | constant => exact ⟨hd.types, hd.functions, hd.structs⟩

/-! ## Scripts without errors -/

/-- If every alias is declared before the types that mention it, a script without errors declares
no alias, field, function, method or operator with an unknown part in its type. -/
theorem known_of_errors_eq_nil (registry : Registry) (script : Script)
    (hfirst : aliasesFirst script.items = true)
    (herrors : (script.validate registry).report.errors = []) :
    (script.validate registry).symbols.Known := by
  let start : Declarations := ⟨{ registry, moduleName := script.name }, []⟩
  obtain ⟨himports, hnone⟩ := known_afterPhase_imports script.items (d := start)
    ⟨.empty, .empty, .empty⟩ .empty
  obtain ⟨hstructs, hentered⟩ := known_afterPhase_structs script.items himports hnone
  set d := afterPhase script.items .structs (afterPhase script.items .imports start)
  -- the names of types stay what they are after the phase that declares them
  have hsame : (afterPhase script.items .types d).symbols.SameTypes
      (script.declarations registry).symbols :=
    (sameTypes_afterPhase script.items (Or.inl rfl) _).trans
      (sameTypes_afterPhase script.items (Or.inr rfl) _)
  have hfaults : ∀ x ∈ script.items, x.faults (afterPhase script.items .types d).symbols = [] :=
    fun x hx => Item.faults_eq_nil_congr hsame (Script.faults_eq_nil herrors hx)
  have htypes := known_afterPhase_types hfirst hstructs hentered hfaults
  exact known_afterPhase_constants (known_afterPhase_functions htypes hfaults)

/-- The script
`type Length = int`,
`struct Box ( width : Length, lid : Option<Box> )`,
`impl Box { fn depth(self, scale : Length) -> Length = self.width }`,
`impl operators Box { fn add(left : Self, right : Length) -> Self = left }`,
`fn most(box : Box) -> Length = box.depth(2)`. -/
def shelf : Script :=
  .ofItems
    [.ofAlias "Length" "int",
      .ofStruct "Box" [("width", .plain "Length"), ("lid", .option {} (.plain "Box"))],
      .methods (.ofFunctions "Box"
        [.ofBody "depth" [.self, .ofType "scale" (.plain "Length")] "Length"
          (.ofField (.ofName "self") "width")]),
      .operators (.ofFunctions "Box"
        [.ofBody "add" [.ofType "left" (.plain "Self"), .ofType "right" (.plain "Length")] "Self"
          (.ofName "left")]),
      .function (.ofBody "most" [.ofType "box" (.plain "Box")] "Length"
        (.methodCall {} (.ofName "box") ⟨"depth", {}⟩ [.int {} 2]))]

/-- Two types, two functions and a struct with fields, a method and an operator, all known. -/
theorem known_of_errors_eq_nil_shelf :
    aliasesFirst shelf.items = true ∧ (shelf.validate .empty).report.errors = [] ∧
      (shelf.validate .empty).symbols.types.keys = ["Box", "Length"] ∧
      (shelf.validate .empty).symbols.functions.keys = ["Box", "most"] ∧
      (shelf.validate .empty).symbols.Known := by
  have hfirst : aliasesFirst shelf.items = true := by decide
  have herrors : (shelf.validate .empty).report.errors = [] :=
    List.length_eq_zero_iff.1 (by decide +kernel)
  exact ⟨hfirst, herrors, by decide +kernel, by decide +kernel,
    known_of_errors_eq_nil .empty shelf hfirst herrors⟩

/-- The script `type A = A`. -/
def ownAlias : Script := .ofItems [.ofAlias "A" "A"]

/-- The script `struct S ( x : B )`, `type B = int`. -/
def laterFieldType : Script :=
  .ofItems [.ofStruct "S" [("x", .plain "B")], .ofAlias "B" "int"]

/-- An alias or a field that mentions a later alias, or an alias that mentions itself, is unknown,
and there is no complaint about it. -/
theorem unknown_without_errors :
    (laterAlias.validate .empty).report.errors = [] ∧ ¬(laterAlias.validate .empty).symbols.Known ∧
      (ownAlias.validate .empty).report.errors = [] ∧ ¬(ownAlias.validate .empty).symbols.Known ∧
      (laterFieldType.validate .empty).report.errors = [] ∧
      ¬(laterFieldType.validate .empty).symbols.Known := by
  have hunknown : ¬Ty.unknown.Known := fun h => (Ty.known_iff.1 h).1 rfl
  refine ⟨rfl, fun h => ?_, rfl, fun h => ?_, rfl, fun h => ?_⟩
  · have hentry : (laterAlias.validate .empty).symbols.types.get? "A" =
        some { ty := .unknown, definition := some ⟨"main", {}⟩ } := by decide +kernel
    exact hunknown (h.types.get? hentry)
  · have hentry : (ownAlias.validate .empty).symbols.types.get? "A" =
        some { ty := .unknown, definition := some ⟨"main", {}⟩ } := by decide +kernel
    exact hunknown (h.types.get? hentry)
  · have hentry : (laterFieldType.validate .empty).symbols.types.get? "S" =
        some { ty := .record (some ⟨"main", "S"⟩) [("x", .unknown)]
               definition := some ⟨"main", {}⟩, isStruct := true } := by decide +kernel
    exact absurd (h.types.get? hentry) (by decide)

end ScriptCheck
