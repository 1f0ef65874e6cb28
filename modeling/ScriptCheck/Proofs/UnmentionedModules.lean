import ScriptCheck.Proofs.ApartChecks

/-!
# Library modules that a script does not mention

A script names modules in its imports, in front of `::` and in annotations, and the descriptions of
a library name modules in their type references. A module that neither of them names can be added to
the library, or be left out of it: both passes over the script come to the same symbol tables, and
the report is the same (`Script.validate_extended`). The short name that an import gives to another
module may well be the name of this one, as long as it is not used.

The runs over the two libraries are coupled, as for the expressions: every state of the one is that
of the other over the extended registry, and no type in it is one of the added module.
-/

namespace ScriptCheck

open Library

variable {E : Registry.Extension}

/-- What does not occur in any part does not occur in one of them. -/
theorem not_mem_of_flatMap {α : Type} {f : α → List String} {xs : List α} {name : String}
    (h : name ∉ xs.flatMap f) : ∀ x ∈ xs, name ∉ f x :=
  fun x hx hname => h (List.mem_flatMap.2 ⟨x, hx, hname⟩)

/-! ## The second pass -/

namespace Check.Unmoved

theorem setSelf {self : Option SelfType} (h : ∀ t ∈ self, t.ty.Apart E.module) :
    Follows E (setSelf self) := by
  rintro c _ ⟨rfl, hc⟩
  exact ⟨⟨rfl, trivial⟩, rfl, ⟨hc.view.symbols, h⟩, hc.scopes⟩

theorem level : E.regime.Level () where
  close := closeScopes
  block name {m m'} hm := by
    rintro c _ ⟨rfl, hc⟩
    have hself : ∀ t ∈ Symbols.selfOf? c.view.symbols name, t.ty.Apart E.module := by
      intro t ht
      obtain ⟨found, hfound, -, rfl⟩ := Declare.exists_of_selfOf? ht
      exact hc.view.symbols.types.get? hfound
    have hrun : Coupled (Checker.Beside E) (Same Any)
        (do
          Check.setSelf (Symbols.selfOf? c.view.symbols name)
          m c.view.symbols
          Check.setSelf none)
        (do
          Check.setSelf (Symbols.selfOf? c.view.symbols name)
          m' (c.view.extend E).symbols
          Check.setSelf none) :=
      (setSelf hself).bind_same fun _ _ =>
        (hm ⟨rfl, hc.view⟩ () closeScopes).bind_same fun _ _ => setSelf nofun
    exact hrun ⟨rfl, hc⟩

/-- The check of items that do not name the module. -/
theorem items (xs : List Item) (h : ∀ x ∈ xs, E.module ∉ x.modules) :
    Follows E (items Expr.part xs) :=
  E.grounds.items (E.regime.expr fun _ => trivial) level xs fun x hx =>
    .of_any rfl (fun _ => trivial) fun _ hm => ne_of_mem_of_not_mem hm (h x hx)

end Check.Unmoved

/-! ## The first pass -/

/-- The same declarations over the extended registry. -/
def Declarations.extend (E : Registry.Extension) (d : Declarations) : Declarations :=
  { d with symbols := d.symbols.extend E }

/-- The states of the two runs of the first pass. -/
def Declarations.Beside (E : Registry.Extension) (d d' : Declarations) : Prop :=
  d' = d.extend E ∧ d.symbols.Apart E

namespace Declare

variable {α β : Type} {P : α → Prop} {Q : β → β → Prop}

/-- Both runs of the declaration return the same value, of the given property, and go on in states
that differ in the registry only. -/
abbrev Unmoved (E : Registry.Extension) (P : α → Prop) (m : DeclareM α) : Prop :=
  Coupled (Declarations.Beside E) (fun a b => b = a ∧ P a) m m

/-- As `Unmoved`, whatever is returned. -/
abbrev Follows (E : Registry.Extension) (m : DeclareM α) : Prop := Unmoved E (fun _ => True) m

namespace Unmoved

variable {decl : FunctionDecl} {s : Symbols}

theorem pure {a : α} (h : P a) : Unmoved E P (pure a) := Coupled.pure ⟨rfl, h⟩

theorem skip {a : α} : Follows E (Pure.pure a) := pure trivial

theorem andThen {γ δ : Type} {Q : γ → δ → Prop} {m : DeclareM α} {k : α → DeclareM γ}
    {k' : α → DeclareM δ} (hm : Follows E m)
    (hk : ∀ a, Coupled (Declarations.Beside E) Q (k a) (k' a)) :
    Coupled (Declarations.Beside E) Q (m >>= k) (m >>= k') :=
  Coupled.bind_same hm fun a _ => hk a

/-- Both runs take the same branch. -/
theorem branch {c : Bool} {m m' k k' : DeclareM β} (hm : Coupled (Declarations.Beside E) Q m m')
    (hk : Coupled (Declarations.Beside E) Q k k') :
    Coupled (Declarations.Beside E) Q (if c then m else k) (if c then m' else k') := by
  cases c with
  | true => exact hm
  | false => exact hk

theorem symbols {k k' : Symbols → DeclareM β}
    (hk : ∀ s, s.Apart E → Coupled (Declarations.Beside E) Q (k s) (k' (s.extend E))) :
    Coupled (Declarations.Beside E) Q (symbols >>= k) (symbols >>= k') := by
  rintro d _ ⟨rfl, hd⟩
  exact hk _ hd ⟨rfl, hd⟩

theorem fail (problem : Problem) (range : Range) : Follows E (fail problem range) := by
  rintro d _ ⟨rfl, hd⟩
  exact ⟨⟨rfl, trivial⟩, rfl, hd⟩

theorem duplicate (kind : SymbolKind) (name : Ident) : Follows E (duplicate kind name) := fail _ _

/-- Both runs make the same entry, or complain about the same. -/
theorem makeEntry (range : Option Range) {entry : Symbols → Except Problem Symbols}
    (hsame : ∀ s, s.Apart E → entry (s.extend E) = (entry s).map (Symbols.extend E))
    (h : ∀ s, s.Apart E → ∀ t, entry s = .ok t → t.Apart E) :
    Follows E (makeEntry range entry) := by
  refine symbols fun s hs => ?_
  rw [hsame s hs]
  cases hentry : entry s with
  | ok t =>
    rintro d _ ⟨rfl, -⟩
    exact ⟨⟨rfl, trivial⟩, rfl, h s hs t hentry⟩
  | error problem =>
    cases range with
    | some range => exact fail _ _
    | none => exact skip

/-- Both runs enter the same under a name, or find it taken. -/
theorem enterNew {kind : SymbolKind} {name : String} {range : Option Range}
    {taken : Symbols → Bool} {add : Symbols → Symbols}
    (htaken : ∀ s, taken (s.extend E) = taken s)
    (hadd : ∀ s, s.Apart E → add (s.extend E) = (add s).extend E ∧ (add s).Apart E) :
    Follows E (enterNew kind name range taken add) := by
  refine makeEntry range (fun s hs => ?_) fun s hs t ht => ?_
  · rw [htaken, (hadd s hs).1]
    cases taken s <;> rfl
  · split at ht <;> cases ht
    exact (hadd s hs).2

theorem each {γ : Type} {declare : γ → DeclareM Unit} : (xs : List γ) →
    (∀ x ∈ xs, Follows E (declare x)) → Follows E (each declare xs)
  | [], _ => skip
  | x :: rest, h => by
    obtain ⟨hx, hrest⟩ := List.forall_mem_cons.1 h
    exact hx.andThen fun _ => each rest hrest

/-! ### Entries -/

theorem withInfo (hs : s.Apart E) (name : String) {change : StructInfo → StructInfo}
    (h : ∀ info : StructInfo, info.Apart E.module → (change info).Apart E.module) :
    (withInfo s name change).Apart E :=
  { hs with structs := hs.structs.insert (h _ (hs.info name)) }

/-! ### Imports -/

theorem importAs {ι : Type} {found : Option ι} {enter : ι → DeclareM Unit}
    (h : ∀ info ∈ found, Follows E (enter info)) : Follows E (importAs found enter) := by
  cases found with
  | none => exact skip
  | some info => exact (h info rfl).andThen fun _ => skip

variable {module : ModuleInfo}

theorem importConstant (hrefs : ∀ ref ∈ module.refs, E.module ∉ ref.modules) (name : String)
    (range : Option Range) : Follows E (importConstant module name range) := by
  refine importAs fun info hinfo => enterNew (fun _ => rfl) fun s hs => ?_
  have hmem : info.type ∈ module.refs := List.mem_append_left _ (List.mem_append_left _
    (List.mem_map_of_mem (List.mem_reverse.1 (List.mem_of_find?_eq_some hinfo))))
  obtain ⟨hsame, hapart⟩ := info.type.resolve_apart (E := E) .empty (hrefs _ hmem)
  change TypeRef.resolve (s.extend E).registry {} info.type = _ at hsame
  rw [← hs.registry] at hsame hapart
  rw [hsame]
  exact ⟨rfl, { hs with constants := hs.constants.insert hapart }⟩

theorem importFunction (hrefs : ∀ ref ∈ module.refs, E.module ∉ ref.modules) (name : String)
    (range : Option Range) : Follows E (importFunction module name range) := by
  refine importAs fun info hinfo => enterNew (fun _ => rfl) fun s hs => ?_
  obtain ⟨hsame, hapart⟩ := Registry.Extension.functionType (E := E) (f := info)
    fun ref href => hrefs ref (List.mem_append_left _ (List.mem_append_right _
      (List.mem_flatMap.2 ⟨info, List.mem_reverse.1 (List.mem_of_find?_eq_some hinfo), href⟩)))
  change (s.extend E).registry.functionType info = _ at hsame
  rw [← hs.registry] at hsame hapart
  rw [hsame]
  exact ⟨rfl, { hs with functions := hs.functions.insert hapart }⟩

theorem importType (hname : module.name ≠ E.module) (name : String) (range : Option Range) :
    Follows E (importType module name range) :=
  importAs fun _ _ => enterNew (fun _ => rfl) fun _ hs =>
    ⟨rfl, { hs with types := hs.types.insert (Ty.apart_named.2 hname) }⟩

theorem importName (hname : module.name ≠ E.module)
    (hrefs : ∀ ref ∈ module.refs, E.module ∉ ref.modules) (name : String) (range : Option Range) :
    Follows E (importName module name range) :=
  (importConstant hrefs name range).andThen fun _ => (importFunction hrefs name range).andThen
    fun _ => (importType hname name range).andThen fun _ => skip

theorem imports {decl : UseDecl} (h : decl.module.name ≠ E.module) :
    Follows E (imports decl) := by
  refine symbols fun s hs => ?_
  rw [hs.registered h]
  split
  · exact fail _ _
  · rename_i module hmodule
    rw [hs.registry] at hmodule
    have hname := E.named _ module h hmodule
    have himport := importName hname (E.apart _ module h hmodule)
    split
    · exact enterNew (fun _ => rfl) fun _ hs =>
        ⟨rfl, { hs with modules := hs.modules.insert hname }⟩
    · refine each _ fun name _ => (himport _ _).andThen fun found => ?_
      dsimp only
      split
      · exact skip
      · exact fail _ _
    · exact each _ fun name _ => (himport _ _).andThen fun _ => skip

/-! ### Types -/

theorem register (decl : StructDecl) : Follows E (register decl) :=
  enterNew (fun _ => rfl) fun _ hs => ⟨rfl,
    { hs with
      types := hs.types.insert (Ty.apart_record.2 (List.forall_mem_nil _))
      structs := hs.structs.insert .empty }⟩

/-- A view of symbols that stand apart, outside of `impl` blocks. -/
theorem root (hs : s.Apart E) : View.Apart E { symbols := s } := ⟨hs, nofun⟩

/-- The fields of a struct declaration that does not name the module. -/
theorem resolvedFields (hs : s.Apart E) {decl : StructDecl}
    (h : E.module ∉ (Item.struct decl).modules) :
    resolvedFields decl (s.extend E) = resolvedFields decl s ∧
      ∀ item ∈ resolvedFields decl s, item.2.Apart E.module := by
  have hresolve : ∀ f ∈ firstFields [] decl.fields,
      f.type.resolve { symbols := s.extend E } = f.type.resolve { symbols := s } ∧
        (f.type.resolve { symbols := s }).Apart E.module := fun f hf =>
    TypeSpec.resolve_apart (root hs) f.type fun hmodule => not_mem_of_flatMap h f
      (mem_of_mem_firstFields hf) (List.mem_append_left _ hmodule)
  constructor
  · exact List.map_congr_left fun f hf => by rw [(hresolve f hf).1]
  · intro item hitem
    obtain ⟨f, hf, rfl⟩ := List.mem_map.1 hitem
    exact (hresolve f hf).2

/-- The symbols with the fields and the constructor of a struct. -/
theorem withStruct (hs : s.Apart E) {decl : StructDecl}
    (h : E.module ∉ (Item.struct decl).modules) :
    withStruct decl (s.extend E) = (withStruct decl s).extend E ∧
      (withStruct decl s).Apart E := by
  obtain ⟨hsame, hfields⟩ := resolvedFields hs h
  have hty : (structType s decl.name.name (Declare.resolvedFields decl s)).Apart E.module :=
    Ty.apart_record.2 hfields
  have hinfo := hs.info decl.name.name
  have hconstructor : (constructorValue decl s).ty.Apart E.module := by
    refine Ty.apart_function.2 ⟨fun p hp => ?_, hty⟩
    obtain ⟨item, hitem, rfl⟩ := List.mem_map.1 hp
    exact hfields item hitem
  constructor
  · rw [Declare.withStruct, Declare.withStruct, constructorValue, constructorValue, hsame]
    rfl
  · refine ⟨hs.registry, hs.constants, ?_, hs.modules, ?_,
      hs.structs.insert ⟨hfields, hinfo.methods, hinfo.prefixOperators, hinfo.suffixOperators⟩⟩
    · dsimp only [Declare.withStruct]
      split
      · exact hs.functions
      · exact hs.functions.insert hconstructor
    · dsimp only [Declare.withStruct]
      split
      · exact hs.types.insert hty
      · exact hs.types

theorem structFields {decl : StructDecl} (h : E.module ∉ (Item.struct decl).modules) :
    Follows E (structFields decl) := by
  refine symbols fun s _ => branch ((each _ fun _ _ => duplicate _ _).andThen fun _ => ?_) skip
  refine Coupled.bind_same (P := fun _ => True) ?_ fun _ _ => branch (duplicate _ _) skip
  rintro d _ ⟨rfl, hd⟩
  obtain ⟨hsame, hapart⟩ := withStruct hd h
  exact ⟨⟨rfl, trivial⟩,
    congrArg (fun symbols => ({ d with symbols } : Declarations)) hsame, hapart⟩

theorem typeAlias {decl : AliasDecl} (h : E.module ∉ decl.type.modules) :
    Follows E (typeAlias decl) := by
  refine enterNew (fun _ => rfl) fun s hs => ?_
  obtain ⟨hsame, hapart⟩ := TypeSpec.resolve_apart (root hs) decl.type h
  change decl.type.resolve { symbols := s.extend E } = _ at hsame
  rw [hsame]
  exact ⟨rfl, { hs with types := hs.types.insert hapart }⟩

/-! ### Functions and constants -/

/-- The type of a function declaration that does not name the module. -/
theorem signature {v : View} (hv : v.Apart E) (h : E.module ∉ decl.modules) (isMethod : Bool) :
    signature (v.extend E) decl isMethod = signature v decl isMethod ∧
      (Ty.function (signature v decl isMethod)).Apart E.module := by
  obtain ⟨hparams, h⟩ := not_or.1 (mt List.mem_append.2 h)
  obtain ⟨hresult, -⟩ := not_or.1 (mt List.mem_append.2 h)
  obtain ⟨hsame, hapart⟩ := TypeSpec.resolve_apart hv decl.result hresult
  have hparam : ∀ p ∈ decl.params.drop (if isMethod then 1 else 0),
      (p.type.map fun spec => spec.resolve (v.extend E)).getD .unknown =
          (p.type.map fun spec => spec.resolve v).getD .unknown ∧
        Ty.Apart E.module ((p.type.map fun spec => spec.resolve v).getD .unknown) := by
    intro p hp
    have hp := not_mem_of_flatMap hparams p (List.mem_of_mem_drop hp)
    cases htype : p.type with
    | none => exact ⟨rfl, Ty.apart_unknown⟩
    | some spec =>
      exact TypeSpec.resolve_apart hv spec fun hspec =>
        hp (List.mem_append_left _ (by simpa [htype] using hspec))
  constructor
  · rw [Declare.signature, Declare.signature, hsame]
    congr 1
    exact List.map_congr_left fun p hp => by rw [(hparam p hp).1]
  · refine Ty.apart_function.2 ⟨fun p hp => ?_, hapart⟩
    obtain ⟨decl', hdecl, rfl⟩ := List.mem_map.1 hp
    exact (hparam decl' hdecl).2

/-- The entry for a function that does not name the module. -/
theorem functionValue {v : View} (hv : v.Apart E) (h : E.module ∉ decl.modules) (isMethod : Bool) :
    functionValue (v.extend E) decl isMethod = functionValue v decl isMethod ∧
      (functionValue v decl isMethod).ty.Apart E.module := by
  obtain ⟨hsame, hapart⟩ := signature hv h isMethod
  refine ⟨?_, hapart⟩
  rw [Declare.functionValue, Declare.functionValue, hsame]
  rfl

theorem function (h : E.module ∉ decl.modules) :
    Follows E (Declare.enterFunction .module decl) := by
  rw [enterFunction_module]
  refine enterNew (fun _ => rfl) fun s hs => ?_
  obtain ⟨hsame, hapart⟩ := functionValue (root hs) h false
  change Declare.functionValue { symbols := s.extend E } decl false = _ at hsame
  rw [hsame]
  exact ⟨rfl, { hs with functions := hs.functions.insert hapart }⟩

variable {self : SelfType}

theorem inside (hs : s.Apart E) (hself : self.ty.Apart E.module) :
    View.Apart E { symbols := s, self } := by
  refine ⟨hs, ?_⟩
  rintro _ ⟨⟩
  exact hself

theorem method (hself : self.ty.Apart E.module) (h : E.module ∉ decl.modules) :
    Follows E (Declare.enterFunction (.methods self) decl) := by
  cases hreceiver : hasReceiver decl with
  | true =>
    rw [enterFunction_method self hreceiver]
    refine enterNew (fun _ => rfl) fun s hs => ?_
    obtain ⟨hsame, hapart⟩ := functionValue (inside hs hself) h true
    change Declare.functionValue { symbols := s.extend E, self } decl true = _ at hsame
    rw [hsame]
    exact ⟨rfl, withInfo hs _ fun info hinfo => ⟨hinfo.fields, hinfo.methods.insert hapart,
      hinfo.prefixOperators, hinfo.suffixOperators⟩⟩
  | false =>
    refine makeEntry _ (fun s _ => ?_) fun s _ t ht => ?_ <;>
      simp_all [withFunction, Except.map]

theorem classify (hs : s.Apart E) (hself : self.ty.Apart E.module) (h : E.module ∉ decl.modules) :
    classify { symbols := s.extend E, self } self.ty decl =
      classify { symbols := s, self } self.ty decl := by
  obtain ⟨hsame, hapart⟩ := signature (inside hs hself) h false
  change Declare.signature { symbols := s.extend E, self } decl false = _ at hsame
  have hparams := (Ty.apart_function.1 hapart).1
  simp only [Declare.classify, classifyWith, pure_bind]
  rw [hsame]
  split
  · rfl
  · rename_i operand _ hsig
    rw [hs.accepts (hparams operand (by simp [hsig])) hself]
    rfl
  · rfl
  · rename_i left right _ hsig
    rw [hs.accepts (hparams left (by simp [hsig])) hself,
      hs.accepts (hparams right (by simp [hsig])) hself]
    rfl
  · rfl

theorem operator (hself : self.ty.Apart E.module) (h : E.module ∉ decl.modules) :
    Follows E (Declare.enterFunction (.operators self) decl) := by
  refine makeEntry _ (fun s hs => ?_) fun s hs t ht => ?_
  · simp only [withFunction, classify hs hself h]
    split <;> rfl
  · simp only [withFunction] at ht
    split at ht
    · rename_i op side overload hclassify
      obtain rfl := Except.ok.inj ht
      obtain ⟨hparams, hresult⟩ :=
        Ty.apart_function.1 (signature (inside hs hself) h false).2
      have hoverload :=
        types_of_classify (Ty.apart_prelude (E := E) "Unit") hparams hresult hclassify
      refine withInfo hs _ fun info hinfo => ?_
      cases side with
      | prefixSide =>
        exact { hinfo with prefixOperators := all_addOverload hinfo.prefixOperators op hoverload }
      | suffixSide =>
        exact { hinfo with suffixOperators := all_addOverload hinfo.suffixOperators op hoverload }
    · cases ht

/-- The functions of a block, entered one by one. -/
theorem block {owner : SelfType → Owner} {decl : ImplDecl}
    (howner : ∀ {self : SelfType}, self.ty.Apart E.module → ∀ f ∈ decl.functions,
      Follows E (Declare.enterFunction (owner self) f)) : Follows E (block owner decl) := by
  refine symbols fun s hs => ?_
  rw [show (s.extend E).selfOf? decl.name.name = s.selfOf? decl.name.name from rfl]
  cases hself : s.selfOf? decl.name.name with
  | none => exact fail _ _
  | some self =>
    obtain ⟨found, hfound, -, rfl⟩ := exists_of_selfOf? hself
    exact each _ (howner (hs.types.get? hfound))

/-- The type that is inferred for a constant. -/
theorem inferred (hs : s.Apart E) {value : Expr} (h : E.module ∉ value.modules) :
    Declare.inferred (s.extend E) value = Declare.inferred s value ∧
      (Declare.inferred s value).Apart E.module := by
  have hrun := E.grounds.inferred (w := ()) (e := value) (fun _ => trivial)
    (.of_any rfl (fun _ hm => ne_of_mem_of_not_mem hm h) fun _ _ => trivial)
  let start : Checker := { view := { symbols := s } }
  have hstart : Checker.Beside E start (start.extend E) := ⟨rfl, ⟨root hs, .empty⟩⟩
  exact (hrun hstart).1

theorem constType (hs : s.Apart E) {decl : ConstDecl} (h : E.module ∉ (Item.const decl).modules) :
    constType decl (s.extend E) = constType decl s ∧ (constType decl s).Apart E.module := by
  obtain ⟨htype, hvalue⟩ := not_or.1 (mt List.mem_append.2 h)
  rw [Declare.constType, Declare.constType]
  cases hdecl : decl.type with
  | none => exact inferred hs hvalue
  | some spec =>
    exact TypeSpec.resolve_apart (root hs) spec fun hspec => htype (by simpa [hdecl] using hspec)

theorem const {decl : ConstDecl} (h : E.module ∉ (Item.const decl).modules) :
    Follows E (const decl) := by
  refine enterNew (fun _ => rfl) fun s hs => ?_
  obtain ⟨hsame, hapart⟩ := constType hs h
  have hvalue : constValue decl (s.extend E) = constValue decl s := by
    rw [constValue, constValue, hsame]
    rfl
  rw [hvalue]
  exact ⟨rfl, { hs with constants := hs.constants.insert hapart }⟩

theorem declare {x : Item} (h : E.module ∉ x.modules) :
    (phase : Phase) → Follows E (phase.declare x)
  | .imports => by
    cases x with
    | use decl => exact imports fun heq => h (heq ▸ List.mem_cons_self)
    | const | function | struct | typeAlias | methods | operators => exact skip
  | .structs => by
    cases x with
    | struct decl => exact register decl
    | use | const | function | typeAlias | methods | operators => exact skip
  | .types => by
    cases x with
    | struct decl => exact structFields h
    | typeAlias decl => exact typeAlias h
    | use | const | function | methods | operators => exact skip
  | .functions => by
    cases x with
    | function decl => exact function h
    | methods decl =>
      exact block fun hself f hf => method hself (not_mem_of_flatMap h f hf)
    | operators decl =>
      exact block fun hself f hf => operator hself (not_mem_of_flatMap h f hf)
    | use | const | struct | typeAlias => exact skip
  | .constants => by
    cases x with
    | const decl => exact const h
    | use | function | struct | typeAlias | methods | operators => exact skip

theorem items {xs : List Item} (h : ∀ x ∈ xs, E.module ∉ x.modules) : Follows E (items xs) := by
  have hphase : ∀ phase : Phase, Follows E (Declare.each phase.declare xs) :=
    fun phase => each xs fun x hx => declare (h x hx) phase
  exact (hphase .imports).andThen fun _ => (hphase .structs).andThen fun _ =>
    (hphase .types).andThen fun _ => (hphase .functions).andThen fun _ => hphase .constants

end Unmoved

end Declare

/-! ## Validation -/

namespace Script

/-- The first pass comes to the same tables over both registries. -/
theorem declarations_extended {script : Script} (h : E.module ∉ script.modules) :
    Declarations.Beside E (script.declarations E.base) (script.declarations E.extended) := by
  let start : Declarations := { symbols := { registry := E.base, moduleName := script.name } }
  have hstart : Declarations.Beside E start (start.extend E) :=
    ⟨rfl, rfl, .empty, .empty, .empty, .empty, .empty⟩
  exact (Declare.Unmoved.items (not_mem_of_flatMap h) hstart).2

/-- So does the second pass, with the same report. -/
theorem validate_extended {script : Script} (h : E.module ∉ script.modules) :
    script.validate E.extended =
      ⟨(script.validate E.base).report, (script.validate E.base).symbols.extend E⟩ := by
  obtain ⟨hsame, hapart⟩ := declarations_extended h
  let d := script.declarations E.base
  let start : Checker :=
    { view := { symbols := d.symbols }, report := { diagnostics := d.diagnostics } }
  have hstart : Checker.Beside E start (start.extend E) :=
    ⟨rfl, Declare.Unmoved.root hapart, .empty⟩
  have hrun := (Check.Unmoved.items script.items (not_mem_of_flatMap h) hstart).2.1
  have hreport : ((Check.items Expr.part script.items).run (start.extend E)).2.report =
      ((Check.items Expr.part script.items).run start).2.report := by
    rw [hrun]
    rfl
  unfold validate validateWith
  rw [hsame]
  exact congrArg (fun r : Report => (⟨r.finish, d.symbols.extend E⟩ : Validation)) hreport

end Script

/-! ## Registries of modules -/

/-- Entries that are added to two tables keep what the tables have in common. -/
theorem Table.get?_foldl_insert_congr {κ α : Type} [DecidableEq κ] {key : κ} :
    (pairs : List (κ × α)) → {t u : Table κ α} → t.get? key = u.get? key →
    (pairs.foldl (fun t p => t.insert p.1 p.2) t).get? key =
      (pairs.foldl (fun t p => t.insert p.1 p.2) u).get? key
  | [], _, _, h => h
  | p :: rest, t, u, h => by
    refine get?_foldl_insert_congr rest ?_
    rw [get?_insert, get?_insert, h]

namespace Registry

variable {before after : List ModuleInfo} {extra : ModuleInfo}

theorem module?_ofModules_extra {name : String} (h : name ≠ extra.name) :
    (ofModules (before ++ extra :: after)).module? name =
      (ofModules (before ++ after)).module? name := by
  simp only [ofModules, module?, Table.ofList, List.map_append, List.map_cons, List.foldl_append,
    List.foldl_cons]
  exact Table.get?_foldl_insert_congr _ (Table.get?_insert_of_ne _ h _)

theorem name_of_module?_ofModules {modules : List ModuleInfo} {name : String} {info : ModuleInfo}
    (h : (ofModules modules).module? name = some info) : info.name = name := by
  have hnames : (ofModules modules).modules.All fun key info => info.name = key := by
    refine .ofList fun p hp => ?_
    obtain ⟨m, -, rfl⟩ := List.mem_map.1 hp
    rfl
  exact hnames.get? h

/-- A registry with a module more that none of its type references names. -/
def Extension.ofModules (before after : List ModuleInfo) (extra : ModuleInfo)
    (hname : extra.name ≠ "") (hmentions : extra.name ∉ (ofModules (before ++ after)).mentions) :
    Extension where
  base := Registry.ofModules (before ++ after)
  extended := Registry.ofModules (before ++ extra :: after)
  module := extra.name
  nonempty := hname
  same _ h := module?_ofModules_extra h
  named _ _ h hinfo := (name_of_module?_ofModules hinfo).trans_ne h
  apart name info _ hinfo ref href hmodule := hmentions <|
    List.mem_flatMap.2 ⟨(name, info), Table.mem_entries_of_get? hinfo,
      List.mem_flatMap.2 ⟨ref, href, hmodule⟩⟩

end Registry

/-- A module that the script does not name, and no type reference of the other modules does, can be
added to the library anywhere: the report is the same, and so are the symbol tables, apart from the
library that they stand over. The library may have another module of that name, which is then
replaced. -/
theorem unmentioned_module_does_not_matter (before after : List ModuleInfo) (extra : ModuleInfo)
    (script : Script) (hname : extra.name ≠ "")
    (hmentions : extra.name ∉ (Registry.ofModules (before ++ after)).mentions)
    (hscript : extra.name ∉ script.modules) :
    let library := Registry.ofModules (before ++ after)
    let extended := Registry.ofModules (before ++ extra :: after)
    (script.validate extended).report = (script.validate library).report ∧
      (script.validate extended).symbols =
        { (script.validate library).symbols with registry := extended } := by
  have hsame := Script.validate_extended
    (E := .ofModules before after extra hname hmentions) hscript
  have hreport := congrArg Validation.report hsame
  have hsymbols := congrArg Validation.symbols hsame
  exact ⟨hreport, hsymbols⟩

/-- A library module with the type `Pad`, of the field `height : float`, and the function
`pad() -> Pad`. -/
def craftModule : ModuleInfo :=
  { name := "craft"
    functions := [{ name := "pad", result := .standard "craft" "Pad" [] }]
    types := [{ name := "Pad", fields := .ofList [("height", { type := .builtin "float" })] }] }

/-- A library module with the constant `pad : Pad`, of the type in `craft`. -/
def probesModule : ModuleInfo :=
  { name := "probes", constants := [{ name := "pad", type := .standard "craft" "Pad" [] }] }

/-- The script `use craft as probes`, `use * from craft`, `const tower = pad().height`. -/
def towerScript : Script :=
  .ofItems
    [.use { module := ⟨"craft", {}⟩, imports := .module (some ⟨"probes", {}⟩), range := {} },
      .use { module := ⟨"craft", {}⟩, imports := .all, range := {} },
      .const (.ofValue "tower" (.ofField (.ofCall "pad" []) "height"))]

/-- With a short name that is the name of the other module. -/
theorem probesModule_does_not_matter :
    probesModule.name ≠ "" ∧
      probesModule.name ∉ (Registry.ofModules ([] ++ [craftModule])).mentions ∧
      probesModule.name ∉ towerScript.modules ∧
      (towerScript.validate (.ofModules [probesModule, craftModule])).report =
        (towerScript.validate (.ofModules [craftModule])).report := by
  have hname : probesModule.name ≠ "" := by decide
  have hmentions : probesModule.name ∉ (Registry.ofModules ([] ++ [craftModule])).mentions := by
    decide
  have hscript : probesModule.name ∉ towerScript.modules := by decide
  exact ⟨hname, hmentions, hscript,
    (unmentioned_module_does_not_matter [] [craftModule] probesModule towerScript hname hmentions
      hscript).1⟩

-- Both conditions are needed: in the first case the script names `probes` itself, and in the second
-- it takes a constant from a module that does.
example :
    let diagnostics (library : List ModuleInfo) (module : String) : Nat :=
      let script : Script :=
        .ofItems
          [.use { module := ⟨module, {}⟩, imports := .all, range := {} },
            .const (.ofValue "deepest" (.ofField (.ofName "probe") "depth"))]
      (script.validate (.ofModules library)).report.diagnostics.length
    let probe : List ConstantInfo := [{ name := "probe", type := .standard "probes" "Probe" [] }]
    let probes : ModuleInfo :=
      { name := "probes", constants := probe
        types :=
          [{ name := "Probe", fields := .ofList [("depth", { type := .builtin "float" })] }] }
    let relay : ModuleInfo := { name := "relay", constants := probe }
    (diagnostics [] "probes" = 3 ∧ diagnostics [probes] "probes" = 0) ∧
      (diagnostics [relay] "relay" = 1 ∧ diagnostics [relay, probes] "relay" = 0) := by
  decide +kernel

end ScriptCheck
