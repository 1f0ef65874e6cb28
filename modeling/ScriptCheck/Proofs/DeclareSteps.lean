import Mathlib.Logic.Relation
import ScriptCheck.Proofs.DeclareFootprints
import ScriptCheck.Proofs.Margins

/-!
# The first pass step by step

Whatever a script declares, the first pass takes only a few kinds of steps: it complains, or it
makes one entry. `Declare.Entry` lists the entries by the phase in which they are made, each with
what is known when it is made, and `Declare.Step` adds the complaints. Every phase runs in such
steps (`Declare.steps_each`), so that what every step keeps holds of the finished declarations
(`Script.declarations_induction`).
-/

namespace ScriptCheck

open Relation

/-- The library has such a module. -/
def Registry.Has (r : Registry) (P : Library.ModuleInfo → Prop) : Prop :=
  ∃ key module, r.module? key = some module ∧ P module

namespace Declare

/-- The phases of the first pass. -/
inductive Phase where
  | imports
  | structs
  | types
  | functions
  | constants
deriving DecidableEq

/-- What a phase declares of an item. -/
def Phase.declare : Phase → Item → DeclareM Unit
  | .imports => importItem
  | .structs => structItem
  | .types => typeItem
  | .functions => functionItem
  | .constants => constItem

/-- One entry that the first pass over the items makes: the symbols before and after it. -/
inductive Entry (xs : List Item) (s : Symbols) : Phase → Symbols → Prop
  | importedConstant (name : String) (info : Library.ConstantInfo)
      (hinfo : s.registry.Has fun m => m.constant? name = some info)
      (hnew : s.constants.get? name = none) :
      Entry xs s .imports
        { s with
          constants := s.constants.insert name
            { ty := info.type.resolve s.registry {}, description := info.description } }
  | importedFunction (name : String) (info : Library.FunctionInfo)
      (hinfo : s.registry.Has fun m => m.function? name = some info)
      (hnew : s.functions.get? name = none) :
      Entry xs s .imports
        { s with
          functions := s.functions.insert name
            { ty := s.registry.functionType info, description := info.description } }
  | importedType (module name : String) (hnew : s.types.get? name = none) :
      Entry xs s .imports { s with types := s.types.insert name { ty := .named ⟨module, name⟩ } }
  | module (name module : String) (hnew : s.modules.get? name = none) :
      Entry xs s .imports { s with modules := s.modules.insert name module }
  | struct (decl : StructDecl) (hmem : .struct decl ∈ xs)
      (hnew : s.types.get? decl.name.name = none) :
      Entry xs s .structs
        { s with
          types := s.types.insert decl.name.name
            { ty := structType s decl.name.name [], definition := s.define decl.name.range
              isStruct := true }
          structs := s.structs.insert decl.name.name {} }
  | fields (decl : StructDecl) (hmem : .struct decl ∈ xs) (howns : owns s decl.name = true) :
      Entry xs s .types (withStruct decl s)
  | typeAlias (decl : AliasDecl) (hmem : .typeAlias decl ∈ xs)
      (hnew : s.types.get? decl.name.name = none) :
      Entry xs s .types
        { s with
          types := s.types.insert decl.name.name
            { ty := decl.type.resolve { symbols := s }
              definition := s.define decl.name.range } }
  | function (decl : FunctionDecl) (hmem : .function decl ∈ xs)
      (hnew : s.functions.get? decl.name.name = none) :
      Entry xs s .functions
        { s with
          functions :=
            s.functions.insert decl.name.name (functionValue { symbols := s } decl false) }
  | method (block : ImplDecl) (hmem : .methods block ∈ xs) (self : SelfType)
      (hself : Symbols.selfOf? s block.name.name = some self) (decl : FunctionDecl)
      (hdecl : decl ∈ block.functions) (hreceiver : hasReceiver decl = true)
      (hnew : ((s.structs.get? self.name).getD {}).methods.get? decl.name.name = none) :
      Entry xs s .functions
        (withInfo s self.name fun info =>
          { info with
            methods := info.methods.insert decl.name.name
              (functionValue { symbols := s, self } decl true) })
  | operator (block : ImplDecl) (hmem : .operators block ∈ xs) (self : SelfType)
      (hself : Symbols.selfOf? s block.name.name = some self) (decl : FunctionDecl)
      (hdecl : decl ∈ block.functions) (op : Operator) (side : Side) (overload : Overload)
      (hclassify : classify { symbols := s, self } self.ty decl = .ok (op, side, overload)) :
      Entry xs s .functions
        (withInfo s self.name fun info => withOverload info op overload side)
  | constant (decl : ConstDecl) (hmem : .const decl ∈ xs)
      (hnew : s.constants.get? decl.name.name = none) :
      Entry xs s .constants
        { s with
          constants := s.constants.insert decl.name.name (constValue decl s) }

/-- The problems that the first pass complains about. An overload with the wrong number of
parameters has indeed another number than its operator takes. -/
def complains : Problem → Bool
  | .duplicate _ _ | .badDeclaration _ => true
  | .badOverload _ _ (.unaryArity found) => found != Arity.unary.parameterCount
  | .badOverload _ _ (.binaryArity found) => found != Arity.binary.parameterCount
  | .badOverload _ _ _ => true
  | .undefined kind _ _ => kind = .module || kind = .symbol || kind = .struct
  | _ => false

theorem complains_of_classify {view : View} {self : Ty} {decl : FunctionDecl}
    {fault : OverloadFault} (h : classify view self decl = .error fault) (name struct : String) :
    complains (.badOverload name struct fault) = true := by
  simp only [classify, classifyWith, pure_bind] at h
  split at h
  · cases h
    rfl
  · split at h <;> cases h
    rfl
  · rename_i hparams
    cases h
    have hcount : (signature view decl false).params.length ≠ 1 := by
      intro hlength
      obtain ⟨operand, hone⟩ := List.length_eq_one_iff.1 hlength
      exact hparams operand hone
    simpa [complains, Arity.parameterCount] using hcount
  · split at h
    · cases h
    · split at h <;> cases h
      rfl
  · rename_i hparams
    cases h
    have hcount : (signature view decl false).params.length ≠ 2 := by
      intro hlength
      obtain ⟨left, right, htwo⟩ := List.length_eq_two.1 hlength
      exact hparams left right htwo
    simpa [complains, Arity.parameterCount] using hcount

/-- The places of the names directly in the items. -/
def nameRanges (xs : List Item) : List Range := (xs.flatMap Item.idents).map Ident.range

theorem mem_nameRanges {xs : List Item} {x : Item} (hx : x ∈ xs) {name : Ident}
    (hname : name ∈ x.idents) : name.range ∈ nameRanges xs :=
  List.mem_map_of_mem (List.mem_flatMap.2 ⟨x, hx, hname⟩)

/-- One step of the first pass: a complaint at a name of an item, or an entry. -/
inductive Step (xs : List Item) (phase : Phase) (d : Declarations) : Declarations → Prop
  | complaint (problem : Problem) (range : Range) (h : complains problem = true)
      (hrange : range ∈ nameRanges xs) :
      Step xs phase d { d with diagnostics := d.diagnostics ++ [⟨.error, problem, range⟩] }
  | entry {s : Symbols} (h : Entry xs d.symbols phase s) : Step xs phase d { d with symbols := s }

/-- Functions, methods and overloads change no types. -/
theorem types_after_enterFunction (owner : Owner) (decl : FunctionDecl) (d : Declarations) :
    (after (enterFunction owner decl) d).symbols.types = d.symbols.types := by
  rw [enterFunction, after_makeEntry]
  split
  · rename_i s hok
    unfold withFunction at hok
    dsimp only at hok
    split at hok
    · split at hok <;> cases hok
      rfl
    · split at hok
      · split at hok <;> cases hok
        rfl
      · cases hok
    · split at hok <;> cases hok
      rfl
  · rfl

/-! ## Runs in steps -/

variable {xs : List Item} {phase : Phase} {α β : Type} {d : Declarations}

/-- The computation runs in steps of a phase. -/
def Steps (xs : List Item) (phase : Phase) (m : DeclareM α) (d : Declarations) : Prop :=
  ReflTransGen (Step xs phase) d (m.run d).2

namespace Steps

theorem pure (a : α) : Steps xs phase (pure a) d := .refl

theorem bind {m : DeclareM α} {k : α → DeclareM β} (hm : Steps xs phase m d)
    (hk : Steps xs phase (k (m.run d).1) (m.run d).2) : Steps xs phase (m >>= k) d :=
  hm.trans hk

theorem symbols {k : Symbols → DeclareM α} (h : Steps xs phase (k d.symbols) d) :
    Steps xs phase (symbols >>= k) d :=
  h

theorem fail {problem : Problem} {range : Range} (hrange : range ∈ nameRanges xs)
    (h : complains problem = true) : Steps xs phase (fail problem range) d :=
  .single (.complaint problem range h hrange)

theorem update {change : Symbols → Symbols} (h : Entry xs d.symbols phase (change d.symbols)) :
    Steps xs phase (update change) d :=
  .single (.entry h)

/-- The library stays as it is. -/
theorem registry {m : DeclareM α} (h : Steps xs phase m d) :
    (m.run d).2.symbols.registry = d.symbols.registry := by
  unfold Steps at h
  generalize (m.run d).2 = d' at h
  induction h with
  | refl => rfl
  | tail _ hstep ih =>
    rw [← ih]
    cases hstep with
    | complaint => rfl
    | entry hentry => cases hentry <;> rfl

/-- What runs in steps item by item does so for a list; `P` holds between the items. -/
theorem eachOn {P : Declarations → Prop} {f : α → DeclareM Unit} :
    {as : List α} → {d : Declarations} → P d →
    (∀ a ∈ as, ∀ d, P d → Steps xs phase (f a) d ∧ P (after (f a) d)) →
    Steps xs phase (each f as) d
  | [], _, _, _ => .pure ()
  | _ :: _, _, hd, h => by
    obtain ⟨ha, hrest⟩ := List.forall_mem_cons.1 h
    obtain ⟨hsteps, hd'⟩ := ha _ hd
    exact hsteps.bind (eachOn hd' hrest)

theorem each {f : α → DeclareM Unit} {as : List α} (h : ∀ a ∈ as, ∀ d, Steps xs phase (f a) d) :
    Steps xs phase (each f as) d :=
  eachOn (P := fun _ => True) trivial fun a ha d _ => ⟨h a ha d, trivial⟩

/-! ## Entries -/

section Entries

variable {range : Option Range} (hrange : ∀ r ∈ range, r ∈ nameRanges xs)

include hrange

/-- An entry is made in one step, or complained about. -/
theorem makeEntry {entry : Symbols → Except Problem Symbols}
    (herror : ∀ problem, entry d.symbols = .error problem → complains problem = true)
    (hok : ∀ s, entry d.symbols = .ok s → Entry xs d.symbols phase s) :
    Steps xs phase (makeEntry range entry) d := by
  refine symbols ?_
  split
  · rename_i s hs
    exact update (hok s hs)
  · rename_i problem hproblem
    cases range with
    | some range => exact fail (hrange range rfl) (herror problem hproblem)
    | none => exact pure ()

/-- A name is entered in one step, or complained about. -/
theorem enterNew {kind : SymbolKind} {name : String} {taken : Symbols → Bool}
    {add : Symbols → Symbols}
    (h : taken d.symbols = false → Entry xs d.symbols phase (add d.symbols)) :
    Steps xs phase (enterNew kind name range taken add) d := by
  refine makeEntry hrange (fun problem herror => ?_) fun s hok => ?_
  · split at herror <;> cases herror
    rfl
  · split at hok <;> cases hok
    rename_i hfree
    exact h (Bool.eq_false_of_not_eq_true hfree)

/-! ## Imports -/

omit hrange in
theorem importAs {ι : Type} {found : Option ι} {enter : ι → DeclareM Unit}
    (h : ∀ info ∈ found, Steps xs phase (enter info) d) :
    Steps xs phase (importAs found enter) d := by
  cases found with
  | none => exact pure false
  | some info => exact (h info rfl).bind (pure true)

variable {key : String} {module : Library.ModuleInfo}
  (hmodule : d.symbols.registry.module? key = some module)

include hmodule

theorem importConstant (name : String) :
    Steps xs .imports (importConstant module name range) d :=
  importAs fun info hinfo => enterNew hrange fun hfree =>
    .importedConstant name info ⟨key, module, hmodule, hinfo⟩ (Table.get?_of_free hfree)

theorem importFunction (name : String) :
    Steps xs .imports (importFunction module name range) d :=
  importAs fun info hinfo => enterNew hrange fun hfree =>
    .importedFunction name info ⟨key, module, hmodule, hinfo⟩ (Table.get?_of_free hfree)

omit hmodule in
theorem importType (module : Library.ModuleInfo) (name : String) :
    Steps xs .imports (importType module name range) d :=
  importAs fun _ _ => enterNew hrange fun hfree =>
    .importedType module.name name (Table.get?_of_free hfree)

theorem importName (name : String) : Steps xs .imports (importName module name range) d := by
  have hconstant : Steps xs .imports (Declare.importConstant module name range) d :=
    importConstant hrange hmodule name
  exact hconstant.bind ((importFunction hrange (hconstant.registry ▸ hmodule) name).bind
    ((importType hrange module name).bind (pure _)))

end Entries

theorem imports {decl : UseDecl} (hmem : .use decl ∈ xs) :
    Steps xs .imports (imports decl) d := by
  have hplace : decl.module.range ∈ nameRanges xs := mem_nameRanges hmem List.mem_cons_self
  have hplaces : ∀ name ∈ decl.imports.idents, name.range ∈ nameRanges xs := fun _ hname =>
    mem_nameRanges hmem (List.mem_cons_of_mem _ hname)
  refine symbols ?_
  split
  · exact fail hplace rfl
  · rename_i module hmodule
    -- the module is still there when the next name is imported
    have hnames {α : Type} {f : α → DeclareM Unit} {as : List α}
        (hf : ∀ a ∈ as, ∀ d, d.symbols.registry.module? decl.module.name = some module →
          Steps xs .imports (f a) d) : Steps xs .imports (Declare.each f as) d :=
      eachOn (P := fun d => d.symbols.registry.module? decl.module.name = some module) hmodule
        fun a ha d hd => ⟨hf a ha d hd, (hf a ha d hd).registry ▸ hd⟩
    split
    · rename_i shortName himports
      rw [himports] at hplaces
      refine enterNew (fun r hr => ?_) fun hfree => .module _ module.name (Table.get?_of_free hfree)
      obtain rfl := Option.some.inj hr
      cases shortName with
      | none => exact hplace
      | some name => exact hplaces name List.mem_cons_self
    · rename_i names himports
      rw [himports] at hplaces
      refine hnames fun name hname d hd => ?_
      have hlisted := hplaces name hname
      refine (importName (by simpa using hlisted) hd _).bind ?_
      split
      · exact pure ()
      · exact fail hlisted rfl
    · exact hnames fun name _ d hd => (importName (by simp) hd _).bind (pure ())

/-! ## Declarations -/

/-- The place of a name that stands in an item. -/
theorem mem_some_nameRanges {x : Item} (hx : x ∈ xs) {name : Ident} (hname : name ∈ x.idents) :
    ∀ r ∈ some name.range, r ∈ nameRanges xs :=
  fun _ hr => Option.some.inj hr ▸ mem_nameRanges hx hname

theorem register {decl : StructDecl} (hmem : .struct decl ∈ xs) :
    Steps xs .structs (register decl) d :=
  enterNew (mem_some_nameRanges hmem List.mem_cons_self) fun hfree =>
    .struct decl hmem (Table.get?_of_free hfree)

theorem complaints : (added : List Diagnostic) →
    (∀ x ∈ added, x.severity = .error ∧ complains x.problem = true ∧ x.range ∈ nameRanges xs) →
    ∀ {d : Declarations}, ReflTransGen (Step xs phase) d
      { d with diagnostics := d.diagnostics ++ added }
  | [], _, d => by rw [List.append_nil]
  | ⟨severity, problem, range⟩ :: rest, h, d => by
    obtain ⟨⟨rfl, hproblem, hrange⟩, hrest⟩ := List.forall_mem_cons.1 h
    rw [List.append_cons]
    exact .head (.complaint problem range hproblem hrange) (complaints rest hrest)

theorem mem_repeatedFields {name : Ident} : {seen : List String} → (fields : List FieldDecl) →
    name ∈ repeatedFields seen fields → name ∈ fields.map FieldDecl.name
  | _, [], h => nomatch h
  | seen, f :: rest, h => by
    rw [repeatedFields] at h
    rw [List.map_cons, List.mem_cons]
    split at h
    · obtain rfl | h := List.mem_cons.1 h
      · exact .inl rfl
      · exact .inr (mem_repeatedFields rest h)
    · exact .inr (mem_repeatedFields rest h)

theorem complains_structComplaints {decl : StructDecl} (hmem : .struct decl ∈ xs) (s : Symbols) :
    ∀ x ∈ structComplaints decl s,
      x.severity = .error ∧ complains x.problem = true ∧ x.range ∈ nameRanges xs := by
  intro x hx
  rcases List.mem_append.1 hx with hx | hx
  · obtain ⟨name, hname, rfl⟩ := List.mem_map.1 hx
    exact ⟨rfl, rfl, mem_nameRanges hmem (List.mem_cons_of_mem _ (mem_repeatedFields _ hname))⟩
  · split at hx
    · obtain rfl := List.mem_singleton.1 hx
      exact ⟨rfl, rfl, mem_nameRanges hmem List.mem_cons_self⟩
    · cases hx

theorem structFields {decl : StructDecl} (hmem : .struct decl ∈ xs) :
    Steps xs .types (structFields decl) d := by
  change ReflTransGen _ d (after (Declare.structFields decl) d)
  rw [after_structFields]
  split
  · rename_i howns
    exact .head (.entry (.fields decl hmem howns))
      (complaints _ (complains_structComplaints hmem d.symbols))
  · rw [List.append_nil]

theorem typeAlias {decl : AliasDecl} (hmem : .typeAlias decl ∈ xs) :
    Steps xs .types (typeAlias decl) d :=
  enterNew (mem_some_nameRanges hmem List.mem_cons_self) fun hfree =>
    .typeAlias decl hmem (Table.get?_of_free hfree)

theorem function {decl : FunctionDecl} (hmem : .function decl ∈ xs) :
    Steps xs .functions (enterFunction .module decl) d :=
  enterNew (mem_some_nameRanges hmem List.mem_cons_self) fun hfree =>
    .function decl hmem (Table.get?_of_free hfree)

theorem const {decl : ConstDecl} (hmem : .const decl ∈ xs) :
    Steps xs .constants (const decl) d :=
  enterNew (mem_some_nameRanges hmem List.mem_cons_self) fun hfree =>
    .constant decl hmem (Table.get?_of_free hfree)

/-! ## Blocks -/

theorem mem_idents_block {block : ImplDecl} {decl : FunctionDecl} (h : decl ∈ block.functions) :
    decl.name ∈ block.name :: block.functions.flatMap FunctionDecl.idents :=
  List.mem_cons_of_mem _ (List.mem_flatMap.2 ⟨decl, h, List.mem_cons_self⟩)

/-- A block finds its struct as it is when the block begins. -/
theorem block {owner : SelfType → Owner} {decl : ImplDecl} (hname : decl.name.range ∈ nameRanges xs)
    (h : ∀ self, ∀ f ∈ decl.functions, ∀ d,
      d.symbols.selfOf? decl.name.name = some self →
      Steps xs phase (enterFunction (owner self) f) d) :
    Steps xs phase (block owner decl) d := by
  refine symbols ?_
  split
  · rename_i self hself
    refine eachOn (P := fun d => d.symbols.selfOf? decl.name.name = some self) hself
      fun f hf d hd => ⟨h self f hf d hd, ?_⟩
    rwa [Symbols.selfOf?, types_after_enterFunction]
  · exact fail hname rfl

theorem methods {block : ImplDecl} (hmem : .methods block ∈ xs) :
    Steps xs .functions (Declare.block .methods block) d := by
  refine Steps.block (mem_nameRanges hmem List.mem_cons_self) fun self decl hdecl d hself => ?_
  have hrange := mem_some_nameRanges hmem (mem_idents_block hdecl)
  cases hreceiver : hasReceiver decl with
  | true =>
    rw [enterFunction_method self hreceiver]
    exact enterNew hrange fun hfree =>
      .method block hmem _ hself decl hdecl hreceiver (Table.get?_of_free hfree)
  | false =>
    refine makeEntry hrange (fun problem herror => ?_) fun s hok => ?_
    · simp only [withFunction, hreceiver] at herror
      cases herror
      rfl
    · simp [withFunction, hreceiver] at hok

theorem operators {block : ImplDecl} (hmem : .operators block ∈ xs) :
    Steps xs .functions (Declare.block .operators block) d := by
  refine Steps.block (mem_nameRanges hmem List.mem_cons_self) fun self decl hdecl d hself => ?_
  refine makeEntry (mem_some_nameRanges hmem (mem_idents_block hdecl)) (fun problem herror => ?_)
    fun s hok => ?_
  · simp only [withFunction] at herror
    split at herror <;> cases herror
    rename_i fault hclassify
    exact complains_of_classify hclassify _ _
  · simp only [withFunction] at hok
    split at hok <;> cases hok
    rename_i op side overload hclassify
    exact .operator block hmem _ hself decl hdecl op side overload hclassify

/-! ## Items -/

theorem declare (phase : Phase) {x : Item} (hmem : x ∈ xs) :
    Steps xs phase (phase.declare x) d := by
  cases phase with
  | imports =>
    cases x with
    | use decl => exact imports hmem
    | const | function | struct | typeAlias | methods | operators => exact pure ()
  | structs =>
    cases x with
    | struct decl => exact register hmem
    | use | const | function | typeAlias | methods | operators => exact pure ()
  | types =>
    cases x with
    | struct decl => exact structFields hmem
    | typeAlias decl => exact typeAlias hmem
    | use | const | function | methods | operators => exact pure ()
  | functions =>
    cases x with
    | function decl => exact function hmem
    | methods decl => exact methods hmem
    | operators decl => exact operators hmem
    | use | const | struct | typeAlias => exact pure ()
  | constants =>
    cases x with
    | const decl => exact const hmem
    | use | function | struct | typeAlias | methods | operators => exact pure ()

end Steps

/-- The declarations after a phase over all items. -/
def afterPhase (xs : List Item) (phase : Phase) (d : Declarations) : Declarations :=
  after (each phase.declare xs) d

theorem steps_each (xs : List Item) (phase : Phase) (d : Declarations) :
    ReflTransGen (Step xs phase) d (afterPhase xs phase d) :=
  Steps.each fun _ hx _ => Steps.declare phase hx

/-- What every step of a phase keeps holds after the phase. -/
theorem afterPhase_induction {I : Declarations → Prop}
    (hstep : ∀ {d d'}, Step xs phase d d' → I d → I d') (hd : I d) :
    I (afterPhase xs phase d) := by
  have hsteps : ∀ d', ReflTransGen (Step xs phase) d d' → I d' := by
    intro d' h
    induction h with
    | refl => exact hd
    | tail _ hlast ih => exact hstep hlast ih
  exact hsteps _ (steps_each xs phase d)

/-- What every entry of a phase keeps holds of the symbols after the phase. -/
theorem symbols_induction {I : Symbols → Prop}
    (hentry : ∀ {s s'}, Entry xs s phase s' → I s → I s') (hd : I d.symbols) :
    I (afterPhase xs phase d).symbols := by
  refine afterPhase_induction (I := fun d => I d.symbols) (fun hstep hd => ?_) hd
  cases hstep with
  | complaint => exact hd
  | entry h => exact hentry h hd

/-- A type of the library is no struct of the script. -/
theorem registered_afterPhase_imports (xs : List Item) (hd : d.symbols.Registered) :
    (afterPhase xs .imports d).symbols.Registered := by
  refine symbols_induction (I := Symbols.Registered) (fun hentry hd => ?_) hd
  cases hentry with
  | importedConstant | importedFunction | module => exact hd
  | importedType _ name => exact hd.enterType name rfl

/-! ## Overloads -/

theorem all_addOverload {P : Overload → Prop} {table : Table Operator (List Overload)}
    (htable : table.All fun _ overloads => ∀ o ∈ overloads, P o) (op : Operator)
    {overload : Overload} (h : P overload) :
    (addOverload table op overload).All fun _ overloads => ∀ o ∈ overloads, P o := by
  refine htable.insert fun o ho => ?_
  rcases List.mem_append.1 ho with ho | ho
  · exact htable.getD (by simp) op o ho
  · obtain rfl := List.mem_singleton.1 ho
    exact h

/-- The parameters of an accepted function, the side of its struct and the type of the other operand
that it is entered with. -/
inductive Written : List (Param Ty) → Side → Ty → Prop
  | unary (operand : Param Ty) : Written [operand] .prefixSide Ty.unit
  | left (struct other : Param Ty) : Written [struct, other] .suffixSide other.ty
  | right (other struct : Param Ty) : Written [other, struct] .prefixSide other.ty

/-- What an accepted function is entered with. -/
theorem classify_ok {v : View} {self : Ty} {decl : FunctionDecl} {op : Operator} {side : Side}
    {overload : Overload} (h : classify v self decl = .ok (op, side, overload)) :
    (overload? decl.name.name).map Prod.fst = some op ∧
      Written (signature v decl false).params side overload.other ∧
      overload.result = (signature v decl false).result ∧
      overload.definition = some (v.symbols.define decl.name.range) := by
  simp only [classify, classifyWith, pure_bind] at h
  split at h
  · cases h
  · rename_i hname hparams
    split at h
    · cases h
      exact ⟨by rw [hname]; rfl, hparams ▸ .unary _, rfl, rfl⟩
    · cases h
  · cases h
  · rename_i hname hparams
    split at h
    · cases h
      exact ⟨by rw [hname]; rfl, hparams ▸ .left _ _, rfl, rfl⟩
    · split at h
      · cases h
        exact ⟨by rw [hname]; rfl, hparams ▸ .right _ _, rfl, rfl⟩
      · cases h
  · cases h

/-- An overload has the types of the parameters and the result of its declaration, or `Unit`. -/
theorem types_of_classify {P : Ty → Prop} {v : View} {self : Ty} {decl : FunctionDecl}
    {op : Operator} {side : Side} {overload : Overload} (hunit : P Ty.unit)
    (hparam : ∀ p ∈ (signature v decl false).params, P p.ty)
    (hresult : P (signature v decl false).result)
    (h : classify v self decl = .ok (op, side, overload)) :
    P overload.other ∧ P overload.result := by
  obtain ⟨-, hwritten, heq, -⟩ := classify_ok h
  refine ⟨?_, heq ▸ hresult⟩
  generalize (signature v decl false).params = params at hparam hwritten
  generalize overload.other = other at hwritten
  cases hwritten with
  | unary => exact hunit
  | left | right => exact hparam _ (by simp)

/-! ## The whole first pass -/

theorem after_items (xs : List Item) (d : Declarations) :
    after (items xs) d =
      afterPhase xs .constants (afterPhase xs .functions (afterPhase xs .types
        (afterPhase xs .structs (afterPhase xs .imports d)))) :=
  rfl

end Declare

/-- The phases up to a phase. -/
def Declare.Phase.upTo : Phase → List Phase
  | .imports => [.imports]
  | .structs => [.imports, .structs]
  | .types => [.imports, .structs, .types]
  | .functions => [.imports, .structs, .types, .functions]
  | .constants => [.imports, .structs, .types, .functions, .constants]

/-- The declarations of a script after a phase of the first pass. -/
def Script.declaredUpTo (registry : Registry) (script : Script) (phase : Declare.Phase) :
    Declarations :=
  phase.upTo.foldl (fun d phase => Declare.afterPhase script.items phase d)
    ⟨{ registry, moduleName := script.name }, []⟩

theorem Script.declarations_eq (registry : Registry) (script : Script) :
    script.declarations registry = script.declaredUpTo registry .constants :=
  rfl

/-- What holds of a script without items and is kept by every step of the first pass holds of the
declarations of a script. -/
theorem Script.declarations_induction {script : Script} {registry : Registry}
    {I : Declarations → Prop} (hstart : I ⟨{ registry, moduleName := script.name }, []⟩)
    (hstep : ∀ {phase d d'}, Declare.Step script.items phase d d' → I d → I d') :
    I (script.declarations registry) := by
  change I (Declare.after (Declare.items script.items) _)
  rw [Declare.after_items]
  iterate 5 apply Declare.afterPhase_induction hstep
  exact hstart

/-- What every entry keeps holds of the symbols of a script. -/
theorem Script.symbols_induction {script : Script} {registry : Registry} {I : Symbols → Prop}
    (hstart : I { registry, moduleName := script.name })
    (hentry : ∀ {phase s s'}, Declare.Entry script.items s phase s' → I s → I s') :
    I (script.declarations registry).symbols := by
  change I (Declare.after (Declare.items script.items) _).symbols
  rw [Declare.after_items]
  iterate 5 apply Declare.symbols_induction hentry
  exact hstart

end ScriptCheck
