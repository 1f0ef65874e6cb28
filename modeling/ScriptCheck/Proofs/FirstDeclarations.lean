import ScriptCheck.Proofs.Actions

/-!
# The first declaration of a name stays

The actions of a script (`Script.actions`) are what its imports and declarations ask for, in the
order of the phases, and the first pass carries out just these (`Script.declarations_eq_perform`).

Hence the first declaration of a name stays (`first_declaration_stays`): an entry is never changed
or removed, an action that finds its slot taken leaves the table alone and is complained about once,
and a struct whose name is taken does not try to enter a constructor. Names that come with all of a
module are skipped in silence.
-/

namespace ScriptCheck

namespace Declare

variable {registry : Registry}

/-! ## The actions of a script -/

/-- Whether a module has anything of this name. -/
def exports (module : Library.ModuleInfo) (name : String) : Bool :=
  (module.constant? name).isSome || (module.function? name).isSome || (module.type? name).isSome

/-- Imports everything called `name`. -/
def nameActions (module : Library.ModuleInfo) (name : String) (range : Option Range) :
    List Action :=
  [.importConstant module name range, .importFunction module name range,
    .importType module name range]

/-- Imports a name that a script lists. -/
def listedActions (module : Library.ModuleInfo) (name : Ident) : List Action :=
  nameActions module name.name (some name.range) ++
    if exports module name.name then []
    else [.missing .symbol name.name (some module.name) name.range]

/-- What an import asks for. -/
def useActions (registry : Registry) (decl : UseDecl) : List Action :=
  match registry.module? decl.module.name with
  | none => [.missing .module decl.module.name none decl.module.range]
  | some module =>
    match decl.imports with
    | .module shortName => [.nameModule module (shortName.getD ⟨module.name, decl.module.range⟩)]
    | .names names => names.flatMap (listedActions module)
    | .all => (exported module).flatMap fun name => nameActions module name none

/-- What an item asks for in a phase. -/
def Phase.actions (registry : Registry) : Phase → Item → List Action
  | .imports, .use decl => useActions registry decl
  | .structs, .struct decl => [.struct decl]
  | .types, .struct decl => [.fields decl]
  | .types, .typeAlias decl => [.typeAlias decl]
  | .functions, .function decl => [.function decl]
  | .functions, .methods block => .target block.name :: block.functions.map (.method block.name)
  | .functions, .operators block => .target block.name :: block.functions.map (.operator block.name)
  | .constants, .const decl => [.const decl]
  | _, _ => []

/-- Carries out actions one after the other. -/
def perform (actions : List Action) (d : Declarations) : Declarations :=
  after (each Action.run actions) d

theorem perform_append (first rest : List Action) (d : Declarations) :
    perform (first ++ rest) d = perform rest (perform first d) :=
  after_each_append Action.run rest first d

theorem perform_cons (action : Action) (rest : List Action) (d : Declarations) :
    perform (action :: rest) d = perform rest (after action.run d) :=
  rfl

/-- Whatever actions follow, nothing that was entered goes away. -/
theorem keeps_perform : (actions : List Action) → {d : Declarations} →
    Consistent registry d.symbols →
    Consistent registry (perform actions d).symbols ∧
      d.symbols.Keeps (perform actions d).symbols
  | [], d, hd => ⟨hd, .refl _⟩
  | action :: rest, d, hd => by
    have houtcome := outcome_run hd action
    obtain ⟨hconsistent, hkeeps⟩ := keeps_perform rest houtcome.consistent
    exact ⟨hconsistent, houtcome.keeps.trans hkeeps⟩

/-! ## The first pass carries out the actions -/

/-- What is done for each element of a list is done by the actions of all elements. -/
theorem after_each_flatMap {α : Type} {f : α → DeclareM Unit} {actions : α → List Action}
    (h : ∀ x d, Consistent registry d.symbols → after (f x) d = perform (actions x) d) :
    (xs : List α) → (d : Declarations) → Consistent registry d.symbols →
      after (each f xs) d = perform (xs.flatMap actions) d
  | [], _, _ => rfl
  | x :: xs, d, hd => by
    rw [each, after_bind, h x d hd, List.flatMap_cons, perform_append]
    exact after_each_flatMap h xs _ (keeps_perform (actions x) hd).1

section Imports

variable (module : Library.ModuleInfo) (name : String) (range : Option Range) (d : Declarations)

theorem value_importAs {ι : Type} (found : Option ι) (enter : ι → DeclareM Unit) :
    ((importAs found enter).run d).1 = found.isSome := by
  cases found <;> rfl

theorem run_importName :
    (importName module name range).run d =
      (exports module name, perform (nameActions module name range) d) := by
  refine Prod.ext ?_ rfl
  let d₁ := after (Action.importConstant module name range).run d
  let d₂ := after (Action.importFunction module name range).run d₁
  have hconstant : ((importConstant module name range).run d).1 = (module.constant? name).isSome :=
    value_importAs d _ _
  have hfunction : ((importFunction module name range).run d₁).1 = (module.function? name).isSome :=
    value_importAs d₁ _ _
  have htype : ((importType module name range).run d₂).1 = (module.type? name).isSome :=
    value_importAs d₂ _ _
  rw [exports, ← hconstant, ← hfunction, ← htype]
  rfl

end Imports

theorem after_importListed (module : Library.ModuleInfo) (name : Ident) (d : Declarations) :
    after (importListed module name) d = perform (listedActions module name) d := by
  have hrun := run_importName module name.name (some name.range) d
  have hlisted : after (importListed module name) d =
      let found := (importName module name.name (some name.range)).run d
      after (if found.1 then pure ()
        else fail (.undefined .symbol name.name (some module.name)) name.range) found.2 := rfl
  rw [hlisted, hrun, listedActions, perform_append]
  dsimp only
  cases exports module name.name <;> rfl

theorem after_imports (decl : UseDecl) {d : Declarations} (hd : Consistent registry d.symbols) :
    after (imports decl) d = perform (useActions registry decl) d := by
  rw [imports, after_symbols, hd.registry, useActions]
  cases registry.module? decl.module.name with
  | none => rfl
  | some module =>
    cases decl.imports with
    | module shortName => rfl
    | names names =>
      exact after_each_flatMap (fun name d _ => after_importListed module name d) names d hd
    | all =>
      refine after_each_flatMap (fun name d _ => ?_) (exported module) d hd
      rfl

/-- A block looks for its struct and enters its functions. Without a struct these are skipped. -/
theorem after_block_eq_perform {owner : SelfType → Owner} {decl : ImplDecl}
    {action : FunctionDecl → Action}
    (hrun : ∀ f, (action f).run = Action.inBlock decl.name fun self => enterFunction (owner self) f)
    (d : Declarations) :
    after (block owner decl) d = perform (.target decl.name :: decl.functions.map action) d := by
  have hsome {self : SelfType} : (fs : List FunctionDecl) → (d : Declarations) →
      d.symbols.selfOf? decl.name.name = some self →
      after (each (enterFunction (owner self)) fs) d = perform (fs.map action) d := by
    intro fs
    induction fs with
    | nil => exact fun _ _ => rfl
    | cons f rest ih =>
      intro d hself
      -- the struct stays the same while functions are entered
      have hkept := (kept_enterFunction (owner self) f d).sameTypes
      rw [each, after_bind, List.map_cons, perform_cons, hrun, after_inBlock, hself]
      exact ih _ ((hkept.selfOf? _).symm.trans hself)
  have hnone : (fs : List FunctionDecl) → (d : Declarations) →
      d.symbols.selfOf? decl.name.name = none → perform (fs.map action) d = d := by
    intro fs d hself
    induction fs with
    | nil => rfl
    | cons f rest ih => rw [List.map_cons, perform_cons, hrun, after_inBlock, hself, ih]
  rw [perform_cons, Action.run, after_block, after_block]
  dsimp only
  cases hself : d.symbols.selfOf? decl.name.name with
  | some self => exact hsome decl.functions d hself
  | none => exact (hnone decl.functions (after (fail _ _) d) hself).symm

/-- A phase carries out the actions of each item. -/
theorem after_declare (phase : Phase) (item : Item) {d : Declarations}
    (hd : Consistent registry d.symbols) :
    after (phase.declare item) d = perform (phase.actions registry item) d := by
  cases phase with
  | imports =>
    cases item with
    | use decl => exact after_imports decl hd
    | const | function | struct | typeAlias | methods | operators => rfl
  | structs => cases item <;> rfl
  | types => cases item <;> rfl
  | functions =>
    cases item with
    | methods decl | operators decl => exact after_block_eq_perform (fun _ => rfl) d
    | use | const | function | struct | typeAlias => rfl
  | constants => cases item <;> rfl

end Declare

/-- What a script asks for in the first pass. -/
def Script.actions (registry : Registry) (script : Script) : List Declare.Action :=
  Declare.Phase.constants.upTo.flatMap fun phase =>
    script.items.flatMap (phase.actions registry)

/-- The symbols of a script before the first pass. -/
def Script.undeclared (registry : Registry) (script : Script) : Declarations :=
  { symbols := { registry, moduleName := script.name } }

namespace Declare

theorem consistent_undeclared (registry : Registry) (script : Script) :
    Consistent registry (script.undeclared registry).symbols :=
  ⟨rfl, nofun⟩

end Declare

open Declare

/-- The first pass carries out the actions of a script. -/
theorem Script.declarations_eq_perform (registry : Registry) (script : Script) :
    script.declarations registry =
      perform (script.actions registry) (script.undeclared registry) := by
  have hphases : ∀ (phases : List Phase) (d : Declarations), Consistent registry d.symbols →
      phases.foldl (fun d phase => afterPhase script.items phase d) d =
        perform (phases.flatMap fun phase => script.items.flatMap (phase.actions registry)) d := by
    intro phases
    induction phases with
    | nil => exact fun _ _ => rfl
    | cons phase rest ih =>
      intro d hd
      have hphase : afterPhase script.items phase d =
          perform (script.items.flatMap (phase.actions registry)) d :=
        after_each_flatMap (fun item d hd => after_declare phase item hd) script.items d hd
      rw [List.foldl_cons, List.flatMap_cons, perform_append, ← hphase]
      exact ih _ (hphase ▸ (keeps_perform _ hd).1)
  rw [declarations_eq]
  exact hphases Phase.constants.upTo _ (consistent_undeclared registry script)

/-! ## Names of types -/

/-- The name of the type that an item declares. -/
def Item.typeIdent? : Item → Option Ident
  | .struct decl => some decl.name
  | .typeAlias decl => some decl.name
  | .use _ | .const _ | .function _ | .methods _ | .operators _ => none

namespace Declare

/-- The name of the type that an action declares. -/
def Action.typeIdent? : Action → Option Ident
  | .struct decl => some decl.name
  | .typeAlias decl => some decl.name
  | _ => none

theorem typeIdent?_of_request? {action : Action} {s : Symbols} {r : Request} {name : String}
    {definition : Definition} (hr : action.request? s = some r) (hslot : r.slot = .type name)
    (hdefinition : r.definition = some definition) :
    action.typeIdent? = some ⟨name, definition.range⟩ := by
  cases action with
  | struct decl | typeAlias decl =>
    obtain rfl := Option.some.inj hr
    obtain rfl := Slot.type.inj hslot
    obtain rfl := Option.some.inj hdefinition
    rfl
  | importConstant | importFunction | importType =>
    obtain ⟨_, -, rfl⟩ := Option.map_eq_some_iff.1 hr
    cases hdefinition
  | nameModule =>
    obtain rfl := Option.some.inj hr
    cases hdefinition
  | function | const =>
    obtain rfl := Option.some.inj hr
    cases hslot
  | fields | method =>
    simp only [Action.request?] at hr
    split at hr
    · obtain rfl := Option.some.inj hr
      cases hslot
    · cases hr
  | missing | target | operator => cases hr

/-- A type that is declared in the script comes from an action, unless it was there before. -/
theorem exists_typeIdent?_of_stored? {registry : Registry} {name : String}
    {definition : Definition} : (actions : List Action) → {d : Declarations} →
    Consistent registry d.symbols →
    (Slot.type name).stored? (perform actions d).symbols = some (some definition) →
    (Slot.type name).stored? d.symbols = some (some definition) ∨
      ⟨name, definition.range⟩ ∈ actions.filterMap Action.typeIdent?
  | [], _, _, h => .inl h
  | action :: rest, d, hd, h => by
    have houtcome := outcome_run hd action
    have hcons {ident : Ident} (hident : ident ∈ rest.filterMap Action.typeIdent?) :
        ident ∈ (action :: rest).filterMap Action.typeIdent? := by
      obtain ⟨a, ha, hname⟩ := List.mem_filterMap.1 hident
      exact List.mem_filterMap.2 ⟨a, List.mem_cons_of_mem _ ha, hname⟩
    rcases exists_typeIdent?_of_stored? rest houtcome.consistent h with hhere | hrest
    · by_cases hrequest : ∃ r ∈ action.request? d.symbols, r.slot = .type name
      · obtain ⟨r, hr, hslot⟩ := hrequest
        have hgranted := houtcome.granted r hr
        split at hgranted
        · rw [hslot] at hgranted
          left
          rwa [Slot.stored?, hgranted] at hhere
        · right
          rw [hslot, hhere] at hgranted
          refine List.mem_filterMap.2 ⟨action, List.mem_cons_self, ?_⟩
          exact typeIdent?_of_request? hr hslot (Option.some.inj hgranted).symm
      · left
        rwa [houtcome.frame (.type name) fun r hr hslot => hrequest ⟨r, hr, hslot⟩] at hhere
    · exact .inr (hcons hrest)

end Declare

theorem Declare.typeIdent?_of_mem_useActions {registry : Registry} {decl : UseDecl}
    {action : Action} (h : action ∈ useActions registry decl) : action.typeIdent? = none := by
  have hname {module : Library.ModuleInfo} {name : String} {range : Option Range}
      (h : action ∈ nameActions module name range) : action.typeIdent? = none := by
    simp only [nameActions, List.mem_cons, List.not_mem_nil, or_false] at h
    rcases h with rfl | rfl | rfl <;> rfl
  unfold useActions at h
  split at h
  · obtain rfl := List.mem_singleton.1 h
    rfl
  · split at h
    · obtain rfl := List.mem_singleton.1 h
      rfl
    · obtain ⟨name, -, hlisted⟩ := List.mem_flatMap.1 h
      rcases List.mem_append.1 hlisted with hlisted | hmissing
      · exact hname hlisted
      · split at hmissing
        · cases hmissing
        · obtain rfl := List.mem_singleton.1 hmissing
          rfl
    · obtain ⟨name, -, hall⟩ := List.mem_flatMap.1 h
      exact hname hall

/-- The actions of a script declare the types of its items, structs before aliases. -/
theorem Script.typeIdents_actions (registry : Registry) (script : Script) :
    ((script.actions registry).filterMap Action.typeIdent?).Perm
      (script.items.filterMap Item.typeIdent?) := by
  let names (phase : Phase) (x : Item) := (phase.actions registry x).filterMap Action.typeIdent?
  have hnone {phase : Phase} (h : ∀ x, names phase x = []) :
      script.items.flatMap (names phase) = [] := List.flatMap_eq_nil_iff.2 fun x _ => h x
  have himports (x : Item) : names .imports x = [] := by
    cases x with
    | use decl =>
      exact List.filterMap_eq_nil_iff.2 fun _ haction => typeIdent?_of_mem_useActions haction
    | const | function | struct | typeAlias | methods | operators => rfl
  have hfunctions (x : Item) : names .functions x = [] := by
    cases x <;> simp [names, Phase.actions, Action.typeIdent?]
  have hconstants (x : Item) : names .constants x = [] := by
    cases x <;> rfl
  have hactions : (script.actions registry).filterMap Action.typeIdent? =
      script.items.flatMap (names .structs) ++ script.items.flatMap (names .types) := by
    simp only [Script.actions, Phase.upTo, List.flatMap_cons, List.flatMap_nil,
      List.filterMap_append, List.filterMap_flatMap]
    change script.items.flatMap (names .imports) ++ (_ ++ (_ ++ (script.items.flatMap
      (names .functions) ++ (script.items.flatMap (names .constants) ++ [])))) = _
    rw [hnone himports, hnone hfunctions, hnone hconstants]
    simp [names]
  have hitems : script.items.filterMap Item.typeIdent? =
      script.items.flatMap fun x => names .structs x ++ names .types x := by
    rw [List.filterMap_eq_flatMap_toList]
    refine congrArg (script.items.flatMap ·) (funext fun x => ?_)
    cases x <;> rfl
  rw [hactions, hitems]
  exact List.flatMap_append_perm _ _ _

/-! ## Structs and their constructors -/

/-- Whether a type is declared at a place is settled once it is entered. -/
theorem Symbols.Keeps.owns_eq {s t : Symbols} (h : s.Keeps t) {ident : Ident}
    (hname : s.types.contains ident.name = true) : owns t ident = owns s ident := by
  obtain ⟨found, hfound⟩ := Option.isSome_iff_exists.1 hname
  obtain ⟨found', hfound', hdefinition, -⟩ := h.types hfound
  rw [owns, owns, hfound, hfound', Option.bind_some, Option.bind_some, hdefinition]

theorem Declare.owns_iff_stored? {s : Symbols} {ident : Ident} : owns s ident = true ↔
    ∃ definition, (Slot.type ident.name).stored? s = some (some definition) ∧
      definition.range = ident.range := by
  rw [owns, Slot.stored?]
  cases hfound : s.types.get? ident.name with
  | none => simp
  | some found => cases hdefinition : found.definition <;> simp [hdefinition]

/-- A struct has its type, and then the fields and the constructor, just if its name was free. -/
theorem Declare.owns_after_struct (registry : Registry) (script : Script) {earlier : List Action}
    {decl : StructDecl} (hnew : decl.name ∉ earlier.filterMap Action.typeIdent?)
    (mid : List Action) :
    let before := perform earlier (script.undeclared registry)
    owns (perform mid (after (Action.struct decl).run before)).symbols decl.name =
      !before.symbols.types.contains decl.name.name := by
  intro before
  have hundeclared := consistent_undeclared registry script
  have hbefore := (keeps_perform earlier hundeclared).1
  have houtcome := outcome_run hbefore (.struct decl)
  have hmid := (keeps_perform mid houtcome.consistent).2
  cases hcontains : before.symbols.types.contains decl.name.name with
  | true =>
    -- what is there was declared by an action before, and thus at another place
    have hother : owns before.symbols decl.name = false := by
      rw [Bool.eq_false_iff, ne_eq, owns_iff_stored?]
      rintro ⟨definition, hentry, hrange⟩
      rcases exists_typeIdent?_of_stored? earlier hundeclared hentry with hstart | hmem
      · cases hstart
      · rw [hrange] at hmem
        exact hnew hmem
    rw [(houtcome.keeps.trans hmid).owns_eq hcontains, hother]
    rfl
  | false =>
    have hfree : ¬(Slot.type decl.name.name).taken before.symbols = true := by simp [hcontains]
    have hgranted := houtcome.granted _ rfl
    rw [Request.declared, if_neg hfree] at hgranted
    have hhere := owns_iff_stored?.2 ⟨_, hgranted, rfl⟩
    have hentered : (after (Action.struct decl).run before).symbols.types.contains
        decl.name.name = true := by
      rw [← Slot.taken_type, Slot.taken, hgranted]
      rfl
    rw [hmid.owns_eq hentered, hhere]
    rfl

open Declare in
/-- The first pass carries out actions one by one. Each of them leaves alone what was entered before
and makes the entry it requests, unless the slot is taken: then the table stays as it is and there
is one complaint, at the place of the request. A struct tries to enter a constructor just if its
type was entered. -/
theorem first_declaration_stays (registry : Registry) (script : Script)
    (hnames : (script.items.filterMap Item.typeIdent?).Nodup) {earlier later : List Action}
    {action : Action} (hactions : script.actions registry = earlier ++ action :: later) :
    let before := perform earlier (script.undeclared registry)
    let here := after action.run before
    let all := script.declarations registry
    all = perform later here ∧
    before.symbols.Keeps here.symbols ∧ here.symbols.Keeps all.symbols ∧
    (∀ r ∈ action.request? before.symbols,
      if r.slot.taken before.symbols then r.slot.SameTable before.symbols here.symbols
      else r.slot.stored? here.symbols = some r.definition) ∧
    (∃ added, here.diagnostics = before.diagnostics ++ added ∧
      added.filter isCollision =
        (action.request? before.symbols).toList.flatMap fun r => r.collision before.symbols) ∧
    ∀ decl, action = .struct decl → ∀ mid rest, later = mid ++ .fields decl :: rest →
      ((Action.fields decl).request? (perform mid here).symbols).isSome =
        !before.symbols.types.contains decl.name.name := by
  intro before here all
  have hall : all = perform later here := by
    rw [← perform_cons, ← perform_append, ← hactions]
    exact script.declarations_eq_perform registry
  have hbefore := (keeps_perform earlier (consistent_undeclared registry script)).1
  have houtcome := outcome_run hbefore action
  refine ⟨hall, houtcome.keeps, hall ▸ (keeps_perform later houtcome.consistent).2,
    houtcome.granted, houtcome.complaints, ?_⟩
  rintro decl rfl mid rest -
  have hrequest (s : Symbols) : ((Action.fields decl).request? s).isSome = owns s decl.name := by
    rw [Action.request?]
    cases owns s decl.name <;> rfl
  rw [hrequest]
  refine owns_after_struct registry script (fun hmem => ?_) mid
  have hnodup := (script.typeIdents_actions registry).nodup_iff.2 hnames
  rw [hactions, List.filterMap_append, List.nodup_append] at hnodup
  exact hnodup.2.2 _ hmem _ List.mem_cons_self rfl

/-- The struct `Gauge`, declared in the given line. -/
def gaugeIn (line : Nat) : StructDecl :=
  { name := ⟨"Gauge", { start := { line } }⟩, fields := [], range := {} }

/-- The script `fn Gauge() -> Unit = missing`, `struct Gauge ()`, `struct Gauge ()`. -/
def gauges : Script :=
  .ofItems
    [.function
        { FunctionDecl.ofBody "Gauge" [] "Unit" (.ofName "missing") with
          name := ⟨"Gauge", { start := { line := 1 } }⟩ },
      .struct (gaugeIn 2), .struct (gaugeIn 3)]

open Declare in
/-- The second struct is refused and complained about once. It does not try to enter a constructor;
the first one does, before the function. -/
theorem first_declaration_stays_gauges :
    (gauges.items.filterMap Item.typeIdent?).Nodup ∧
      gauges.actions .empty =
        [.struct (gaugeIn 2)] ++ .struct (gaugeIn 3) :: (gauges.actions .empty).drop 2 ∧
      let before := perform [.struct (gaugeIn 2)] (gauges.undeclared .empty)
      let here := after (Action.struct (gaugeIn 3)).run before
      here.symbols.types = before.symbols.types ∧
        (∃ added, here.diagnostics = before.diagnostics ++ added ∧ added.filter isCollision =
          [⟨.error, .duplicate .struct "Gauge", (gaugeIn 3).name.range⟩]) ∧
        ((Action.fields (gaugeIn 3)).request? (perform [.fields (gaugeIn 2)] here).symbols).isSome =
          false := by
  have hnames : (gauges.items.filterMap Item.typeIdent?).Nodup := by decide +kernel
  have hactions : gauges.actions .empty =
      [.struct (gaugeIn 2)] ++ .struct (gaugeIn 3) :: (gauges.actions .empty).drop 2 := rfl
  obtain ⟨-, -, -, hgranted, hcomplaints, hfields⟩ :=
    first_declaration_stays .empty gauges hnames hactions
  exact ⟨hnames, hactions, hgranted _ rfl, hcomplaints, hfields _ rfl [.fields (gaugeIn 2)] _ rfl⟩

end ScriptCheck
