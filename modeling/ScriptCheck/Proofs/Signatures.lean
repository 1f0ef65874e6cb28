import ScriptCheck.Proofs.KnownDeclarations
import ScriptCheck.Proofs.Openings

/-!
# Callers and bodies see the same signature

The first pass enters a function under a signature which callers are checked against, and the second
pass checks the body of the function. Between the two, functions and constants are entered, but no
types. So annotations stand for the same types in both passes, and the body is checked under the
signature that was entered (`entered_signature_upheld`).

A `Site` is a function declaration with its place in the script. It may be a function of its own, a
method or an operator overload.
-/

namespace ScriptCheck

open Check

/-! ## Places of functions -/

namespace Item

/-- What the functions of an item are. -/
def role : Item → Role
  | .methods _ => .method
  | .operators _ => .operator
  | .use _ | .const _ | .function _ | .struct _ | .typeAlias _ => .function

/-- What is seen from the functions of an item. -/
def view (s : Symbols) : Item → View
  | .methods block | .operators block => block.view s
  | .use _ | .const _ | .function _ | .struct _ | .typeAlias _ => { symbols := s }

/-- What the functions of an item are declared for. A block may be without a struct. -/
def owner? (s : Symbols) : Item → Option Declare.Owner
  | .methods block => (s.selfOf? block.name.name).map .methods
  | .operators block => (s.selfOf? block.name.name).map .operators
  | .use _ | .const _ | .function _ | .struct _ | .typeAlias _ => some .module

end Item

/-- A function declaration of a script, with the items around its own and the functions around it
there. -/
structure Site (script : Script) where
  earlier : List Item
  item : Item
  later : List Item
  front : List FunctionDecl
  decl : FunctionDecl
  back : List FunctionDecl
  items_eq : script.items = earlier ++ item :: later
  functions_eq : item.functions = front ++ decl :: back

/-! ## What is entered is kept -/

/-- The overloads of a struct on one side. -/
def StructInfo.overloads (info : StructInfo) : Declare.Side → Table Operator (List Overload)
  | .prefixSide => info.prefixOperators
  | .suffixSide => info.suffixOperators

/-- The methods and overloads of a struct are still there. -/
structure StructInfo.Kept (info info' : StructInfo) : Prop where
  methods : ∀ {name value}, info.methods.get? name = some value →
    info'.methods.get? name = some value
  overloads : ∀ {side op overload}, overload ∈ ((info.overloads side).get? op).getD [] →
    overload ∈ ((info'.overloads side).get? op).getD []

/-- The types are the same, and all functions, methods and overloads are still there. -/
structure Symbols.Kept (s t : Symbols) : Prop where
  sameTypes : s.SameTypes t
  moduleName : s.moduleName = t.moduleName
  functions : ∀ {name value}, s.functions.get? name = some value →
    t.functions.get? name = some value
  structs : ∀ {name info}, s.structs.get? name = some info →
    ∃ info', t.structs.get? name = some info' ∧ info.Kept info'

theorem StructInfo.Kept.refl (info : StructInfo) : info.Kept info := ⟨fun h => h, fun h => h⟩

theorem Symbols.Kept.refl (s : Symbols) : s.Kept s :=
  ⟨⟨rfl, rfl, rfl⟩, rfl, fun h => h, fun {_ info} h => ⟨info, h, .refl info⟩⟩

theorem Symbols.Kept.trans {s t u : Symbols} (h : s.Kept t) (h' : t.Kept u) : s.Kept u where
  sameTypes := ⟨h.sameTypes.types.trans h'.sameTypes.types,
    h.sameTypes.modules.trans h'.sameTypes.modules,
    h.sameTypes.registry.trans h'.sameTypes.registry⟩
  moduleName := h.moduleName.trans h'.moduleName
  functions hs := h'.functions (h.functions hs)
  structs hs := by
    obtain ⟨info₁, ht, hinfo₁⟩ := h.structs hs
    obtain ⟨info₂, hu, hinfo₂⟩ := h'.structs ht
    exact ⟨info₂, hu, fun h => hinfo₂.methods (hinfo₁.methods h),
      fun h => hinfo₂.overloads (hinfo₁.overloads h)⟩

/-! ## Entries of the first pass -/

namespace Declare

theorem kept_withInfo {s : Symbols} {name : String} {change : StructInfo → StructInfo}
    (h : ((s.structs.get? name).getD {}).Kept (change ((s.structs.get? name).getD {}))) :
    s.Kept (withInfo s name change) := by
  refine ⟨⟨rfl, rfl, rfl⟩, rfl, fun h => h, fun {struct info} hinfo => ?_⟩
  rw [withInfo, Table.get?_insert]
  split
  · rename_i heq
    rw [heq] at hinfo
    rw [hinfo] at h ⊢
    exact ⟨_, rfl, h⟩
  · exact ⟨info, hinfo, .refl info⟩

theorem mem_addOverload {table : Table Operator (List Overload)} {op other : Operator}
    {overload new : Overload} (h : overload ∈ (table.get? other).getD []) :
    overload ∈ ((addOverload table op new).get? other).getD [] := by
  rw [addOverload, Table.get?_insert]
  split
  · rename_i heq
    exact List.mem_append_left _ (heq ▸ h)
  · exact h

theorem mem_withOverload (info : StructInfo) (op : Operator) (overload : Overload) (side : Side) :
    overload ∈ (((withOverload info op overload side).overloads side).get? op).getD [] := by
  cases side <;>
    simp [withOverload, StructInfo.overloads, addOverload, Table.get?_insert_self]

theorem kept_withOverload (info : StructInfo) (op : Operator) (overload : Overload) (side : Side) :
    info.Kept (withOverload info op overload side) := by
  refine ⟨?_, fun {side' _ _} h => ?_⟩
  · cases side <;> exact fun h => h
  · cases side <;> cases side' <;> first | exact h | exact mem_addOverload h

theorem kept_withFunction {owner : Owner} {decl : FunctionDecl} {s s' : Symbols}
    (h : withFunction owner decl s = .ok s') : s.Kept s' := by
  cases owner with
  | module =>
    simp only [withFunction] at h
    split at h
    · cases h
    · rename_i hnew
      obtain rfl := Except.ok.inj h
      have hnone : s.functions.get? decl.name.name = none := by simpa [Table.contains] using hnew
      exact { Symbols.Kept.refl s with
        sameTypes := ⟨rfl, rfl, rfl⟩, functions := Table.get?_insert_of_new hnone }
  | methods self =>
    simp only [withFunction] at h
    split at h
    · split at h
      · cases h
      · rename_i hnew
        obtain rfl := Except.ok.inj h
        have hnone : ((s.structs.get? self.name).getD {}).methods.get? decl.name.name = none := by
          simpa [Table.contains] using hnew
        exact kept_withInfo ⟨Table.get?_insert_of_new hnone, fun h => h⟩
    · cases h
  | operators self =>
    simp only [withFunction] at h
    split at h
    · obtain rfl := Except.ok.inj h
      exact kept_withInfo (kept_withOverload _ _ _ _)
    · cases h

theorem kept_enterFunction (owner : Owner) (decl : FunctionDecl) (d : Declarations) :
    d.symbols.Kept (after (enterFunction owner decl) d).symbols := by
  rw [enterFunction, after_makeEntry]
  split
  · rename_i hentry
    exact kept_withFunction hentry
  · exact .refl _

theorem kept_each {α : Type} {f : α → DeclareM Unit}
    (h : ∀ a (d : Declarations), d.symbols.Kept (after (f a) d).symbols) :
    (as : List α) → (d : Declarations) → d.symbols.Kept (after (each f as) d).symbols
  | [], _ => .refl _
  | a :: as, d => (h a d).trans (kept_each h as (after (f a) d))

/-- What `Self` stands for depends on the types only. -/
theorem self_view_congr {s t : Symbols} (h : s.SameTypes t) (item : Item) :
    (item.view s).self = (item.view t).self := by
  cases item with
  | methods block | operators block => exact h.selfOf? block.name.name
  | use | const | function | struct | typeAlias => rfl

/-- What functions are declared for depends on the types only. -/
theorem owner?_congr {s t : Symbols} (h : s.SameTypes t) (item : Item) :
    item.owner? s = item.owner? t := by
  cases item with
  | methods block | operators block => rw [Item.owner?, Item.owner?, h.selfOf?]
  | use | const | function | struct | typeAlias => rfl

/-- The functions of an item are entered one by one, unless its struct is missing. -/
theorem after_functionItem {item : Item} {owner : Owner} {d : Declarations}
    (h : item.owner? d.symbols = some owner) :
    after (functionItem item) d = after (each (enterFunction owner) item.functions) d := by
  cases item with
  | use | const | struct | typeAlias => rfl
  | function decl =>
    obtain rfl := Option.some.inj h
    rfl
  | methods block | operators block =>
    obtain ⟨self, hself, rfl⟩ := Option.map_eq_some_iff.1 h
    refine (after_block _ block d).trans ?_
    rw [hself]
    rfl

theorem kept_functionItem (item : Item) (d : Declarations) :
    d.symbols.Kept (after (functionItem item) d).symbols := by
  cases howner : item.owner? d.symbols with
  | some owner =>
    rw [after_functionItem howner]
    exact kept_each (kept_enterFunction owner) _ d
  | none =>
    cases item with
    | use | const | function | struct | typeAlias => cases howner
    | methods block | operators block =>
      have hself := Option.map_eq_none_iff.1 howner
      refine (congrArg (fun d' => d.symbols.Kept d'.symbols) (after_block _ block d)).mpr ?_
      rw [hself]
      exact .refl _

/-- Constants leave everything else alone. -/
theorem kept_constants (xs : List Item) (d : Declarations) :
    d.symbols.Kept (afterPhase xs .constants d).symbols := by
  refine symbols_induction (I := d.symbols.Kept) (fun hentry h => ?_) (.refl _)
  cases hentry with
  | constant => exact h.trans { Symbols.Kept.refl _ with sameTypes := ⟨rfl, rfl, rfl⟩ }

/-! ## Signatures in the symbols -/

/-- The type of the other operand, next to that of the struct, that an overload with the given
signature is entered with. It is `Unit` for a unary overload. -/
def Side.other? (sig : Signature Ty) : Side → Option Ty
  | .suffixSide => (sig.params[1]?).map Param.ty
  | .prefixSide => if sig.params.length = 1 then some Ty.unit else (sig.params[0]?).map Param.ty

theorem Written.other? {sig : Signature Ty} {side : Side} {other : Ty}
    (h : Written sig.params side other) : side.other? sig = some other := by
  unfold Side.other?
  generalize sig.params = params at h
  cases h <;> rfl

end Declare

/-- The symbols hold a signature for a function of an item, at the place of its declaration. Of the
parameters of an overload they hold the type of the operand that need not be the struct. -/
inductive Stores (s : Symbols) (decl : FunctionDecl) (sig : Signature Ty) : Item → Prop
  | function {fn : FunctionDecl} (value : Value)
      (hvalue : s.functions.get? decl.name.name = some value) (hty : value.ty = .function sig)
      (hdefinition : value.definition = some (s.define decl.name.range)) :
      Stores s decl sig (.function fn)
  | method {block : ImplDecl} (info : StructInfo) (value : Value)
      (hinfo : s.structs.get? block.name.name = some info)
      (hvalue : info.methods.get? decl.name.name = some value) (hty : value.ty = .function sig)
      (hdefinition : value.definition = some (s.define decl.name.range)) :
      Stores s decl sig (.methods block)
  | operator {block : ImplDecl} (info : StructInfo) (op : Operator) (side : Declare.Side)
      (overload : Overload) (hinfo : s.structs.get? block.name.name = some info)
      (hmem : overload ∈ ((info.overloads side).get? op).getD [])
      (hname : (overload? decl.name.name).map Prod.fst = some op)
      (hother : side.other? sig = some overload.other) (hresult : overload.result = sig.result)
      (hdefinition : overload.definition = some (s.define decl.name.range)) :
      Stores s decl sig (.operators block)

theorem Stores.kept {s t : Symbols} {decl : FunctionDecl} {sig : Signature Ty} {item : Item}
    (h : Stores s decl sig item) (hkept : s.Kept t) : Stores t decl sig item := by
  have hdefine : s.define decl.name.range = t.define decl.name.range := by
    rw [Symbols.define, Symbols.define, hkept.moduleName]
  cases h with
  | function value hvalue hty hdefinition =>
    exact .function value (hkept.functions hvalue) hty (hdefine ▸ hdefinition)
  | method info value hinfo hvalue hty hdefinition =>
    obtain ⟨info', hinfo', hkept'⟩ := hkept.structs hinfo
    exact .method info' value hinfo' (hkept'.methods hvalue) hty (hdefine ▸ hdefinition)
  | operator info op side overload hinfo hmem hname hother hresult hdefinition =>
    obtain ⟨info', hinfo', hkept'⟩ := hkept.structs hinfo
    exact .operator info' op side overload hinfo' (hkept'.overloads hmem) hname hother hresult
      (hdefine ▸ hdefinition)

theorem Declare.stores_withFunction {item : Item} {owner : Owner} {decl : FunctionDecl}
    {s s' : Symbols} (hmem : decl ∈ item.functions) (howner : item.owner? s = some owner)
    (h : withFunction owner decl s = .ok s') :
    Stores s' decl (signature (item.view s) decl (item.role = .method)) item := by
  cases item with
  | use | const | struct | typeAlias => cases hmem
  | function fn =>
    obtain rfl := Option.some.inj howner
    simp only [withFunction] at h
    split at h
    · cases h
    · obtain rfl := Except.ok.inj h
      exact .function _ (Table.get?_insert_self _ _ _) rfl rfl
  | methods block =>
    obtain ⟨self, hself, rfl⟩ := Option.map_eq_some_iff.1 howner
    have hname : self.name = block.name.name := congrArg _ (name_of_selfOf? hself)
    have hview : Item.view s (.methods block) = { symbols := s, self := some self } := by
      rw [← hself]
      rfl
    simp only [withFunction] at h
    split at h
    · split at h
      · cases h
      · obtain rfl := Except.ok.inj h
        rw [hview]
        exact .method _ (functionValue { symbols := s, self } decl true) (get?_withInfo s hname _)
          (Table.get?_insert_self _ _ _) rfl rfl
    · cases h
  | operators block =>
    obtain ⟨self, hself, rfl⟩ := Option.map_eq_some_iff.1 howner
    have hname : self.name = block.name.name := congrArg _ (name_of_selfOf? hself)
    have hview : Item.view s (.operators block) = { symbols := s, self := some self } := by
      rw [← hself]
      rfl
    simp only [withFunction] at h
    split at h
    · rename_i op side overload hclassify
      obtain rfl := Except.ok.inj h
      obtain ⟨hop, hwritten, hresult, hdefinition⟩ := classify_ok hclassify
      rw [hview]
      exact .operator _ op side overload (get?_withInfo s hname _)
        (mem_withOverload _ op overload side) hop hwritten.other? hresult hdefinition
    · cases h

/-! ## Both passes at a site -/

/-- For a given `Self`, what an annotation stands for depends on the types only. -/
theorem Symbols.SameTypes.resolve {s t : Symbols} (h : s.SameTypes t) (self : Option SelfType)
    (spec : TypeSpec) :
    spec.resolve { symbols := s, self } = spec.resolve { symbols := t, self } := by
  have htype (scope : Option String) (name : String) :
      View.type? { symbols := s, self } scope name =
        View.type? { symbols := t, self } scope name := by
    simp only [View.type?, Symbols.type?, Symbols.module?, h.types, h.modules, h.registry]
    rfl
  exact spec.resolve_congr ⟨h.registry, fun _ _ => htype _ _, fun _ _ => htype _ _⟩

/-- What `Self` and all other names of types stand for in an item depends on the types only. -/
theorem Symbols.SameTypes.resolve_view {s t : Symbols} (h : s.SameTypes t) (item : Item)
    (spec : TypeSpec) : spec.resolve (item.view s) = spec.resolve (item.view t) := by
  have hview (s : Symbols) : item.view s = { symbols := s, self := (item.view s).self } := by
    cases item <;> rfl
  rw [hview s, hview t, Declare.self_view_congr h]
  exact h.resolve _ spec

namespace Check

/-- The check of an item up to its functions. -/
def enterItem : Item → CheckM Unit
  | .methods block | .operators block => openImpl block
  | .use _ | .const _ | .function _ | .struct _ | .typeAlias _ => pure ()

/-- The check of an item after its functions. -/
def leaveItem : Item → CheckM Unit
  | .methods _ | .operators _ => setSelf none
  | .use _ | .const _ | .function _ | .struct _ | .typeAlias _ => pure ()

theorem run_functions_append (role : Role) (others : List FunctionDecl) :
    (decls : List FunctionDecl) → (c : Checker) →
    (functions Expr.part role (decls ++ others)).run c =
      (functions Expr.part role others).run ((functions Expr.part role decls).run c).2
  | [], _ => rfl
  | _ :: decls, _ => run_functions_append role others decls _

/-- The check of an item, cut before and after one of its functions. -/
theorem run_item {item : Item} {front back : List FunctionDecl} {decl : FunctionDecl}
    (h : item.functions = front ++ decl :: back) (c : Checker) :
    (closeScopes.run ((Check.item Expr.part item).run c).2).2 =
      ((do
        closeScopes
        functions Expr.part item.role back
        leaveItem item
        closeScopes).run
          ((function Expr.part item.role decl).run
            ((do
              enterItem item
              functions Expr.part item.role front).run c).2).2).2 := by
  have hfunctions :=
    run_functions_append item.role (decl :: back) front ((enterItem item).run c).2
  rw [← h] at hfunctions
  cases item with
  | use | const | struct | typeAlias => simp [Item.functions] at h
  | function other =>
    obtain ⟨rfl, rfl, rfl⟩ : front = [] ∧ decl = other ∧ back = [] := by
      simpa [Item.functions, List.singleton_eq_append_iff] using h
    rfl
  | methods | operators =>
    exact congrArg (fun result => (closeScopes.run ((setSelf none).run result.2).2).2) hfunctions

end Check

theorem Rooted.enterItem {s : Symbols} {c : Checker} (h : Rooted s c) (item : Item) :
    ((enterItem item).run c).2.view = item.view s ∧ ((enterItem item).run c).2.muted = 0 := by
  cases item with
  | use | const | function | struct | typeAlias => exact ⟨h.view, h.muted⟩
  | methods block | operators block =>
    obtain ⟨hview, hmuted, -⟩ := Reports.openImpl h.view block
    exact ⟨hview, hmuted.trans h.muted⟩

namespace Site

variable {script : Script} (site : Site script) (registry : Registry)

/-- The declarations when the first pass comes to the item of the function. -/
def start : Declarations :=
  Declare.after (Declare.each Declare.functionItem site.earlier)
    (script.declaredUpTo registry .types)

/-- What the first pass declares the function for. -/
def owner? : Option Declare.Owner := site.item.owner? (site.start registry).symbols

/-- The declarations when the first pass comes to the function. -/
def declared : Declarations :=
  match site.owner? registry with
  | some owner => Declare.after (Declare.each (Declare.enterFunction owner) site.front)
      (site.start registry)
  | none => site.start registry

/-- The first pass makes an entry for the function. -/
abbrev Entered : Prop :=
  ((site.owner? registry).bind fun owner =>
    (Declare.withFunction owner site.decl (site.declared registry).symbols).toOption).isSome

/-- The signature that the first pass finds for the function. -/
def signature : Signature Ty :=
  Declare.signature (site.item.view (site.declared registry).symbols) site.decl
    (site.item.role = .method)

/-- The state of the second pass when it comes to the function. -/
def checker : Checker :=
  ((do
    enterItem site.item
    Check.functions Expr.part site.item.role site.front).run
      (script.checker registry site.earlier)).2

/-- What is left of the second pass after the check of the function. -/
def remaining : CheckM Unit := do
  closeScopes
  functions Expr.part site.item.role site.back
  leaveItem site.item
  closeScopes
  items Expr.part site.later

/-- The second pass comes to the function, checks it and goes on. -/
theorem report_validate : (script.validate registry).report =
    (site.remaining.run
      ((function Expr.part site.item.role site.decl).run
        (site.checker registry)).2).2.report.finish := by
  rw [script.report_validate registry site.items_eq,
    run_item site.functions_eq (script.checker registry site.earlier)]
  rfl

theorem view_checker :
    (site.checker registry).view = site.item.view (script.declarations registry).symbols := by
  obtain ⟨hview, hmuted⟩ := (script.rooted_checker registry site.earlier).enterItem site.item
  exact (Reports.functions site.item.role site.front _ hview hmuted).1

variable {registry}

theorem Entered.exists_owner (h : site.Entered registry) :
    ∃ owner s, site.owner? registry = some owner ∧
      Declare.withFunction owner site.decl (site.declared registry).symbols = .ok s := by
  obtain ⟨s, hs⟩ := Option.isSome_iff_exists.1 h
  obtain ⟨owner, howner, hs⟩ := Option.bind_eq_some_iff.1 hs
  cases hentry : Declare.withFunction owner site.decl (site.declared registry).symbols with
  | error => simp [hentry, Except.toOption] at hs
  | ok s => exact ⟨owner, s, howner, hentry⟩

variable {owner : Declare.Owner} (howner : site.owner? registry = some owner)

include howner

theorem declared_eq : site.declared registry =
    Declare.after (Declare.each (Declare.enterFunction owner) site.front)
      (site.start registry) := by
  rw [declared, howner]

/-- The struct of a block stays the same while its functions are entered. -/
theorem owner?_declared : site.item.owner? (site.declared registry).symbols = some owner := by
  have hkept := Declare.kept_each (Declare.kept_enterFunction owner) site.front
    (site.start registry)
  rw [← site.declared_eq howner] at hkept
  exact (Declare.owner?_congr hkept.sameTypes site.item).symm.trans howner

/-- The functions phase, cut before and after the function. -/
theorem declaredUpTo_functions :
    script.declaredUpTo registry .functions =
      Declare.after (Declare.each Declare.functionItem site.later)
        (Declare.after (Declare.each (Declare.enterFunction owner) site.back)
          (Declare.after (Declare.enterFunction owner site.decl) (site.declared registry))) := by
  rw [site.declared_eq howner]
  calc script.declaredUpTo registry .functions
    _ = Declare.after
          (Declare.each Declare.functionItem (site.earlier ++ site.item :: site.later))
          (script.declaredUpTo registry .types) := by
      rw [← site.items_eq]
      rfl
    _ = Declare.after (Declare.each Declare.functionItem site.later)
          (Declare.after (Declare.functionItem site.item) (site.start registry)) := by
      rw [Declare.after_each_append]
      rfl
    _ = _ := by
      rw [Declare.after_functionItem howner, site.functions_eq, Declare.after_each_append]
      rfl

/-- What was entered for the function is there at the end of the first pass. -/
theorem kept : (Declare.after (Declare.enterFunction owner site.decl)
    (site.declared registry)).symbols.Kept (script.declarations registry).symbols := by
  have hback := Declare.kept_each (Declare.kept_enterFunction owner) site.back
    (Declare.after (Declare.enterFunction owner site.decl) (site.declared registry))
  have hlater := Declare.kept_each Declare.kept_functionItem site.later
    (Declare.after (Declare.each (Declare.enterFunction owner) site.back)
      (Declare.after (Declare.enterFunction owner site.decl) (site.declared registry)))
  rw [← site.declaredUpTo_functions howner] at hlater
  rw [Script.declarations_eq]
  exact (hback.trans hlater).trans (Declare.kept_constants script.items _)

end Site

/-- The symbols of a script hold for every function that was entered the signature that the first
pass has found. The second pass comes to the function in a state in which it checks the body under
this signature. -/
theorem entered_signature_upheld (registry : Registry) {script : Script} (site : Site script)
    (h : site.Entered registry) :
    Stores (script.validate registry).symbols site.decl (site.signature registry) site.item ∧
      (script.validate registry).report =
        (site.remaining.run
          ((function Expr.part site.item.role site.decl).run
            (site.checker registry)).2).2.report.finish ∧
      Upholds site.item.role site.decl (site.checker registry) (site.signature registry) := by
  have hmem : site.decl ∈ site.item.functions := by
    rw [site.functions_eq]
    exact List.mem_append_right _ List.mem_cons_self
  obtain ⟨owner, s, howner, hentry⟩ := h.exists_owner
  have hkept := site.kept howner
  have hs : (Declare.after (Declare.enterFunction owner site.decl)
      (site.declared registry)).symbols = s := by
    rw [Declare.enterFunction, Declare.after_makeEntry, hentry]
  refine ⟨(Declare.stores_withFunction hmem (site.owner?_declared howner) hentry).kept (hs ▸ hkept),
    site.report_validate registry, ?_⟩
  refine upholds_signature site.item.role site.decl fun spec => ?_
  rw [site.view_checker]
  exact ((Declare.kept_enterFunction _ _ _).trans hkept).sameTypes.resolve_view site.item spec

/-- The block `impl Crate { fn emptied(self) -> Self = self,
fn heavier(self, than : Self, than : Mass) -> Self = than }`. -/
def crateMethods : ImplDecl :=
  .ofFunctions "Crate"
    [.ofBody "emptied" [.self] "Self" (.ofName "self"),
      .ofBody "heavier" [.self, .ofType "than" (.plain "Self"), .ofType "than" (.plain "Mass")]
        "Self"
        (.ofName "than")]

/-- The block `impl operators Crate { fn add(mass : Mass, crate : Self) -> Mass = mass }`. -/
def crateOperators : ImplDecl :=
  .ofFunctions "Crate"
    [.ofBody "add" [.ofType "mass" (.plain "Mass"), .ofType "crate" (.plain "Self")] "Mass"
      (.ofName "mass")]

/-- The function `fn load(crates : Crate[]) -> Mass = 0`. -/
def load : FunctionDecl :=
  .ofBody "load" [.ofType "crates" (.array {} (.plain "Crate"))] "Mass" (.int {} 0)

/-- These functions, and after them the types `struct Crate ( mass : Mass )` and
`type Mass = int`. -/
def crates : Script :=
  .ofItems
    [.methods crateMethods, .operators crateOperators, .function load,
      .ofStruct "Crate" [("mass", .plain "Mass")], .ofAlias "Mass" "int"]

/-- The place of the second method. -/
def heavierSite : Site crates :=
  ⟨[], .methods crateMethods, crates.items.drop 1, crateMethods.functions.take 1,
    crateMethods.functions[1], [], rfl, rfl⟩

/-- The place of the overload. -/
def addSite : Site crates :=
  ⟨crates.items.take 1, .operators crateOperators, crates.items.drop 2, [],
    crateOperators.functions[0], [], rfl, rfl⟩

/-- The place of the function. -/
def loadSite : Site crates :=
  ⟨crates.items.take 2, .function load, crates.items.drop 3, [], load, [], rfl, rfl⟩

/-- A method, an overload and a function under their signatures. -/
theorem entered_signature_upheld_crates :
    (heavierSite.Entered .empty ∧ (heavierSite.signature .empty).params.length = 2 ∧
      Stores (crates.validate .empty).symbols heavierSite.decl (heavierSite.signature .empty)
        (.methods crateMethods) ∧
      Upholds .method heavierSite.decl (heavierSite.checker .empty)
        (heavierSite.signature .empty)) ∧
    (addSite.Entered .empty ∧ (addSite.signature .empty).result = .int ∧
      Stores (crates.validate .empty).symbols addSite.decl (addSite.signature .empty)
        (.operators crateOperators) ∧
      Upholds .operator addSite.decl (addSite.checker .empty) (addSite.signature .empty)) ∧
    (loadSite.Entered .empty ∧ (loadSite.signature .empty).result = .int ∧
      Stores (crates.validate .empty).symbols load (loadSite.signature .empty) (.function load) ∧
      Upholds .function load (loadSite.checker .empty) (loadSite.signature .empty)) := by
  have hmethod : heavierSite.Entered .empty := by decide +kernel
  have hoperator : addSite.Entered .empty := by decide +kernel
  have hfunction : loadSite.Entered .empty := by decide +kernel
  obtain ⟨hstored, -, hupheld⟩ := entered_signature_upheld .empty heavierSite hmethod
  obtain ⟨hstored', -, hupheld'⟩ := entered_signature_upheld .empty addSite hoperator
  obtain ⟨hstored'', -, hupheld''⟩ := entered_signature_upheld .empty loadSite hfunction
  exact ⟨⟨hmethod, by decide +kernel, hstored, hupheld⟩,
    ⟨hoperator, by decide +kernel, hstored', hupheld'⟩,
    ⟨hfunction, by decide +kernel, hstored'', hupheld''⟩⟩

end ScriptCheck
