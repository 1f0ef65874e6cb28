import ScriptCheck.Proofs.Annotations
import ScriptCheck.Proofs.Isolation

/-!
# Faults of items

The second pass checks every annotation of an item, so that the faults of the annotations are among
the diagnostics of the item (`Item.faults_subset`). A parameter without an annotation counts as a
fault as well, unless it is the receiver of a method.
-/

namespace ScriptCheck

open Check

/-! ## Faults of declarations -/

/-- What is wrong with the type of a parameter. -/
def ParamDecl.faults (v : View) (isReceiver : Bool) (param : ParamDecl) : List Diagnostic :=
  match param.type with
  | some spec => spec.faults v
  | none =>
    if isReceiver then []
    else [⟨.error, .badDeclaration (.untypedParam param.name.name), param.name.range⟩]

/-- What is wrong with the types of parameters. -/
def paramFaults (v : View) (role : Role) : (first : Bool) → List ParamDecl → List Diagnostic
  | _, [] => []
  | first, param :: rest =>
    param.faults v (role == .method && first && param.name.name == "self") ++
      paramFaults v role false rest

/-- What is wrong with the signature of a function. -/
def FunctionDecl.faults (v : View) (role : Role) (decl : FunctionDecl) : List Diagnostic :=
  decl.result.faults v ++ paramFaults v role true decl.params

/-- The view that the functions of a block have. -/
def ImplDecl.view (s : Symbols) (decl : ImplDecl) : View :=
  { symbols := s, self := Symbols.selfOf? s decl.name.name }

/-- What is wrong with the annotations that declare types and signatures. -/
def Item.faults (s : Symbols) : Item → List Diagnostic
  | .use _ | .const _ => []
  | .function decl => decl.faults { symbols := s } .function
  | .struct decl => decl.fields.flatMap fun f => f.type.faults { symbols := s }
  | .typeAlias decl => decl.type.faults { symbols := s }
  | .methods decl => decl.functions.flatMap (FunctionDecl.faults (decl.view s) .method)
  | .operators decl => decl.functions.flatMap (FunctionDecl.faults (decl.view s) .operator)

theorem isError_of_mem_paramFaults {v : View} {role : Role} {d : Diagnostic} :
    {first : Bool} → {params : List ParamDecl} → d ∈ paramFaults v role first params →
      d.isError = true
  | _, [], h => absurd h List.not_mem_nil
  | _, param :: rest, h => by
    rcases List.mem_append.1 h with h | h
    · unfold ParamDecl.faults at h
      split at h
      · exact TypeSpec.isError_of_mem_faults _ h
      · split at h
        · exact absurd h List.not_mem_nil
        · obtain rfl := List.mem_singleton.1 h
          rfl
    · exact isError_of_mem_paramFaults h

theorem FunctionDecl.isError_of_mem_faults {v : View} {role : Role} {decl : FunctionDecl}
    {d : Diagnostic} (h : d ∈ decl.faults v role) : d.isError = true :=
  (List.mem_append.1 h).elim (TypeSpec.isError_of_mem_faults _) isError_of_mem_paramFaults

/-- Every fault is an error. -/
theorem Item.isError_of_mem_faults {s : Symbols} {x : Item} {d : Diagnostic} (h : d ∈ x.faults s) :
    d.isError = true := by
  cases x with
  | use | const => exact absurd h List.not_mem_nil
  | function decl => exact FunctionDecl.isError_of_mem_faults h
  | typeAlias decl => exact TypeSpec.isError_of_mem_faults _ h
  | struct decl =>
    obtain ⟨f, -, h⟩ := List.mem_flatMap.1 h
    exact TypeSpec.isError_of_mem_faults _ h
  | methods decl | operators decl =>
    obtain ⟨f, -, h⟩ := List.mem_flatMap.1 h
    exact FunctionDecl.isError_of_mem_faults h

/-! ## Faults are reported -/

namespace Check

/-- In a view, the computation adds to the diagnostics, and what it adds includes `needed`. -/
def Reports {α : Type} (v : View) (m : CheckM α) (needed : List Diagnostic) : Prop :=
  ∀ c, c.view = v → c.muted = 0 → (m.run c).2.view = v ∧ (m.run c).2.muted = 0 ∧
    ∃ added, (m.run c).2.report.diagnostics = c.report.diagnostics ++ added ∧ needed ⊆ added

namespace Reports

variable {α β : Type} {v : View} {needed more : List Diagnostic}

theorem bind {m : CheckM α} {k : α → CheckM β} (hm : Reports v m needed)
    (hk : ∀ a, Reports v (k a) more) : Reports v (m >>= k) (needed ++ more) := by
  intro c hview hmuted
  obtain ⟨hview, hmuted, added, hadded, hneeded⟩ := hm c hview hmuted
  obtain ⟨hview', hmuted', added', hadded', hmore⟩ := hk (m.run c).1 (m.run c).2 hview hmuted
  refine ⟨hview', hmuted', added ++ added', ?_, ?_⟩
  · rw [← List.append_assoc, ← hadded]
    exact hadded'
  · exact List.append_subset.2 ⟨fun d hd => List.mem_append_left _ (hneeded hd),
      fun d hd => List.mem_append_right _ (hmore hd)⟩

theorem of_writes {m : CheckM α} {a : α} (h : Writes v m a needed) : Reports v m needed := by
  intro c hview hmuted
  obtain ⟨-, hnoted⟩ := h c hview
  refine ⟨hnoted.view.trans hview, hnoted.muted.trans hmuted, needed, ?_, List.Subset.refl _⟩
  rw [hnoted.diagnostics, if_pos hmuted]

/-- Whatever runs side by side with itself only ever adds to the diagnostics. -/
theorem of_parallel {m : CheckM α} (h : ∀ w, Sim (Abreast w) m m) : Reports v m [] := by
  intro c hview hmuted
  have hstart : Abreast
      { Course.root (.refl v.symbols) with
        self := v.self, before := c.report.diagnostics, before' := c.report.diagnostics } c c :=
    ⟨hview, hview, hmuted, hmuted, rfl, [], (List.append_nil _).symm, (List.append_nil _).symm⟩
  obtain ⟨-, hend⟩ := h _ hstart
  obtain ⟨added, hadded, -⟩ := hend.diagnostics
  exact ⟨hend.view, hend.muted, added, hadded, List.nil_subset _⟩

/-- What follows may add to the diagnostics. -/
theorem bindAny {m : CheckM α} {k : α → CheckM β} (hm : Reports v m needed)
    (hk : ∀ a, Reports v (k a) []) : Reports v (m >>= k) needed := by
  have h := hm.bind hk
  rwa [List.append_nil] at h

theorem pure (a : α) : Reports v (pure a) [] := of_parallel fun _ => .pure a

theorem get {k : Checker → CheckM α} (h : ∀ c, Reports v (k c) needed) :
    Reports v (get >>= k) needed :=
  fun c => h c c

theorem openScope (parent : Option Nat) (kind : ScopeKind) :
    Reports v (openScope parent kind) [] :=
  fun _ hview hmuted => ⟨hview, hmuted, [], (List.append_nil _).symm, List.nil_subset _⟩

theorem closeScopes : Reports v closeScopes [] := of_parallel fun w => w.closeScopes

theorem token (range : Range) (kind : TokenKind) (modifiers : List TokenModifier) :
    Reports v (token range kind modifiers) [] :=
  of_writes (.token _ _ _)

theorem hover (range : Range) (name : String) (ty : Ty) (description : String) :
    Reports v (hover range name ty description) [] :=
  of_writes (.hoverText _ _)

theorem check (e : Expr) (id : Nat) (hint : Option Ty) : Reports v (e.check id hint) [] :=
  of_parallel fun w => parallel.keeps_part e w id id hint rfl

theorem require (e : Expr) (expected : Ty) (id : Nat) :
    Reports v (require e.part expected id) [] :=
  of_parallel fun _ => parallel.require (parallel.keeps_part e) expected rfl

theorem checkSpec (spec : TypeSpec) : Reports v spec.check (spec.faults v) :=
  of_writes spec.writes_check

theorem structFields : (fields : List FieldDecl) →
    Reports v (structFields Expr.part fields) (fields.flatMap fun f => f.type.faults v)
  | [] => pure ()
  | decl :: rest => by
    refine (checkSpec decl.type).bind fun ty => (token _ _ _).bind fun _ =>
      (hover _ _ _ _).bind fun _ => ?_
    cases decl.default with
    | none => exact structFields rest
    | some value =>
      exact (openScope _ _).bind fun id => (require _ _ _).bind fun _ => structFields rest

theorem struct (decl : StructDecl) :
    Reports v (struct Expr.part decl) (decl.fields.flatMap fun f => f.type.faults v) := by
  refine (token _ _ _).bind fun _ => get fun c => ?_
  dsimp only
  cases c.view.symbols.types.get? decl.name.name with
  | none => exact structFields _
  | some found => exact (hover _ _ _ _).bind fun _ => structFields _

theorem typeAlias (decl : AliasDecl) : Reports v (typeAlias decl) (decl.type.faults v) :=
  (checkSpec _).bindAny fun _ => (token _ _ _).bind fun _ => hover _ _ _ _

theorem paramType (param : ParamDecl) (isReceiver : Bool) :
    Reports v (paramType param isReceiver) (param.faults v isReceiver) := by
  unfold Check.paramType ParamDecl.faults
  cases param.type with
  | some spec => exact checkSpec spec
  | none =>
    cases isReceiver with
    | true => exact get fun _ => pure _
    | false => exact (of_writes (.error _ _)).bind fun _ => pure _

theorem checkDefault (param : ParamDecl) (ty : Ty) (defaults : Nat) :
    Reports v (checkDefault Expr.part param ty defaults) [] := by
  unfold Check.checkDefault
  split
  · exact require _ _ _
  · exact pure ()

theorem enterUnseen (id : Nat) (seen : List String) (name : Ident) (ty : Ty) :
    Reports v (enterUnseen id seen name ty) [] := by
  unfold Check.enterUnseen
  split
  · exact of_parallel fun _ => parallel.error _ _
  · exact of_parallel fun _ => parallel.enterParam rfl _ _

theorem functionParams (role : Role) (body defaults : Nat) :
    (first : Bool) → (seen : List String) → (params : List ParamDecl) →
    Reports v (functionParams Expr.part role body defaults first seen params)
      (paramFaults v role first params)
  | _, _, [] => pure []
  | first, seen, param :: rest => by
    have hrest := functionParams role body defaults false (param.name.name :: seen) rest
    exact (paramType _ _).bind fun ty => (checkDefault _ _ _).bind fun _ =>
      (enterUnseen _ _ _ _).bind fun _ => hrest.bindAny fun _ => pure _

theorem showRegistered (role : Role) (decl : FunctionDecl) :
    Reports v (showRegistered role decl) [] := by
  refine get fun c => ?_
  split
  · exact hover _ _ _ _
  · exact pure ()

theorem opening (role : Role) (decl : FunctionDecl) :
    Reports v (opening Expr.part role decl) (decl.faults v role) :=
  (checkSpec _).bind fun _ => (token _ _ _).bind fun _ => (showRegistered _ _).bind fun _ =>
    (openScope _ _).bind fun _ => (openScope _ _).bind fun _ =>
      (functionParams _ _ _ _ _ _).bindAny fun _ => pure _

theorem function (role : Role) (decl : FunctionDecl) :
    Reports v (function Expr.part role decl) (decl.faults v role) :=
  (opening role decl).bindAny fun _ =>
    (check _ _ _).bind fun _ => of_parallel fun _ => parallel.expect _ _ _

theorem functions (role : Role) : (decls : List FunctionDecl) →
    Reports v (functions Expr.part role decls) (decls.flatMap (FunctionDecl.faults v role))
  | [] => pure ()
  | decl :: rest =>
    (function role decl).bind fun _ => closeScopes.bind fun _ => functions role rest

omit v in
/-- Inside of a block for a struct, `Self` stands for the struct. -/
theorem openImpl {s : Symbols} {c : Checker} (hview : c.view = { symbols := s }) (decl : ImplDecl) :
    ((openImpl decl).run c).2.view = decl.view s ∧
      ((Check.openImpl decl).run c).2.muted = c.muted ∧
      ((Check.openImpl decl).run c).2.report.diagnostics = c.report.diagnostics := by
  obtain ⟨view, scopes, report, muted⟩ := c
  obtain rfl : view = { symbols := s } := hview
  have htoken : Writes (decl.view s) (Check.token decl.name.range .struct []) () [] :=
    .token _ _ _
  have hlink : Writes (decl.view s) (link decl.name.range
      ((s.types.get? decl.name.name).bind TypeAlias.definition)) () [] := .link _ _
  obtain ⟨-, hnoted⟩ := htoken.bind (k := fun _ => _) hlink
    { view := decl.view s, scopes, report, muted } rfl
  refine ⟨hnoted.view, hnoted.muted, hnoted.diagnostics.trans ?_⟩
  rw [List.nil_append, ite_self, List.append_nil]

theorem impl (s : Symbols) (role : Role) (decl : ImplDecl) :
    Reports { symbols := s } (impl Expr.part role decl)
      (decl.functions.flatMap (FunctionDecl.faults (decl.view s) role)) := by
  intro c hview hmuted
  obtain ⟨hopen, hopenMuted, hdiagnostics⟩ := openImpl hview decl
  obtain ⟨hview, hmuted, added, hadded, hneeded⟩ :=
    functions role decl.functions _ hopen (hopenMuted.trans hmuted)
  rw [hdiagnostics] at hadded
  exact ⟨congrArg (fun v : View => { v with self := none }) hview, hmuted, added, hadded, hneeded⟩

theorem item (s : Symbols) : (x : Item) →
    Reports { symbols := s } (item Expr.part x) (x.faults s)
  | .use decl => of_parallel fun _ => parallel.use decl
  | .const decl => of_parallel fun _ => parallel.const decl
  | .function decl => function .function decl
  | .struct decl => struct decl
  | .typeAlias decl => typeAlias decl
  | .methods decl => impl s .method decl
  | .operators decl => impl s .operator decl

end Reports

end Check

/-- The faults of an item are among its diagnostics. -/
theorem Item.faults_subset (s : Symbols) (x : Item) : x.faults s ⊆ itemDiagnostics s x := by
  obtain ⟨-, -, added, hadded, hneeded⟩ := Reports.item s x { view := { symbols := s } } rfl rfl
  rw [itemDiagnostics, hadded]
  exact hneeded

/-- A script without errors has no faults in its items. -/
theorem Script.faults_eq_nil {registry : Registry} {script : Script}
    (h : (script.validate registry).report.errors = []) {x : Item} (hx : x ∈ script.items) :
    x.faults (script.declarations registry).symbols = [] := by
  rw [List.eq_nil_iff_forall_not_mem]
  intro d hd
  have hmem : d ∈ (script.validate registry).report.errors := by
    refine List.mem_filter.2 ⟨?_, Item.isError_of_mem_faults hd⟩
    rw [Script.diagnostics_validate]
    exact List.mem_append_right _ (List.mem_flatMap.2 ⟨x, hx, x.faults_subset _ hd⟩)
  rw [h] at hmem
  cases hmem

end ScriptCheck
