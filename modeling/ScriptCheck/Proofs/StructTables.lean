import ScriptCheck.Proofs.KnownDeclarations

/-!
# The tables of structs fit together

A struct is entered in several places: among the types and the structs when its name is registered,
there again and among the functions when its fields are declared, and its methods and operators
follow in blocks. At the end all of this fits together (`struct_tables_fit`).

The invariant says of each struct that either its declaration is still to come, and nothing is known
about its fields, or its tables fit and no declaration to come owns it.
-/

namespace ScriptCheck

/-! ## Fields -/

namespace Declare

theorem mem_names_firstFields {name : String} : {seen : List String} → {fields : List FieldDecl} →
    (name ∈ (firstFields seen fields).map (·.name.name) ↔
      name ∈ fields.map (·.name.name) ∧ name ∉ seen)
  | _, [] => by simp [firstFields]
  | seen, f :: rest => by
    rw [firstFields]
    split
    · rename_i hseen
      rw [mem_names_firstFields]
      have hf : f.name.name ∈ seen := List.contains_iff_mem.1 hseen
      grind
    · rename_i hnew
      have hf : f.name.name ∉ seen := fun h => hnew (List.contains_iff_mem.2 h)
      rw [List.map_cons, List.mem_cons, mem_names_firstFields]
      grind

/-- Of several fields of one name only the first counts. -/
theorem nodup_names_firstFields : (seen : List String) → (fields : List FieldDecl) →
    ((firstFields seen fields).map (·.name.name)).Nodup
  | _, [] => .nil
  | seen, f :: rest => by
    rw [firstFields]
    split
    · exact nodup_names_firstFields seen rest
    · rw [List.map_cons, List.nodup_cons, mem_names_firstFields]
      exact ⟨fun h => h.2 List.mem_cons_self, nodup_names_firstFields _ rest⟩

theorem names_resolvedFields (decl : StructDecl) (s : Symbols) :
    (resolvedFields decl s).map Prod.fst = (firstFields [] decl.fields).map (·.name.name) := by
  simp [resolvedFields]

theorem contains_fieldDefinitions (s : Symbols) (name : String) :
    (decls : List FieldDecl) → (t : Table String Definition) →
    ((decls.foldl (fun t f => t.insertNew f.name.name (s.define f.name.range)) t).contains name =
      true ↔ t.contains name = true ∨ name ∈ decls.map (·.name.name))
  | [], t => by simp
  | f :: rest, t => by
    rw [List.foldl_cons, contains_fieldDefinitions s name rest, Table.contains_insertNew,
      List.map_cons, List.mem_cons, or_assoc]

end Declare

/-! ## Structs in the tables -/

/-- The structs that are declared among the items. -/
def structDecls : List Item → List StructDecl
  | [] => []
  | .struct decl :: xs => decl :: structDecls xs
  | .use _ :: xs | .const _ :: xs | .function _ :: xs | .typeAlias _ :: xs | .methods _ :: xs
  | .operators _ :: xs => structDecls xs

theorem mem_structDecls {decl : StructDecl} : {xs : List Item} →
    (decl ∈ structDecls xs ↔ .struct decl ∈ xs)
  | [] => by simp [structDecls]
  | x :: xs => by
    have ih : decl ∈ structDecls xs ↔ .struct decl ∈ xs := mem_structDecls
    cases x <;> simp [structDecls, ih]

/-- The value is a constructor: it takes the given fields in order and returns the given type. -/
def Value.Constructs (value : Value) (fields : List (String × Ty)) (ty : Ty) : Prop :=
  ∃ sig, value.ty = .function sig ∧ sig.params.map (fun p => (p.name, p.ty)) = fields ∧
    sig.result = ty ∧ sig.generics = [] ∧ sig.isAsync = false

/-- What the tables say about a struct fits together. The constructor may be missing if its name is
that of an imported function. -/
structure Symbols.Fits (s : Symbols) (imported : Table String Value) (name : String)
    (info : StructInfo) (found : TypeAlias) : Prop where
  ty : found.ty = .record (some (s.qualify name)) info.fields
  nodup : (info.fields.map Prod.fst).Nodup
  definitions : ∀ field,
    info.fieldDefinitions.contains field = true ↔ field ∈ info.fields.map Prod.fst
  constructor : imported.contains name = false →
    ∃ value, s.functions.get? name = some value ∧ value.Constructs info.fields found.ty

/-- Whether a struct waits for its declaration among those to come, or its tables fit. -/
inductive Symbols.Progress (s : Symbols) (imported : Table String Value) (rest : List StructDecl)
    (name : String) (info : StructInfo) (found : TypeAlias) : Prop
  | waits (decl : StructDecl) (hmem : decl ∈ rest) (hname : decl.name.name = name)
      (howns : Declare.owns s decl.name = true) (hinfo : info = {})
      (hfunction : s.functions.get? name = imported.get? name)
  | fits (hrest : ∀ decl ∈ rest, decl.name.name = name → Declare.owns s decl.name = false)
      (hfits : s.Fits imported name info found)

/-- The tables of structs while the fields of some structs are still to be declared. -/
structure Symbols.StructsUpTo (s : Symbols) (imported : Table String Value)
    (rest : List StructDecl) : Prop where
  keys : ∀ name, (s.structs.get? name).isSome = true ↔
    ∃ found, s.types.get? name = some found ∧ found.isStruct = true
  progress : ∀ {name info found}, s.structs.get? name = some info →
    s.types.get? name = some found → s.Progress imported rest name info found

section Changes

variable {s s' : Symbols} {imported : Table String Value} {rest rest' : List StructDecl}
  {name : String} {info info' : StructInfo} {found : TypeAlias}

theorem Declare.owns_congr {ident : Ident}
    (h : s'.types.get? ident.name = s.types.get? ident.name) :
    Declare.owns s' ident = Declare.owns s ident := by
  rw [Declare.owns, Declare.owns, h]

/-- The fields of the struct are the same, and functions that were there still are. -/
theorem Symbols.Fits.of_kept (h : s.Fits imported name info found)
    (hmodule : s'.moduleName = s.moduleName) (hfields : info'.fields = info.fields)
    (hdefinitions : info'.fieldDefinitions = info.fieldDefinitions)
    (hfunctions : ∀ value, s.functions.get? name = some value →
      s'.functions.get? name = some value) :
    s'.Fits imported name info' found where
  ty := by
    rw [h.ty, hfields, Symbols.qualify, Symbols.qualify, hmodule]
  nodup := by
    rw [hfields]
    exact h.nodup
  definitions := by
    rw [hfields, hdefinitions]
    exact h.definitions
  constructor himported := by
    obtain ⟨value, hvalue, hconstructs⟩ := h.constructor himported
    rw [hfields]
    exact ⟨value, hfunctions value hvalue, hconstructs⟩

/-- A change to what one name stands for is fine if the tables are fine at this name. -/
theorem Symbols.StructsUpTo.of_changedAt (h : s.StructsUpTo imported rest)
    (hchange : Symbols.ChangedAt name s s') (hmodule : s'.moduleName = s.moduleName)
    (hrest : ∀ decl : StructDecl, decl.name.name ≠ name → (decl ∈ rest' ↔ decl ∈ rest))
    (hkeys : (s'.structs.get? name).isSome = true ↔
      ∃ found, s'.types.get? name = some found ∧ found.isStruct = true)
    (hprogress : ∀ info found, s'.structs.get? name = some info →
      s'.types.get? name = some found → s'.Progress imported rest' name info found) :
    s'.StructsUpTo imported rest' := by
  refine ⟨fun other => ?_, fun {other info found} hinfo hfound => ?_⟩
  · by_cases hother : other = name
    · rw [hother]
      exact hkeys
    · rw [hchange.structs other hother, hchange.types other hother]
      exact h.keys other
  · by_cases hother : other = name
    · subst hother
      exact hprogress info found hinfo hfound
    · have htypes := hchange.types other hother
      rw [hchange.structs other hother] at hinfo
      rw [htypes] at hfound
      have hfunction := hchange.functions other hother
      cases h.progress hinfo hfound with
      | waits decl hmem hname howns hempty hsame =>
        subst hname
        exact .waits decl ((hrest decl hother).2 hmem) rfl
          ((Declare.owns_congr htypes).trans howns) hempty (hfunction.trans hsame)
      | fits hothers hfits =>
        refine .fits (fun decl hmem hname => ?_)
          (hfits.of_kept hmodule rfl rfl fun value hvalue => hfunction.trans hvalue)
        subst hname
        rw [Declare.owns_congr htypes]
        exact hothers decl ((hrest decl hother).1 hmem) rfl

end Changes

/-! ## The declaration of a struct -/

namespace Declare

variable {decl : StructDecl} {name : String}

section Owner

variable {s : Symbols} {decl : StructDecl} {found : TypeAlias}

theorem get?_structs_withStruct (decl : StructDecl) (s : Symbols) :
    (withStruct decl s).structs.get? decl.name.name =
      some (withFields s ((s.structs.get? decl.name.name).getD {}) (resolvedFields decl s)
        decl.fields) :=
  Table.get?_insert_self _ _ _

theorem get?_types_withStruct (hfound : s.types.get? decl.name.name = some found) :
    (withStruct decl s).types.get? decl.name.name =
      some { found with ty := structType s decl.name.name (resolvedFields decl s) } := by
  simp only [withStruct, hfound]
  exact Table.get?_insert_self _ _ _

theorem get?_functions_withStruct (hnew : s.functions.get? decl.name.name = none) :
    ∃ value, (withStruct decl s).functions.get? decl.name.name = some value ∧
      value.Constructs (resolvedFields decl s)
        (structType s decl.name.name (resolvedFields decl s)) := by
  have hcontains : s.functions.contains decl.name.name = false := by
    rw [Table.contains, hnew]
    rfl
  simp only [withStruct, hcontains]
  refine ⟨_, Table.get?_insert_self _ _ _, _, rfl, ?_, rfl, rfl, rfl⟩
  rw [List.map_map]
  exact List.map_id _

/-- A struct has one owner among declarations at different places. -/
theorem owns_withStruct_eq_false (hfound : s.types.get? decl.name.name = some found)
    (howns : owns s decl.name = true) {other : StructDecl}
    (hname : other.name.name = decl.name.name) (hother : other.name ≠ decl.name) :
    owns (withStruct decl s) other.name = false := by
  have hrange : other.name.range ≠ decl.name.range := fun hrange =>
    hother (congrArg₂ Ident.mk hname hrange)
  rw [owns, hfound, Option.bind_some] at howns
  rw [owns, hname, get?_types_withStruct hfound, Option.bind_some]
  cases hdefinition : found.definition with
  | none => rfl
  | some d =>
    rw [hdefinition, Option.any_some, beq_iff_eq] at howns
    rw [Option.any_some, howns, beq_eq_false_iff_ne]
    exact hrange.symm

/-- With its declaration, the tables of a struct fit. -/
theorem fits_withStruct {imported : Table String Value} (found : TypeAlias)
    (hfunction : s.functions.get? decl.name.name = imported.get? decl.name.name) :
    (withStruct decl s).Fits imported decl.name.name
      (withFields s {} (resolvedFields decl s) decl.fields)
      { found with ty := structType s decl.name.name (resolvedFields decl s) } where
  ty := rfl
  nodup := by
    change ((resolvedFields decl s).map Prod.fst).Nodup
    rw [names_resolvedFields]
    exact nodup_names_firstFields _ _
  definitions field := by
    change (Table.contains (decl.fields.foldl _ _) field = true) ↔
      field ∈ (resolvedFields decl s).map Prod.fst
    have hempty : ({} : Table String Definition).contains field = false := rfl
    rw [contains_fieldDefinitions, names_resolvedFields, mem_names_firstFields]
    simp [hempty]
  constructor himported := by
    refine get?_functions_withStruct ?_
    rw [hfunction]
    simpa [Table.contains] using himported

end Owner

variable {imported : Table String Value} {rest : List StructDecl} {s : Symbols}

/-- The owner of a struct declares it. -/
theorem structsUpTo_withStruct {found : TypeAlias} (h : s.StructsUpTo imported (decl :: rest))
    (howns : owns s decl.name = true) (hfound : s.types.get? decl.name.name = some found)
    (hstruct : found.isStruct = true) (hrest : decl.name ∉ rest.map StructDecl.name) :
    (withStruct decl s).StructsUpTo imported rest := by
  obtain ⟨info, hinfo⟩ := Option.isSome_iff_exists.1 ((h.keys _).2 ⟨found, hfound, hstruct⟩)
  -- a struct whose tables fit already has no owner among the declarations to come
  cases h.progress hinfo hfound with
  | fits hothers => exact absurd (howns.symm.trans (hothers decl List.mem_cons_self rfl)) nofun
  | waits _ _ _ _ hempty hfunction =>
    subst hempty
    have hinfo' := get?_structs_withStruct decl s
    rw [hinfo, Option.getD_some] at hinfo'
    refine h.of_changedAt (withStruct_changedAt decl s) rfl (fun other hother => ?_) ?_
      fun info' found' hget hget' => ?_
    · rw [List.mem_cons]
      refine ⟨.inr, fun hmem => hmem.resolve_left ?_⟩
      rintro rfl
      exact hother rfl
    · rw [hinfo', get?_types_withStruct hfound]
      exact ⟨fun _ => ⟨_, rfl, hstruct⟩, fun _ => rfl⟩
    · rw [hinfo'] at hget
      rw [get?_types_withStruct hfound] at hget'
      obtain rfl := Option.some.inj hget
      obtain rfl := Option.some.inj hget'
      refine .fits (fun other hmem hname => ?_) (fits_withStruct found hfunction)
      refine owns_withStruct_eq_false hfound howns hname fun hident => hrest ?_
      exact hident ▸ List.mem_map_of_mem hmem

/-- A declaration that does not own its name is passed over. -/
theorem structsUpTo_of_not_owns (h : s.StructsUpTo imported (decl :: rest))
    (howns : owns s decl.name = false) : s.StructsUpTo imported rest := by
  refine ⟨h.keys, fun hinfo hfound => ?_⟩
  cases h.progress hinfo hfound with
  | waits other hmem hname hother hempty hfunction =>
    refine .waits other ((List.mem_cons.1 hmem).resolve_left ?_) hname hother hempty hfunction
    rintro rfl
    exact absurd (howns.symm.trans hother) nofun
  | fits hothers hfits =>
    exact .fits (fun other hmem => hothers other (List.mem_cons_of_mem _ hmem)) hfits

/-- An alias is entered under a name that no struct has. -/
theorem structsUpTo_insert_alias (h : s.StructsUpTo imported rest) (hnew : s.types.get? name = none)
    {found : TypeAlias} (hfound : found.isStruct = false) :
    Symbols.StructsUpTo { s with types := s.types.insert name found } imported rest := by
  -- a struct would be among the types
  have hnone : s.structs.get? name = none := by
    rw [← Option.not_isSome_iff_eq_none, h.keys]
    rintro ⟨_, hsome, -⟩
    cases hnew.symm.trans hsome
  have hchange : Symbols.ChangedAt name s { s with types := s.types.insert name found } :=
    ⟨rfl, rfl, fun _ _ => rfl, fun _ hk => Table.get?_insert_of_ne _ hk _, fun _ _ => rfl⟩
  refine h.of_changedAt hchange rfl (fun _ _ => .rfl) ?_
    fun info found hinfo => absurd (hnone.symm.trans hinfo) nofun
  simp [hnone, Table.get?_insert_self, hfound]

/-- A struct is entered under a new name, and waits for its fields. -/
theorem structsUpTo_register (h : s.StructsUpTo imported rest) (hmem : decl ∈ rest)
    (hfunctions : s.functions = imported) :
    Symbols.StructsUpTo
      { s with
        types := s.types.insert decl.name.name
          { ty := structType s decl.name.name [], definition := s.define decl.name.range
            isStruct := true }
        structs := s.structs.insert decl.name.name {} } imported rest := by
  have hchange (found : TypeAlias) : Symbols.ChangedAt decl.name.name s
      { s with
        types := s.types.insert decl.name.name found
        structs := s.structs.insert decl.name.name {} } :=
    ⟨rfl, rfl, fun _ _ => rfl, fun _ hk => Table.get?_insert_of_ne _ hk _,
      fun _ hk => Table.get?_insert_of_ne _ hk _⟩
  refine h.of_changedAt (hchange _) rfl (fun _ _ => .rfl) ?_ fun info found hinfo hfound => ?_
  · simp [Table.get?_insert_self]
  · rw [Table.get?_insert_self] at hinfo hfound
    obtain rfl := Option.some.inj hinfo
    refine .waits decl hmem rfl ?_ rfl (by rw [hfunctions])
    simp [owns, Table.get?_insert_self, Symbols.define]

/-! ## The phases -/

/-- Imports enter no structs. -/
theorem structsUpTo_imports (registry : Registry) (script : Script)
    (imported : Table String Value) (rest : List StructDecl) :
    (script.declaredUpTo registry .imports).symbols.StructsUpTo imported rest ∧
      (script.declaredUpTo registry .imports).symbols.types.All
        fun _ found => found.definition = none := by
  have hnone : (∀ name,
      (script.declaredUpTo registry .imports).symbols.structs.get? name = none) ∧
      (script.declaredUpTo registry .imports).symbols.types.All
        fun _ found => found.isStruct = false ∧ found.definition = none := by
    refine symbols_induction (d := ⟨{ registry, moduleName := script.name }, []⟩)
      (I := fun s => (∀ name, s.structs.get? name = none) ∧
        s.types.All fun _ found => found.isStruct = false ∧ found.definition = none)
      (fun hentry h => ?_) ⟨fun _ => rfl, .empty⟩
    cases hentry with
    | importedType => exact ⟨h.1, h.2.insert ⟨rfl, rfl⟩⟩
    | importedConstant | importedFunction | module => exact h
  refine ⟨⟨fun name => ?_, fun hinfo => absurd ((hnone.1 _).symm.trans hinfo) nofun⟩,
    fun entry hentry => (hnone.2 entry hentry).2⟩
  rw [hnone.1 name]
  refine ⟨nofun, ?_⟩
  rintro ⟨found, hfound, hstruct⟩
  exact absurd ((hnone.2.get? hfound).1.symm.trans hstruct) nofun

/-- All structs are registered, and wait for their fields. -/
theorem structsUpTo_structs {xs : List Item} {d : Declarations} {rest : List StructDecl}
    (hmem : ∀ decl, .struct decl ∈ xs → decl ∈ rest)
    (hd : d.symbols.StructsUpTo d.symbols.functions rest)
    (hdefined : d.symbols.types.All fun _ found => found.definition = none) :
    (afterPhase xs .structs d).symbols.StructsUpTo d.symbols.functions rest ∧
      (afterPhase xs .structs d).symbols.types.All
        fun _ found => found.definition.isSome → found.isStruct = true := by
  suffices h : (afterPhase xs .structs d).symbols.functions = d.symbols.functions ∧
      (afterPhase xs .structs d).symbols.StructsUpTo d.symbols.functions rest ∧
      (afterPhase xs .structs d).symbols.types.All
        fun _ found => found.definition.isSome → found.isStruct = true from h.2
  refine symbols_induction
    (I := fun s => s.functions = d.symbols.functions ∧
      s.StructsUpTo d.symbols.functions rest ∧
      s.types.All fun _ found => found.definition.isSome → found.isStruct = true)
    (fun hentry h => ?_) ⟨rfl, hd, fun entry hentry hsome => ?_⟩
  · obtain ⟨hfunctions, hstructs, htypes⟩ := h
    cases hentry with
    | struct decl hdecl hnew =>
      exact ⟨hfunctions, structsUpTo_register hstructs (hmem decl hdecl) hfunctions,
        htypes.insert fun _ => rfl⟩
  · rw [hdefined entry hentry] at hsome
    cases hsome

/-- Every declaration finds its name among the types, and what is defined there is a struct. -/
def StructsReady (s : Symbols) (rest : List StructDecl) : Prop :=
  ∀ decl ∈ rest, ∃ found, s.types.get? decl.name.name = some found ∧
    (found.definition.isSome → found.isStruct = true)

theorem StructsReady.withStruct (h : StructsReady s (decl :: rest)) :
    StructsReady (withStruct decl s) rest := by
  intro other hmem
  obtain ⟨found, hfound, hstruct⟩ := h other (List.mem_cons_of_mem _ hmem)
  by_cases hname : other.name.name = decl.name.name
  · rw [hname] at hfound ⊢
    exact ⟨_, get?_types_withStruct hfound, hstruct⟩
  · exact ⟨found, ((withStruct_changedAt decl s).types _ hname).trans hfound, hstruct⟩

theorem StructsReady.insert_alias (h : StructsReady s rest) (hnew : s.types.get? name = none)
    (found : TypeAlias) : StructsReady { s with types := s.types.insert name found } rest := by
  intro other hmem
  obtain ⟨found, hfound, hstruct⟩ := h other hmem
  exact ⟨found, Table.get?_insert_of_new hnew hfound, hstruct⟩

/-- After the phase that declares types, no struct waits. -/
theorem structsUpTo_types : (ys : List Item) → {d : Declarations} →
    ((structDecls ys).map StructDecl.name).Nodup → StructsReady d.symbols (structDecls ys) →
    d.symbols.StructsUpTo imported (structDecls ys) →
    (after (each typeItem ys) d).symbols.StructsUpTo imported []
  | [], _, _, _, h => h
  | .struct decl :: ys, d, hnames, hready, h => by
    obtain ⟨hname, hnames⟩ := List.nodup_cons.1 hnames
    obtain ⟨found, hfound, hstruct⟩ := hready decl List.mem_cons_self
    change (after (each typeItem ys) (after (structFields decl) d)).symbols.StructsUpTo _ _
    rw [after_structFields]
    cases howns : owns d.symbols decl.name with
    | true =>
      -- an imported type is defined nowhere, so that nobody owns it
      have hdefined : found.definition.isSome := by
        rw [owns, hfound, Option.bind_some] at howns
        cases hdefinition : found.definition with
        | none => simp [hdefinition] at howns
        | some => rfl
      exact structsUpTo_types ys hnames hready.withStruct
        (structsUpTo_withStruct h howns hfound (hstruct hdefined) hname)
    | false =>
      have hready' : StructsReady d.symbols (structDecls ys) :=
        fun other hmem => hready other (List.mem_cons_of_mem _ hmem)
      exact structsUpTo_types ys hnames hready' (structsUpTo_of_not_owns h howns)
  | .typeAlias decl :: ys, d, hnames, hready, h => by
    change (after (each typeItem ys) (after (typeAlias decl) d)).symbols.StructsUpTo _ _
    rw [typeAlias, after_enterNew]
    split
    · exact structsUpTo_types ys hnames hready h
    · rename_i hnew
      have hnone : d.symbols.types.get? decl.name.name = none := by
        simpa [Table.contains] using hnew
      exact structsUpTo_types ys hnames (hready.insert_alias hnone _)
        (structsUpTo_insert_alias h hnone rfl)
  | .use _ :: ys, _, hnames, hready, h | .const _ :: ys, _, hnames, hready, h
  | .function _ :: ys, _, hnames, hready, h | .methods _ :: ys, _, hnames, hready, h
  | .operators _ :: ys, _, hnames, hready, h => structsUpTo_types ys hnames hready h

theorem fits_of_structsUpTo_nil {info : StructInfo} {found : TypeAlias}
    (h : s.StructsUpTo imported []) (hinfo : s.structs.get? name = some info)
    (hfound : s.types.get? name = some found) : s.Fits imported name info found := by
  cases h.progress hinfo hfound with
  | waits _ hmem => cases hmem
  | fits _ hfits => exact hfits

/-- Blocks leave the fields of their struct alone. -/
theorem structsUpTo_withInfo {self : SelfType} {change : StructInfo → StructInfo}
    (h : s.StructsUpTo imported []) (hself : Symbols.selfOf? s name = some self)
    (hfields : ∀ info, (change info).fields = info.fields)
    (hdefinitions : ∀ info, (change info).fieldDefinitions = info.fieldDefinitions) :
    (withInfo s self.name change).StructsUpTo imported [] := by
  obtain ⟨found, hfound, hstruct, rfl⟩ := exists_of_selfOf? hself
  obtain ⟨info, hinfo⟩ := Option.isSome_iff_exists.1 ((h.keys _).2 ⟨found, hfound, hstruct⟩)
  have hinfo' : (withInfo s name change).structs.get? name = some (change info) := by
    rw [get?_withInfo s rfl, hinfo, Option.getD_some]
  refine h.of_changedAt (withInfo_changedAt s name change) rfl (fun _ _ => .rfl) ?_
    fun info₁ found₁ hinfo₁ hfound₁ => ?_
  · rw [hinfo']
    exact ⟨fun _ => ⟨found, hfound, hstruct⟩, fun _ => rfl⟩
  · obtain rfl := Option.some.inj (hinfo'.symm.trans hinfo₁)
    exact .fits nofun ((fits_of_structsUpTo_nil h hinfo hfound₁).of_kept rfl (hfields info)
      (hdefinitions info) fun _ h => h)

/-- Functions and constants are entered next to the structs. -/
theorem structsUpTo_step {xs : List Item} {phase : Phase} {d d' : Declarations}
    (hphase : phase = .functions ∨ phase = .constants) (hstep : Step xs phase d d')
    (h : d.symbols.StructsUpTo imported []) : d'.symbols.StructsUpTo imported [] := by
  cases hstep with
  | complaint => exact h
  | entry hentry =>
    cases hentry with
    | importedConstant | importedFunction | importedType | module | struct | fields | typeAlias =>
      simp at hphase
    | function decl _ hnew =>
      refine ⟨h.keys, fun hinfo hfound => .fits nofun ?_⟩
      exact (fits_of_structsUpTo_nil h hinfo hfound).of_kept rfl rfl rfl
        fun _ hvalue => Table.get?_insert_of_new hnew hvalue
    | method block _ self hself =>
      dsimp only
      refine structsUpTo_withInfo h hself ?_ ?_ <;> exact fun _ => rfl
    | operator block _ self hself decl _ op side overload =>
      dsimp only
      refine structsUpTo_withInfo h hself ?_ ?_ <;> cases side <;> exact fun _ => rfl
    | constant =>
      refine ⟨h.keys, fun hinfo hfound => .fits nofun ?_⟩
      exact (fits_of_structsUpTo_nil h hinfo hfound).of_kept rfl rfl rfl fun _ h => h

end Declare

/-- If no two structs are declared under the same name at the same place, the tables of structs fit
together after the first pass: the structs are the types that are marked as such, the type of a
struct is the record of its fields, which have different names and are all defined, and its
constructor is the function of its name, unless a function of this name is imported. -/
theorem struct_tables_fit (registry : Registry) (script : Script)
    (hnames : ((structDecls script.items).map StructDecl.name).Nodup) (name : String) :
    (((script.validate registry).symbols.structs.get? name).isSome = true ↔
      ∃ found, (script.validate registry).symbols.types.get? name = some found ∧
        found.isStruct = true) ∧
    ∀ info found, (script.validate registry).symbols.structs.get? name = some info →
      (script.validate registry).symbols.types.get? name = some found →
      (script.validate registry).symbols.Fits
        (script.declaredUpTo registry .imports).symbols.functions name info found := by
  let imported := (script.declaredUpTo registry .imports).symbols.functions
  obtain ⟨himports, hdefined⟩ :=
    Declare.structsUpTo_imports registry script imported (structDecls script.items)
  obtain ⟨hstructs, hdefined⟩ :=
    Declare.structsUpTo_structs (fun _ hmem => mem_structDecls.2 hmem) himports hdefined
  have hready : Declare.StructsReady (script.declaredUpTo registry .structs).symbols
      (structDecls script.items) := by
    intro decl hmem
    obtain ⟨found, hfound⟩ := Option.isSome_iff_exists.1
      (isSome_types_afterPhase_structs script.items (mem_structDecls.1 hmem)
        (script.declaredUpTo registry .imports))
    exact ⟨found, hfound, hdefined.get? hfound⟩
  have htypes := Declare.structsUpTo_types script.items hnames hready hstructs
  have hfunctions :
      (script.declaredUpTo registry .functions).symbols.StructsUpTo imported [] :=
    Declare.afterPhase_induction (I := fun d => d.symbols.StructsUpTo imported [])
      (fun hstep => Declare.structsUpTo_step (.inl rfl) hstep) htypes
  have hend : (script.declarations registry).symbols.StructsUpTo imported [] := by
    rw [Script.declarations_eq]
    exact Declare.afterPhase_induction (I := fun d => d.symbols.StructsUpTo imported [])
      (fun hstep => Declare.structsUpTo_step (.inr rfl) hstep) hfunctions
  exact ⟨hend.keys name, fun info found => Declare.fits_of_structsUpTo_nil hend⟩

/-- The script
`struct Point ( x : int, y : float, x : string )`,
`struct Point ( z : int )`,
`type Point = int`,
`fn Point() -> int = 0`,
`impl Point { fn height(self) -> float = self.y }`
in which all but the first declaration and the method are refused. -/
def points : Script :=
  let elsewhere : Range := { start := { offset := 60 }, stop := { offset := 65 } }
  .ofItems
    [.ofStruct "Point" [("x", .plain "int"), ("y", .plain "float"), ("x", .plain "string")],
      .struct
        { name := ⟨"Point", elsewhere⟩, fields := [{ name := ⟨"z", {}⟩, type := .plain "int" }]
          range := {} },
      .ofAlias "Point" "int", .function (.ofBody "Point" [] "int" (.int {} 0)),
      .methods (.ofFunctions "Point"
        [.ofBody "height" [.self] "float" (.ofField (.ofName "self") "y")])]

/-- The tables of `Point` fit together in spite of all repetitions. -/
theorem struct_tables_fit_points :
    ((structDecls points.items).map StructDecl.name).Nodup ∧
      ((points.validate .empty).symbols.structs.get? "Point").map StructInfo.fields =
        some [("x", .int), ("y", .float)] ∧
      ∃ info found, (points.validate .empty).symbols.structs.get? "Point" = some info ∧
        (points.validate .empty).symbols.types.get? "Point" = some found ∧
        (points.validate .empty).symbols.Fits
          (points.declaredUpTo .empty .imports).symbols.functions "Point" info found := by
  have hnames : ((structDecls points.items).map StructDecl.name).Nodup := by decide
  obtain ⟨hkeys, hfits⟩ := struct_tables_fit .empty points hnames "Point"
  obtain ⟨info, hinfo⟩ :
      ∃ info, (points.validate .empty).symbols.structs.get? "Point" = some info :=
    Option.isSome_iff_exists.1 (by decide +kernel)
  obtain ⟨found, hfound, -⟩ := hkeys.1 (Option.isSome_of_eq_some hinfo)
  exact ⟨hnames, by decide +kernel, info, found, hinfo, hfound, hfits info found hinfo hfound⟩

end ScriptCheck
