import ScriptCheck.Proofs.Footprints

/-!
# Footprints of the first pass

What each declaration of a script looks at and writes to. A struct or an alias fills the cells of
its own name and looks at the types that its annotations mention. A function, a method or an
operator overload looks at all types; it fills the cell of its name, of the method or of the
operators of the struct. That a block finds an entry for its struct is the invariant
`Symbols.Registered`.
-/

namespace ScriptCheck

/-! ## Cells of a name -/

/-- The type, struct or function that a cell belongs to. -/
def Cell.owner? : Cell → Option String
  | .function name | .type name | .fields name | .operators name | .method name _ => some name
  | .constant _ | .module _ => none

namespace Symbols

variable {s s' : Symbols} {name : String}

theorem read_owned_iff :
    (∀ cell : Cell, cell.owner? = some name → s.read cell = s'.read cell) ↔
      s.types.get? name = s'.types.get? name ∧ s.functions.get? name = s'.functions.get? name ∧
        Option.Rel StructInfo.Agree (s.structs.get? name) (s'.structs.get? name) := by
  constructor
  · intro h
    exact ⟨Cell.Content.type.inj (h (.type name) rfl),
      Cell.Content.value.inj (h (.function name) rfl),
      structs_rel_iff.2 ⟨h _ rfl, h _ rfl, fun _ => h _ rfl⟩⟩
  · rintro ⟨htype, hfunction, hstruct⟩ cell hcell
    obtain ⟨hfields, hoperators, hmethods⟩ := structs_rel_iff.1 hstruct
    cases cell with
    | constant | module => cases hcell
    | function => obtain rfl := Option.some.inj hcell; exact congrArg _ hfunction
    | type => obtain rfl := Option.some.inj hcell; exact congrArg _ htype
    | fields => obtain rfl := Option.some.inj hcell; exact hfields
    | operators => obtain rfl := Option.some.inj hcell; exact hoperators
    | method _ method => obtain rfl := Option.some.inj hcell; exact hmethods method

/-- The second symbols come from the first by a change to what `name` stands for. -/
structure ChangedAt (name : String) (s s' : Symbols) : Prop where
  constants : s'.constants = s.constants
  modules : s'.modules = s.modules
  functions : ∀ k ≠ name, s'.functions.get? k = s.functions.get? k
  types : ∀ k ≠ name, s'.types.get? k = s.types.get? k
  structs : ∀ k ≠ name, s'.structs.get? k = s.structs.get? k

theorem ChangedAt.read (h : ChangedAt name s s') (cell : Cell) (hcell : cell.owner? ≠ some name) :
    s'.read cell = s.read cell := by
  cases cell with
  | constant => simp only [Symbols.read, h.constants]
  | module => simp only [Symbols.read, h.modules]
  | function k => simp only [Symbols.read, h.functions k fun h => hcell (congrArg some h)]
  | type k => simp only [Symbols.read, h.types k fun h => hcell (congrArg some h)]
  | fields k | operators k | method k =>
    simp only [Symbols.read, h.structs k fun h => hcell (congrArg some h)]

theorem fieldsOf_eq (s : Symbols) (name : QName) (items : List (String × Ty)) :
    s.fieldsOf name items = ((s.struct? name).map StructInfo.fields).getD items := by
  rw [fieldsOf]
  cases s.struct? name <;> rfl

end Symbols

/-- The cells that annotations look at which mention the given names. -/
def lookups (names : Set String) : Set Cell :=
  {cell | (∃ module, cell = .module module) ∨ ∃ name ∈ names, cell = .type name}

/-- Annotations stand for the same if the cells that they look at hold the same. -/
theorem View.AgreeOn.of_read {s s' : Symbols} {names : List String} (hscript : s.SameScript s')
    (h : ∀ cell ∈ lookups {name | name ∈ names}, s.read cell = s'.read cell)
    (self : Option SelfType) :
    View.AgreeOn names { symbols := s, self } { symbols := s', self } where
  registry := hscript.registry
  member module name := by
    have hmodule := Cell.Content.module.inj (h (.module module) (Or.inl ⟨module, rfl⟩))
    simp only [View.type?, Symbols.type?, Symbols.module?, hmodule, hscript.registry]
    rfl
  type? name hname := by
    have htype := Cell.Content.type.inj (h (.type name) (Or.inr ⟨name, hname, rfl⟩))
    simp only [View.type?, Symbols.type?, htype]
    rfl

/-! ## Structs are registered -/

/-- Every name that stands for a struct has an entry among the structs. -/
def Symbols.Registered (s : Symbols) : Prop :=
  ∀ name found, s.types.get? name = some found → found.isStruct = true →
    (s.structs.get? name).isSome

/-- New names for structs are entered among the structs, and no struct is removed. -/
theorem Symbols.Registered.mono {s s' : Symbols} (h : s.Registered)
    (htypes : ∀ name found, s'.types.get? name = some found → found.isStruct = true →
      (s'.structs.get? name).isSome ∨
        ∃ old, s.types.get? name = some old ∧ old.isStruct = true)
    (hstructs : ∀ name, (s.structs.get? name).isSome → (s'.structs.get? name).isSome) :
    s'.Registered := by
  intro name found hfound hstruct
  rcases htypes name found hfound hstruct with hnew | ⟨old, hold, hstruct⟩
  · exact hnew
  · exact hstructs name (h name old hold hstruct)

theorem Symbols.Registered.enterType {s : Symbols} (h : s.Registered) (name : String)
    {found : TypeAlias} (hfound : found.isStruct = false) :
    Registered { s with types := s.types.insert name found } := by
  refine h.mono (fun k other hother hstruct => ?_) fun k hk => hk
  rw [Table.get?_insert] at hother
  split at hother
  · obtain rfl := Option.some.inj hother
    rw [hfound] at hstruct
    cases hstruct
  · exact Or.inr ⟨other, hother, hstruct⟩

namespace Declare

variable {s : Symbols} {name : String}

/-! ## Structs and aliases -/

/-- The cells that belong to a name. -/
def owned (name : String) : Set Cell := {cell | cell.owner? = some name}

theorem footprint_register (decl : StructDecl) :
    Footprint Symbols.Registered (register decl) (owned decl.name.name) (owned decl.name.name) := by
  refine .enterNew subset_rfl (fun s => ⟨rfl, rfl⟩) (fun s hs => hs.mono ?_ ?_)
    (fun s _ cell hcell => ?_) (fun s s' _ _ hscript hread => ?_)
  · intro name found hfound hstruct
    simp only [Table.get?_insert] at hfound ⊢
    split_ifs at hfound ⊢
    · exact Or.inl rfl
    · exact Or.inr ⟨found, hfound, hstruct⟩
  · intro name hname
    simp only [Table.get?_insert]
    split_ifs
    · rfl
    · exact hname
  · refine Symbols.ChangedAt.read ?_ cell hcell
    exact ⟨rfl, rfl, fun _ _ => rfl, fun _ hk => Table.get?_insert_of_ne _ hk _,
      fun _ hk => Table.get?_insert_of_ne _ hk _⟩
  · obtain ⟨htype, hfunction, -⟩ := Symbols.read_owned_iff.1 hread
    refine ⟨by rw [Table.contains, Table.contains, htype], ?_⟩
    refine Symbols.read_owned_iff.2 ⟨?_, hfunction, ?_⟩
    · simp only [Table.get?_insert_self, structType, Symbols.qualify, Symbols.define,
        hscript.moduleName]
    · simp only [Table.get?_insert_self]
      exact .some (.refl _)

theorem footprint_typeAlias (decl : AliasDecl) :
    Footprint Symbols.Registered (typeAlias decl)
      (owned decl.name.name ∪ lookups {name | name ∈ decl.type.names}) (owned decl.name.name) := by
  refine .enterNew Set.subset_union_left (fun s => ⟨rfl, rfl⟩) (fun s hs => hs.enterType _ rfl)
    (fun s _ cell hcell => ?_) (fun s s' _ _ hscript hread => ?_)
  · refine Symbols.ChangedAt.read ?_ cell hcell
    exact ⟨rfl, rfl, fun _ _ => rfl, fun _ hk => Table.get?_insert_of_ne _ hk _, fun _ _ => rfl⟩
  · obtain ⟨htype, hfunction, hstruct⟩ := Symbols.read_owned_iff.1 fun cell hcell =>
      hread cell (Or.inl hcell)
    have hresolve := decl.type.resolve_congr
      (.of_read hscript (fun cell hcell => hread cell (Or.inr hcell)) none)
    refine ⟨by rw [Table.contains, Table.contains, htype], ?_⟩
    refine Symbols.read_owned_iff.2 ⟨?_, hfunction, hstruct⟩
    simp only [Table.get?_insert_self, hresolve, Symbols.define, hscript.moduleName]

theorem mem_of_mem_firstFields {f : FieldDecl} : {seen : List String} → {fields : List FieldDecl} →
    f ∈ firstFields seen fields → f ∈ fields
  | _, [], h => by simp [firstFields] at h
  | seen, g :: rest, h => by
    rw [firstFields] at h
    split at h
    · exact List.mem_cons_of_mem _ (mem_of_mem_firstFields h)
    · rcases List.mem_cons.1 h with rfl | h
      · exact List.mem_cons_self
      · exact List.mem_cons_of_mem _ (mem_of_mem_firstFields h)

/-- The type names that the fields of a struct mention. -/
def fieldNames (decl : StructDecl) : List String := decl.fields.flatMap fun f => f.type.names

theorem resolvedFields_congr {decl : StructDecl} {s s' : Symbols} (hscript : s.SameScript s')
    (h : ∀ cell ∈ lookups {name | name ∈ fieldNames decl}, s.read cell = s'.read cell) :
    resolvedFields decl s = resolvedFields decl s' := by
  refine List.map_congr_left fun f hf => ?_
  have hagree : View.AgreeOn (fieldNames decl) { symbols := s } { symbols := s' } :=
    .of_read hscript h none
  have hmention : f.type.names ⊆ fieldNames decl := fun name hname =>
    List.mem_flatMap.2 ⟨f, mem_of_mem_firstFields hf, hname⟩
  rw [f.type.resolve_congr (hagree.mono hmention)]

/-- What there is to complain about in a struct and its constructor. -/
def structComplaints (decl : StructDecl) (s : Symbols) : List Diagnostic :=
  (repeatedFields [] decl.fields).map (fun name =>
      ⟨.error, .duplicate .field name.name, name.range⟩) ++
    if s.functions.contains decl.name.name then
      [⟨.error, .duplicate .function decl.name.name, decl.name.range⟩]
    else []

theorem after_duplicates (kind : SymbolKind) : (names : List Ident) → (d : Declarations) →
    after (each (duplicate kind) names) d =
      { d with diagnostics := d.diagnostics ++ names.map fun name =>
        ⟨.error, .duplicate kind name.name, name.range⟩ }
  | [], d => by
    rw [List.map_nil, List.append_nil]
    rfl
  | name :: rest, d => by
    rw [each, after_bind, after_duplicates kind rest, List.map_cons, List.append_cons]
    rfl

theorem after_structFields (decl : StructDecl) (d : Declarations) :
    after (structFields decl) d =
      ⟨if owns d.symbols decl.name then withStruct decl d.symbols else d.symbols,
        d.diagnostics ++
          if owns d.symbols decl.name then structComplaints decl d.symbols else []⟩ := by
  rw [structFields, after_symbols, after_ite]
  split
  · rw [after_bind, after_duplicates, after_bind, after_ite]
    unfold structComplaints
    split
    · rw [← List.append_assoc]
      rfl
    · rw [List.append_nil]
      rfl
  · rw [List.append_nil]
    rfl

theorem withStruct_changedAt (decl : StructDecl) (s : Symbols) :
    Symbols.ChangedAt decl.name.name s (withStruct decl s) := by
  refine ⟨rfl, rfl, fun k hk => ?_, fun k hk => ?_, fun k hk => Table.get?_insert_of_ne _ hk _⟩
  · simp only [withStruct]
    split
    · rfl
    · exact Table.get?_insert_of_ne _ hk _
  · simp only [withStruct]
    split
    · exact Table.get?_insert_of_ne _ hk _
    · rfl

theorem withStruct_registered (decl : StructDecl) (hs : s.Registered) :
    (withStruct decl s).Registered := by
  have hstructs : ∀ name, name = decl.name.name ∨ (s.structs.get? name).isSome →
      ((withStruct decl s).structs.get? name).isSome := by
    intro name hname
    simp only [withStruct, Table.get?_insert]
    split_ifs with h
    · rfl
    · exact hname.resolve_left h
  refine hs.mono (fun name found hfound hstruct => ?_) fun name hname =>
    hstructs name (Or.inr hname)
  by_cases h : name = decl.name.name
  · exact Or.inl (hstructs name (Or.inl h))
  · rw [(withStruct_changedAt decl s).types name h] at hfound
    exact Or.inr ⟨found, hfound, hstruct⟩

/-- What a struct declares is decided by the cells of its name and by the types of its fields. -/
theorem withStruct_congr {decl : StructDecl} {s s' : Symbols} (hscript : s.SameScript s')
    (howned : ∀ cell ∈ owned decl.name.name, s.read cell = s'.read cell)
    (hfields : resolvedFields decl s = resolvedFields decl s') :
    ∀ cell ∈ owned decl.name.name,
      (withStruct decl s).read cell = (withStruct decl s').read cell := by
  obtain ⟨htype, hfunction, hstruct⟩ := Symbols.read_owned_iff.1 howned
  have hty (fields) : structType s decl.name.name fields = structType s' decl.name.name fields := by
    simp only [structType, Symbols.qualify, hscript.moduleName]
  have hdefine (range) : s.define range = s'.define range := by
    simp only [Symbols.define, hscript.moduleName]
  refine Symbols.read_owned_iff.2 ⟨?_, ?_, ?_⟩
  · simp only [withStruct, htype, hfields, hty]
    split
    · simp only [Table.get?_insert_self]
    · exact htype
  · have hcontains :
        s.functions.contains decl.name.name = s'.functions.contains decl.name.name := by
      rw [Table.contains, Table.contains, hfunction]
    simp only [withStruct, constructorValue, hfields, hty, hdefine]
    rw [hcontains]
    split
    · exact hfunction
    · simp only [Table.get?_insert_self]
  · simp only [withStruct, Table.get?_insert_self]
    refine .some ?_
    have hinfo : StructInfo.Agree ((s.structs.get? decl.name.name).getD {})
        ((s'.structs.get? decl.name.name).getD {}) := by
      generalize s.structs.get? decl.name.name = info, s'.structs.get? decl.name.name = info'
        at hstruct
      cases hstruct with
      | some h => exact h
      | none => exact .refl _
    refine ⟨hfields, ?_, ?_, hinfo.methods, hinfo.prefixOperators, hinfo.suffixOperators⟩
    · simp only [withFields, hinfo.fieldDefinitions, hdefine]
    · simp only [withFields, hinfo.fieldDescriptions]

theorem footprint_structFields (decl : StructDecl) :
    Footprint Symbols.Registered (structFields decl)
      (owned decl.name.name ∪ lookups {name | name ∈ fieldNames decl})
      (owned decl.name.name) := by
  refine .of_effect (fun s => if owns s decl.name then withStruct decl s else s)
    (fun s => if owns s decl.name then structComplaints decl s else []) (after_structFields decl)
    (fun s => ?_) (fun s hs => ?_) (fun s _ cell hcell => ?_) (fun s s' _ _ hscript hread => ?_)
  · split
    · exact ⟨rfl, rfl⟩
    · exact .refl s
  · split
    · exact withStruct_registered decl hs
    · exact hs
  · split
    · exact (withStruct_changedAt decl s).read cell hcell
    · rfl
  · have howned := fun cell hcell => hread cell (Or.inl hcell)
    obtain ⟨htype, hfunction, -⟩ := Symbols.read_owned_iff.1 howned
    have howns : owns s decl.name = owns s' decl.name := by rw [owns, owns, htype]
    have hcomplaints : structComplaints decl s = structComplaints decl s' := by
      rw [structComplaints, structComplaints, Table.contains, Table.contains, hfunction]
    refine ⟨fun cell hcell => ?_, by simp only [howns, hcomplaints]⟩
    simp only [howns]
    split
    · exact withStruct_congr hscript howned
        (resolvedFields_congr hscript fun cell hcell => hread cell (Or.inr hcell)) cell hcell
    · exact howned cell hcell

/-! ## Functions -/

/-- The type of a function is decided by what all type names stand for. -/
theorem signature_congr {s s' : Symbols} (hscript : s.SameScript s')
    (h : ∀ cell ∈ lookups Set.univ, s.read cell = s'.read cell) (self : Option SelfType)
    (decl : FunctionDecl) (isMethod : Bool) :
    signature { symbols := s, self } decl isMethod =
      signature { symbols := s', self } decl isMethod := by
  have hresolve (spec : TypeSpec) :
      spec.resolve { symbols := s, self } = spec.resolve { symbols := s', self } := by
    refine spec.resolve_congr (.of_read hscript (fun cell hcell => h cell ?_) self)
    exact hcell.imp_right fun ⟨name, _, hname⟩ => ⟨name, trivial, hname⟩
  simp only [signature, hresolve]

theorem footprint_function (decl : FunctionDecl) :
    Footprint Symbols.Registered (enterFunction .module decl)
      ({.function decl.name.name} ∪ lookups Set.univ) {.function decl.name.name} := by
  rw [enterFunction_module]
  refine .enterNew Set.subset_union_left (fun s => ⟨rfl, rfl⟩) (fun s hs => hs)
    (fun s _ cell hcell => ?_) (fun s s' _ _ hscript hread => ?_)
  · cases cell with
    | function k =>
      have hk : k ≠ decl.name.name := fun h => hcell (congrArg Cell.function h)
      simp only [Symbols.read, Table.get?_insert_of_ne _ hk]
    | constant | module | type | fields | operators | method => rfl
  · have hfunction := Cell.Content.value.inj (hread (.function decl.name.name) (Or.inl rfl))
    have hsignature := signature_congr hscript (fun cell hcell => hread cell (Or.inr hcell)) none
      decl false
    refine ⟨by rw [Table.contains, Table.contains, hfunction], ?_⟩
    rintro _ rfl
    simp only [Symbols.read, Table.get?_insert_self, functionValue, hsignature, Symbols.define,
      hscript.moduleName]

/-! ## Blocks for a struct -/

theorem footprint_fail (inv : Symbols → Prop) (problem : Problem) (range : Range) :
    Footprint inv (fail problem range) ∅ ∅ :=
  .of_effect (fun s => s) (fun _ => [⟨.error, problem, range⟩]) (fun _ => rfl) (fun s => .refl s)
    (fun _ h => h) (fun _ _ _ _ => rfl) (fun _ _ _ _ _ _ => ⟨fun _ h => h.elim, rfl⟩)

/-- Blocks are declared for a struct that has an entry. -/
def Extends (struct : String) (s : Symbols) : Prop :=
  s.Registered ∧ (s.structs.get? struct).isSome

/-- `Self` stands for a struct among the types. -/
theorem exists_of_selfOf? {self : SelfType} (h : Symbols.selfOf? s name = some self) :
    ∃ found, s.types.get? name = some found ∧ found.isStruct = true ∧ self = ⟨name, found.ty⟩ := by
  unfold Symbols.selfOf? at h
  split at h
  · rename_i found hfound
    split at h
    · rename_i hstruct
      exact ⟨found, hfound, hstruct, (Option.some.inj h).symm⟩
    · cases h
  · cases h

theorem Extends.of_selfOf? {self : SelfType} (hs : s.Registered)
    (h : Symbols.selfOf? s name = some self) : Extends name s := by
  obtain ⟨found, hfound, hstruct, -⟩ := exists_of_selfOf? h
  exact ⟨hs, hs name found hfound hstruct⟩

theorem name_of_selfOf? {self : SelfType} (h : Symbols.selfOf? s name = some self) :
    self = ⟨name, self.ty⟩ := by
  obtain ⟨_, _, _, rfl⟩ := exists_of_selfOf? h
  rfl

/-- A block enters its functions for the struct that it extends. -/
theorem after_block (owner : SelfType → Owner) (decl : ImplDecl) (d : Declarations) :
    after (block owner decl) d =
      match d.symbols.selfOf? decl.name.name with
      | some self => after (each (enterFunction (owner self)) decl.functions) d
      | none => after (fail (.undefined .struct decl.name.name none) decl.name.range) d := by
  rw [block, after_symbols]
  cases d.symbols.selfOf? decl.name.name <;> rfl

/-- A block looks at what its functions look at and whether its name stands for a struct. -/
theorem footprint_block {owner : SelfType → Owner} {decl : ImplDecl} {reads writes : Set Cell}
    (hf : ∀ self : SelfType, self.name = decl.name.name → ∀ f ∈ decl.functions,
      Footprint (Extends decl.name.name) (enterFunction (owner self) f) reads writes)
    (htype : .type decl.name.name ∈ reads) (hsub : writes ⊆ reads) :
    Footprint Symbols.Registered (block owner decl) reads writes := by
  have hfail := (footprint_fail Symbols.Registered (.undefined .struct decl.name.name none)
    decl.name.range).mono (Set.empty_subset reads) (Set.empty_subset writes) hsub
  have heach {s : Symbols} {self : SelfType} (hself : s.selfOf? decl.name.name = some self) :
      Footprint (Extends decl.name.name) (each (enterFunction (owner self)) decl.functions) reads
        writes :=
    .each _ (hf self (congrArg SelfType.name (name_of_selfOf? hself))) hsub
  have hself {d d' : Declarations} (h : d.symbols.read (.type decl.name.name) =
      d'.symbols.read (.type decl.name.name)) :
      d.symbols.selfOf? decl.name.name = d'.symbols.selfOf? decl.name.name := by
    rw [Symbols.selfOf?, Symbols.selfOf?, Cell.Content.type.inj h]
  constructor
  · intro d
    rw [after_block]
    split
    · rename_i self hself
      exact (heach hself).script d
    · exact hfail.script d
  · intro d hd
    rw [after_block]
    split
    · rename_i self hself
      exact ((heach hself).keeps d (.of_selfOf? hd hself)).1
    · exact hfail.keeps d hd
  · intro d hd
    rw [after_block]
    split
    · rename_i self hself
      exact (heach hself).frame d (.of_selfOf? hd hself)
    · exact hfail.frame d hd
  · intro d d' hd hd' hscript hread
    rw [after_block, after_block, ← hself (hread _ htype)]
    split
    · rename_i self hfound
      exact (heach hfound).decided d d' (.of_selfOf? hd hfound)
        (.of_selfOf? hd' (hself (hread _ htype) ▸ hfound)) hscript hread
    · exact hfail.decided d d' hd hd' hscript hread

theorem get?_withInfo (s : Symbols) {name other : String} (h : name = other)
    (change : StructInfo → StructInfo) :
    (withInfo s name change).structs.get? other = some (change ((s.structs.get? name).getD {})) :=
  h ▸ Table.get?_insert_self _ _ _

theorem withInfo_changedAt (s : Symbols) (name : String) (change : StructInfo → StructInfo) :
    Symbols.ChangedAt name s (withInfo s name change) :=
  ⟨rfl, rfl, fun _ _ => rfl, fun _ _ => rfl, fun _ hk => Table.get?_insert_of_ne _ hk _⟩

theorem withInfo_extends (hs : Extends name s) (change : StructInfo → StructInfo) :
    Extends name (withInfo s name change) := by
  have hstructs (k : String) (hk : (s.structs.get? k).isSome) :
      ((withInfo s name change).structs.get? k).isSome := by
    simp only [withInfo, Table.get?_insert]
    split
    · rfl
    · exact hk
  exact ⟨hs.1.mono (fun _ found hfound hstruct => Or.inr ⟨found, hfound, hstruct⟩) hstructs,
    hstructs name hs.2⟩

/-- What a cell of a struct holds, given what is known about the struct. -/
def ofInfo (info : StructInfo) : Cell → Cell.Content
  | .fields _ => .fields (some (info.fields, info.fieldDefinitions, info.fieldDescriptions))
  | .operators _ => .operators (some (info.prefixOperators, info.suffixOperators))
  | .method _ name => .value (info.methods.get? name)
  | .constant _ | .function _ | .module _ | .type _ => .value none

/-- A change to one cell of a struct leaves the other cells alone. -/
theorem read_withInfo (hs : Extends name s) (change : StructInfo → StructInfo) {cell : Cell}
    (hsame : cell.owner? = some name → ∀ info, ofInfo (change info) cell = ofInfo info cell) :
    (withInfo s name change).read cell = s.read cell := by
  obtain ⟨info, hinfo⟩ := Option.isSome_iff_exists.1 hs.2
  by_cases howner : cell.owner? = some name
  · have hcell := hsame howner info
    cases cell with
    | constant | module => cases howner
    | function | type => rfl
    | fields | operators | method =>
      obtain rfl := Option.some.inj howner
      simp only [Symbols.read, withInfo, Table.get?_insert_self, hinfo]
      exact hcell
  · exact (withInfo_changedAt s name change).read cell howner

/-- The methods that the functions of a block declare. -/
def methodCells (decl : ImplDecl) : Set Cell :=
  {cell | ∃ f ∈ decl.functions, cell = .method decl.name.name f.name.name}

theorem footprint_method (self : SelfType) (decl : FunctionDecl) :
    Footprint (Extends self.name) (enterFunction (.methods self) decl)
      ({.method self.name decl.name.name} ∪ lookups Set.univ)
      {.method self.name decl.name.name} := by
  cases hreceiver : hasReceiver decl with
  | true =>
    rw [enterFunction_method self hreceiver]
    refine .enterNew Set.subset_union_left (fun s => ⟨rfl, rfl⟩) (fun s hs => withInfo_extends hs _)
      (fun s hs cell hcell => ?_) (fun s s' _ _ hscript hread => ?_)
    · refine read_withInfo hs _ fun howner info => ?_
      cases cell with
      | method _ name =>
        obtain rfl := Option.some.inj howner
        have hname : name ≠ decl.name.name := fun h => hcell (congrArg (Cell.method _) h)
        exact congrArg _ (Table.get?_insert_of_ne _ hname _)
      | constant | function | module | type | fields | operators => rfl
    · have hlookup (s : Symbols) :
        ((s.structs.get? self.name).getD {}).methods.get? decl.name.name =
          (s.structs.get? self.name).bind fun info => info.methods.get? decl.name.name := by
        cases s.structs.get? self.name <;> rfl
      have hentry := Cell.Content.value.inj (hread (.method self.name decl.name.name) (Or.inl rfl))
      have hsignature := signature_congr hscript (fun cell hcell => hread cell (Or.inr hcell)) self
        decl true
      refine ⟨by rw [Table.contains, Table.contains, hlookup, hlookup, hentry], ?_⟩
      rintro _ rfl
      simp only [Symbols.read, withInfo, Table.get?_insert_self, Option.bind_some, functionValue,
        hsignature, Symbols.define, hscript.moduleName]
  | false =>
    have hrefused (s : Symbols) : withFunction (.methods self) decl s =
        .error (.badDeclaration (.noReceiver decl.name.name self.name)) := by
      simp [withFunction, hreceiver]
    refine .of_entry Set.subset_union_left ?_ ?_ ?_ fun _ _ _ _ =>
      .inl ⟨_, hrefused _, hrefused _⟩
    all_goals
      intro s t hok
      rw [hrefused] at hok
      cases hok

theorem footprint_methods (decl : ImplDecl) :
    Footprint Symbols.Registered (block .methods decl) (methodCells decl ∪ lookups Set.univ)
      (methodCells decl) := by
  refine footprint_block (fun self hself f hf => ?_) (Or.inr (Or.inr ⟨_, trivial, rfl⟩))
    Set.subset_union_left
  have hcell : {.method self.name f.name.name} ⊆ methodCells decl := by
    rintro _ rfl
    exact ⟨f, hf, by rw [hself]⟩
  rw [← hself]
  exact (footprint_method self f).mono (Set.union_subset_union_left _ hcell) hcell
    Set.subset_union_left

/-- The cells that decide what a block of operators declares: those of all types, and the fields of
all structs for the comparison of operand types. -/
def operandCells : Set Cell := lookups Set.univ ∪ {cell | ∃ struct, cell = .fields struct}

theorem fieldsOf_congr {s s' : Symbols} (hscript : s.SameScript s')
    (h : ∀ struct, s.read (.fields struct) = s'.read (.fields struct)) (name : QName)
    (items : List (String × Ty)) : s.fieldsOf name items = s'.fieldsOf name items := by
  have hfields :
      (s.struct? name).map StructInfo.fields = (s'.struct? name).map StructInfo.fields := by
    rw [Symbols.struct?, Symbols.struct?, hscript.moduleName]
    split
    · have hcell := congrArg (Option.map Prod.fst) (Cell.Content.fields.inj (h name.name))
      rwa [Option.map_map, Option.map_map] at hcell
    · rfl
  rw [Symbols.fieldsOf_eq, Symbols.fieldsOf_eq, hfields]

theorem classify_congr {s s' : Symbols} (hscript : s.SameScript s')
    (h : ∀ cell ∈ operandCells, s.read cell = s'.read cell) (self : SelfType)
    (decl : FunctionDecl) :
    classify { symbols := s, self } self.ty decl =
      classify { symbols := s', self } self.ty decl := by
  have haccepts := Symbols.accepts_congr hscript.registry
    (fieldsOf_congr hscript fun struct => h _ (Or.inr ⟨struct, rfl⟩))
  have hsignature := signature_congr hscript (fun cell hcell => h cell (Or.inl hcell)) self decl
    false
  simp only [classify, classifyWith, hsignature, haccepts, Symbols.define, hscript.moduleName]

theorem footprint_operator (self : SelfType) (decl : FunctionDecl) :
    Footprint (Extends self.name) (enterFunction (.operators self) decl)
      ({.operators self.name} ∪ operandCells) {.operators self.name} := by
  have hentry {s t : Symbols} (hok : withFunction (.operators self) decl s = .ok t) :
      ∃ op side overload,
        t = withInfo s self.name fun info => withOverload info op overload side := by
    simp only [withFunction] at hok
    split at hok
    · exact ⟨_, _, _, (Except.ok.inj hok).symm⟩
    · cases hok
  refine .of_entry Set.subset_union_left (fun hok => ?_) (fun hok hs => ?_)
    (fun hok hs cell hcell => ?_) (fun {s s'} hs hs' hscript hread => ?_)
  · obtain ⟨_, _, _, rfl⟩ := hentry hok
    exact ⟨rfl, rfl⟩
  · obtain ⟨_, _, _, rfl⟩ := hentry hok
    exact withInfo_extends hs _
  · obtain ⟨_, side, _, rfl⟩ := hentry hok
    refine read_withInfo hs _ fun howner info => ?_
    cases cell with
    | operators => exact absurd (congrArg Cell.operators (Option.some.inj howner)) hcell
    | constant | function | module | type | fields | method => cases side <;> rfl
  · simp only [withFunction,
      classify_congr hscript (fun cell hcell => hread cell (Or.inr hcell)) self decl]
    split
    · rename_i op side overload _
      refine .inr ⟨_, _, rfl, rfl, ?_⟩
      rintro _ rfl
      have hcell := Cell.Content.operators.inj (hread (.operators self.name) (Or.inl rfl))
      obtain ⟨info, hinfo⟩ := Option.isSome_iff_exists.1 hs.2
      obtain ⟨info', hinfo'⟩ := Option.isSome_iff_exists.1 hs'.2
      rw [hinfo, hinfo'] at hcell
      obtain ⟨hbefore, hbehind⟩ := Prod.mk.inj (Option.some.inj hcell)
      simp only [Symbols.read, withInfo, Table.get?_insert_self, hinfo, hinfo', Option.map_some,
        Option.getD_some]
      cases side <;> simp only [withOverload, hbefore, hbehind]
    · exact .inl ⟨_, rfl, rfl⟩

theorem footprint_operators (decl : ImplDecl) :
    Footprint Symbols.Registered (block .operators decl)
      ({.operators decl.name.name} ∪ operandCells)
      {.operators decl.name.name} := by
  refine footprint_block (fun self hself f _ => ?_) (Or.inr (Or.inl (Or.inr ⟨_, trivial, rfl⟩)))
    Set.subset_union_left
  rw [← hself]
  exact footprint_operator self f

end Declare

end ScriptCheck
