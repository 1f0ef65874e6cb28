import ScriptCheck.Proofs.DeclareSteps
import ScriptCheck.Proofs.RegimeItems

/-!
# Links lead to declarations

A report links ranges of the source to definitions. Each link leads from a use of a name to a
declaration of that name in the same script and in the same name space
(`definitions_lead_to_declarations`).

The first pass enters each declaration under its name (`Symbols.Placed.entry`), and so does the
second one with local variables. A name is only looked up under itself, so that all links follow the
directory of the script.
-/

namespace ScriptCheck

open Declare

variable {D : Directory}

/-! ## Entering declarations -/

namespace Symbols.Placed

variable {s : Symbols}

theorem info (h : s.Placed D) (name : String) :
    ((s.structs.get? name).getD {}).Placed D :=
  h.structs.getD .empty name

theorem withInfo (h : s.Placed D) (name : String) {change : StructInfo → StructInfo}
    (hchange : ∀ info : StructInfo, info.Placed D → (change info).Placed D) :
    (withInfo s name change).Placed D :=
  { h with structs := h.structs.insert (hchange _ (h.info name)) }

/-- The definition of a name that may be declared. -/
theorem defined (h : s.Placed D) {space : NameSpace} {name : Ident}
    (hname : D.Declares ⟨space, name⟩) :
    ∀ d ∈ some (s.define name.range), D.Places space name.name d := by
  rintro _ ⟨⟩
  exact h.define hname

theorem fieldDefinitions (h : s.Placed D) : {decls : List FieldDecl} →
    (∀ f ∈ decls, D.Declares ⟨.member, f.name⟩) → {table : Table String Definition} →
    (table.All fun name d => D.Places .member name d) →
    (decls.foldl (fun t f => t.insertNew f.name.name (s.define f.name.range)) table).All
      fun name d => D.Places .member name d
  | [], _, _, htable => htable
  | f :: rest, hdecls, table, htable => by
    obtain ⟨hf, hrest⟩ := List.forall_mem_cons.1 hdecls
    exact fieldDefinitions h hrest (htable.insertNew (h.define hf))

theorem withStruct (h : s.Placed D) {decl : StructDecl}
    (hdecl : ∀ d ∈ (Item.struct decl).heads, D.Declares d) : (withStruct decl s).Placed D := by
  have hinfo := h.info decl.name.name
  refine ⟨h.define, h.constants, ?_, ?_, h.structs.insert ⟨?_, hinfo.methods⟩⟩
  · dsimp only [Declare.withStruct]
    split
    · exact h.functions
    · exact h.functions.insert (h.defined (hdecl _ (by simp [Item.heads])))
  · dsimp only [Declare.withStruct]
    split
    · rename_i found hfound
      have hdefinition := h.types.get? hfound
      exact h.types.insert hdefinition
    · exact h.types
  · refine h.fieldDefinitions (fun f hf => hdecl _ ?_) hinfo.fields
    exact List.mem_cons_of_mem _ (List.mem_cons_of_mem _ (List.mem_map_of_mem hf))

/-- Every entry of the first pass is made under the name of its declaration. -/
theorem entry (h : s.Placed D) {xs : List Item} (hxs : ∀ x ∈ xs, ∀ d ∈ x.heads, D.Declares d)
    {phase : Phase} {s' : Symbols} (hentry : Entry xs s phase s') : s'.Placed D := by
  cases hentry with
  | importedConstant => exact { h with constants := h.constants.insert nofun }
  | importedFunction => exact { h with functions := h.functions.insert nofun }
  | importedType => exact { h with types := h.types.insert nofun }
  | module => exact { h with }
  | struct decl hmem =>
    refine { h with types := h.types.insert ?_, structs := h.structs.insert .empty }
    exact h.defined (hxs _ hmem _ List.mem_cons_self)
  | fields decl hmem => exact h.withStruct (hxs _ hmem)
  | typeAlias decl hmem =>
    refine { h with types := h.types.insert ?_ }
    exact h.defined (hxs _ hmem _ List.mem_cons_self)
  | function decl hmem =>
    refine { h with functions := h.functions.insert ?_ }
    exact h.defined (hxs _ hmem _ List.mem_cons_self)
  | method block hmem self _ decl hdecl =>
    refine h.withInfo self.name fun info hinfo => ⟨hinfo.fields, hinfo.methods.insert ?_⟩
    exact h.defined (hxs _ hmem _ (List.mem_map_of_mem hdecl))
  | operator block hmem self hself decl hdecl op side overload =>
    refine h.withInfo self.name fun info hinfo => ?_
    cases side <;> exact ⟨hinfo.fields, hinfo.methods⟩
  | constant decl hmem =>
    refine { h with constants := h.constants.insert ?_ }
    exact h.defined (hxs _ hmem _ List.mem_cons_self)

end Symbols.Placed

/-! ## Checking items -/

/-- Symbols and local variables are entered under their names, and all links lead to
declarations. -/
structure Checker.Indexed (D : Directory) (c : Checker) : Prop where
  symbols : c.view.symbols.Placed D
  locals : c.scopes.All fun name value => ∀ d ∈ value.definition, D.Places .value name d
  links : c.report.definitions.All D.Links

theorem Checker.indexed_invariant (D : Directory) :
    Invariant (Checker.Indexed D) (fun v => v.symbols.Placed D) Any D where
  view hc := hc.symbols
  placed hv := hv
  local? hc hv := ⟨trivial, hc.locals.local? hv⟩
  write {c entry} hc hentry := by
    refine ⟨hc.symbols, hc.locals, ?_⟩
    cases entry with
    | definition => exact hc.links.insert hentry
    | diagnostic | token | hint | hover | type => exact hc.links
  declare id name _ hc _ hplaces := ⟨hc.symbols, hc.locals.declare id hplaces, hc.links⟩
  push parent kind hc := ⟨hc.symbols, hc.locals.push parent kind, hc.links⟩
  truncate count hc := ⟨hc.symbols, hc.locals.truncate count, hc.links⟩
  mute _ hc := ⟨hc.symbols, hc.locals, hc.links⟩

/-! ## Scripts -/

namespace Script

variable (script : Script)

/-- The uses and declarations of a script. -/
def directory : Directory where
  Uses o := o ∈ script.uses
  Declares o := o ∈ script.declares
  Places space name d := d.moduleName = script.name ∧ ⟨space, name, d.range⟩ ∈ script.declares

theorem declares_of_mem {x : Item} (hx : x ∈ script.items) :
    ∀ d ∈ x.declares, script.directory.Declares d :=
  fun _ hd => List.mem_flatMap.2 ⟨x, hx, hd⟩

theorem placed_declarations (registry : Registry) :
    (script.declarations registry).symbols.Placed script.directory := by
  refine symbols_induction (I := Symbols.Placed script.directory)
    ⟨fun h => ⟨rfl, h⟩, .empty, .empty, .empty, .empty⟩ fun hentry hd => ?_
  refine hd.entry (fun x hx d hmem => script.declares_of_mem hx d ?_) hentry
  exact List.mem_append_left _ (List.mem_append_left _ hmem)

end Script

/-- Every link of a report leads from a place where the script uses a name to a place where the
script declares that name, in the same name space. -/
theorem definitions_lead_to_declarations (registry : Registry) (script : Script) (range : Range)
    (d : Definition) (h : (range, d) ∈ (script.validate registry).report.definitions.entries) :
    d.moduleName = script.name ∧ ∃ space name,
      ⟨space, name, range⟩ ∈ script.uses ∧ ⟨space, name, d.range⟩ ∈ script.declares := by
  have hstart : Checker.Indexed script.directory
      { view := { symbols := (script.declarations registry).symbols }
        report := { diagnostics := (script.declarations registry).diagnostics } } :=
    ⟨script.placed_declarations registry, .empty, .empty⟩
  have hend := (Checker.indexed_invariant script.directory).items
    (fun _ hc => ⟨hc.symbols, hc.locals, hc.links⟩) (fun x hx => .of_names (fun _ => trivial)
      (fun _ _ => trivial) (fun _ hu => List.mem_flatMap.2 ⟨x, hx, hu⟩) (script.declares_of_mem hx)
      (Margins.wide_coversItem x)) hstart
  obtain ⟨space, name, huse, hmodule, hdeclares⟩ := hend.links _ h
  exact ⟨hmodule, space, name, huse, hdeclares⟩

/-- A range of one character. -/
def spot (offset : Nat) : Range := ⟨{ offset }, { offset := offset + 1 }⟩

/-- The script `struct Probe(depth : int)`, `impl Probe { fn deeper(self) -> int = self.depth }`,
`fn read(p : Probe) -> int = p.deeper()`, where the names stand at the spots 0, 1, 2 and so on. -/
def probes : Script :=
  { name := "main"
    items :=
      [.struct
          { name := ⟨"Probe", spot 0⟩
            fields := [{ name := ⟨"depth", spot 1⟩, type := .named (spot 2) none "int" [] }]
            range := {} },
        .methods
          { name := ⟨"Probe", spot 3⟩
            functions :=
              [{ name := ⟨"deeper", spot 4⟩, params := [{ name := ⟨"self", spot 5⟩ }]
                 result := .named (spot 6) none "int" []
                 body := .field {} (.var {} none ⟨"self", spot 7⟩) ⟨"depth", spot 8⟩
                 range := {} }]
            range := {} },
        .function
          { name := ⟨"read", spot 9⟩
            params :=
              [{ name := ⟨"p", spot 10⟩, type := some (.named (spot 11) none "Probe" []) }]
            result := .named (spot 12) none "int" []
            body := .methodCall {} (.var {} none ⟨"p", spot 13⟩) ⟨"deeper", spot 14⟩ []
            range := {} }] }

/-- All links of the script. The last one leads from the call of the method to its declaration. -/
theorem definitions_lead_to_declarations_probes :
    (probes.validate .empty).report.definitions.entries =
        [(spot 3, ⟨"main", spot 0⟩), (spot 7, ⟨"main", spot 5⟩), (spot 8, ⟨"main", spot 1⟩),
          (spot 11, ⟨"main", spot 0⟩), (spot 13, ⟨"main", spot 10⟩),
          (spot 14, ⟨"main", spot 4⟩)] ∧
      ∃ space name, ⟨space, name, spot 14⟩ ∈ probes.uses ∧
        ⟨space, name, spot 4⟩ ∈ probes.declares :=
  ⟨by decide +kernel,
    (definitions_lead_to_declarations .empty probes (spot 14) ⟨"main", spot 4⟩
      (by decide +kernel)).2⟩

end ScriptCheck
