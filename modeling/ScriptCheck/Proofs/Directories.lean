import ScriptCheck.Proofs.Margins
import ScriptCheck.Proofs.MemberSources
import ScriptCheck.Proofs.Scopes

/-!
# Directories

Definitions are copied around before they are linked: the first pass enters them into the symbol
tables, the second one into the scopes. A `Directory` says which definitions may be kept under a
name, and where complaints and tokens may be. If the symbols follow it (`Symbols.Placed`), a
definition that is found by looking up a name is one of that name.
-/

namespace ScriptCheck

/-- The names that may be used and declared in a script, what may define a name, and where a report
may have entries. -/
structure Directory where
  Uses : Occurrence → Prop := fun _ => True
  Declares : Occurrence → Prop := fun _ => True
  Places : NameSpace → String → Definition → Prop := fun _ _ _ => True
  margins : Margins := .wide

namespace Directory

/-- What comes from a library has no definition. -/
theorem places_none (D : Directory) (space : NameSpace) (name : String) :
    ∀ d ∈ (none : Option Definition), D.Places space name d := by
  simp

/-- The definition is that of a name that is used at the range. -/
def Links (D : Directory) (range : Range) (d : Definition) : Prop :=
  ∃ space name, D.Uses ⟨space, name, range⟩ ∧ D.Places space name d

/-- The name may stand where something is referred to. -/
structure Refers (D : Directory) (space : NameSpace) (name : Ident) : Prop where
  use : D.Uses ⟨space, name⟩
  spot : D.margins.spots name.range

/-- The name may stand where a variable is bound. -/
structure Binds (D : Directory) (name : Ident) : Prop where
  declares : D.Declares ⟨.value, name⟩
  spot : D.margins.spots name.range

theorem Refers.mark {D : Directory} {space : NameSpace} {name : Ident} (h : D.Refers space name) :
    D.margins.marks name.range := D.margins.marks_of_spots h.spot

theorem Binds.mark {D : Directory} {name : Ident} (h : D.Binds name) :
    D.margins.marks name.range := D.margins.marks_of_spots h.spot

end Directory

variable {D : Directory}

/-- Fields and methods of a struct are entered under their names. -/
structure StructInfo.Placed (D : Directory) (info : StructInfo) : Prop where
  fields : info.fieldDefinitions.All fun name d => D.Places .member name d
  methods : info.methods.All fun name value => ∀ d ∈ value.definition, D.Places .member name d

theorem StructInfo.Placed.empty : StructInfo.Placed D {} := ⟨.empty, .empty⟩

/-- Everything that has a definition is entered under its name. -/
structure Symbols.Placed (D : Directory) (s : Symbols) : Prop where
  define {space : NameSpace} {name : Ident} : D.Declares ⟨space, name⟩ →
    D.Places space name.name (s.define name.range)
  constants : s.constants.All fun name value => ∀ d ∈ value.definition, D.Places .value name d
  functions : s.functions.All fun name value => ∀ d ∈ value.definition, D.Places .value name d
  types : s.types.All fun name found => ∀ d ∈ found.definition, D.Places .type name d
  structs : s.structs.All fun _ info => info.Placed D

/-! ## Looking up definitions -/

namespace Symbols.Placed

variable {s : Symbols}

/-- If nothing is said about definitions, there is nothing to show. -/
theorem any {W : Margins} : s.Placed { margins := W } where
  define _ := trivial
  constants _ _ _ _ := trivial
  functions _ _ _ _ := trivial
  types _ _ _ _ := trivial
  structs _ _ := ⟨fun _ _ => trivial, fun _ _ _ _ => trivial⟩

theorem structOf? (h : s.Placed D) {t : Ty} {info : StructInfo}
    (hinfo : s.structOf? t = some info) : info.Placed D :=
  all_structOf? h.structs hinfo

theorem field? (h : s.Placed D) {t : Ty} {name : String} {found : FieldType}
    (hfound : s.field? t name = some found) :
    ∀ d ∈ found.definition, D.Places .member name d := by
  cases fieldSource hfound with
  | fixed _ hnone | part _ _ hnone | library _ _ _ hnone => exact hnone ▸ D.places_none _ _
  | struct hinfo _ hdefinition =>
    exact hdefinition ▸ fun d hd => (h.structOf? hinfo).fields.get? hd

theorem method? (h : s.Placed D) {t : Ty} {name : String} {found : MethodType}
    (hfound : s.method? t name = some found) :
    ∀ d ∈ found.definition, D.Places .member name d := by
  cases t with
  | unknown | tuple | function | placeholder => cases hfound
  | array element =>
    simp only [Symbols.method?, Ty.arrayMethod?] at hfound
    split_ifs at hfound <;> cases hfound <;> exact D.places_none _ _
  | option inner =>
    simp only [Symbols.method?, Ty.optionMethod?] at hfound
    split_ifs at hfound <;> cases hfound <;> exact D.places_none _ _
  | result ok err =>
    simp only [Symbols.method?, Ty.resultMethod?] at hfound
    split_ifs at hfound <;> cases hfound <;> exact D.places_none _ _
  | record structName items =>
    obtain ⟨info, value, hinfo, hvalue, -, hdefinition⟩ := exists_of_recordMethod hfound
    exact hdefinition ▸ (h.structOf? hinfo).methods.get? hvalue
  | named | applied =>
    simp only [Symbols.method?, libraryMethod?, Option.bind_eq_bind, Option.bind_eq_some_iff, pure,
      Option.some.injEq] at hfound
    obtain ⟨_, _, m, _, rfl⟩ := hfound
    exact D.places_none _ _

/-- Constructor functions of the language have no definition. -/
theorem function? (h : s.Placed D) {name : String} {hint : Option Ty} {found : Value}
    (hfound : s.function? none name hint = some found) :
    ∀ d ∈ found.definition, D.Places .value name d := by
  simp only [Symbols.function?] at hfound
  split at hfound
  · obtain rfl := Option.some.inj hfound
    exact D.places_none _ _
  · exact h.functions.get? hfound

end Symbols.Placed

end ScriptCheck
