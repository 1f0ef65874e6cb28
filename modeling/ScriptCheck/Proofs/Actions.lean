import ScriptCheck.Proofs.Signatures

/-!
# What the first pass does at a time

The first pass is a run of actions, each of which makes at most one entry that another declaration
may compete for. `Declare.Slot` is a place for such an entry: a name in one of the tables, or the
name of a method in the table of its struct. An action that is about to make an entry requests its
slot (`Declare.Action.request?`).

`Declare.outcome_run` says once what an action does. A request for a free slot is granted and one
for a slot that is taken is complained about, if it stands in the script. All other slots stay as
they are, and nothing that was entered goes away.
-/

namespace ScriptCheck

/-! ## Entries that stay -/

/-- Every entry of the first table has one of the same key in the second, which stands in the
relation to it. -/
def Table.Persists {κ α : Type} [DecidableEq κ] (R : α → α → Prop) (t u : Table κ α) : Prop :=
  ∀ ⦃key v⦄, t.get? key = some v → ∃ w, u.get? key = some w ∧ R v w

namespace Table.Persists

variable {κ α : Type} [DecidableEq κ] {R : α → α → Prop} {t u v : Table κ α}

theorem refl (hR : ∀ a, R a a) (t : Table κ α) : t.Persists R t := fun _ a h => ⟨a, h, hR a⟩

theorem trans (hR : ∀ a b c, R a b → R b c → R a c) (h : t.Persists R u) (h' : u.Persists R v) :
    t.Persists R v := by
  intro key a ha
  obtain ⟨b, hb, hab⟩ := h ha
  obtain ⟨c, hc, hbc⟩ := h' hb
  exact ⟨c, hc, hR a b c hab hbc⟩

/-- An entry is made, or replaced by one that stands in the relation to it. -/
theorem insert (hR : ∀ a, R a a) {key : κ} {a : α} (h : ∀ old, t.get? key = some old → R old a) :
    t.Persists R (t.insert key a) := by
  intro other b hb
  rw [get?_insert]
  split
  · rename_i heq
    exact ⟨a, rfl, h b (heq ▸ hb)⟩
  · exact ⟨b, hb, hR b⟩

theorem insert_new (hR : ∀ a, R a a) {key : κ} {a : α} (h : t.get? key = none) :
    t.Persists R (t.insert key a) :=
  insert hR fun _ hold => nomatch h.symm.trans hold

end Table.Persists

/-- Whatever is entered is still there: constants, functions, names of modules and methods as they
were, types and structs by name. A type is declared at the same place. -/
structure Symbols.Keeps (s t : Symbols) : Prop where
  constants : s.constants.Persists Eq t.constants
  functions : s.functions.Persists Eq t.functions
  modules : s.modules.Persists Eq t.modules
  types : s.types.Persists
    (fun a b => b.definition = a.definition ∧ b.isStruct = a.isStruct) t.types
  structs : s.structs.Persists (fun a b => a.methods.Persists Eq b.methods) t.structs

namespace Symbols.Keeps

theorem refl (s : Symbols) : s.Keeps s where
  constants := .refl (fun _ => rfl) _
  functions := .refl (fun _ => rfl) _
  modules := .refl (fun _ => rfl) _
  types := .refl (fun _ => ⟨rfl, rfl⟩) _
  structs := .refl (fun _ => .refl (fun _ => rfl) _) _

theorem trans {s t u : Symbols} (h : s.Keeps t) (h' : t.Keeps u) : s.Keeps u where
  constants := h.constants.trans (fun _ _ _ => Eq.trans) h'.constants
  functions := h.functions.trans (fun _ _ _ => Eq.trans) h'.functions
  modules := h.modules.trans (fun _ _ _ => Eq.trans) h'.modules
  types := h.types.trans (fun _ _ _ hab hbc => ⟨hbc.1.trans hab.1, hbc.2.trans hab.2⟩) h'.types
  structs := h.structs.trans
    (fun _ _ _ hab hbc => hab.trans (fun _ _ _ => Eq.trans) hbc) h'.structs

end Symbols.Keeps

namespace Declare

/-! ## Slots and requests -/

/-- A place for one entry. -/
inductive Slot where
  | constant (name : String)
  | function (name : String)
  | module (name : String)
  | type (name : String)
  | method (struct name : String)
deriving DecidableEq

namespace Slot

def name : Slot → String
  | .constant name | .function name | .module name | .type name | .method _ name => name

/-- The methods that a struct has so far. -/
def methodsOf (s : Symbols) (struct : String) : Table String Value :=
  ((s.structs.get? struct).getD {}).methods

/-- The entry of a slot, by the place of its declaration. Imports have none. -/
def stored? (s : Symbols) : Slot → Option (Option Definition)
  | .constant name => (s.constants.get? name).map Value.definition
  | .function name => (s.functions.get? name).map Value.definition
  | .module name => (s.modules.get? name).map fun _ => none
  | .type name => (s.types.get? name).map TypeAlias.definition
  | .method struct name => ((methodsOf s struct).get? name).map Value.definition

/-- Whether a slot has an entry. -/
def taken (s : Symbols) (slot : Slot) : Bool := (slot.stored? s).isSome

/-- The table of the slot is the same. -/
def SameTable (s t : Symbols) : Slot → Prop
  | .constant _ => t.constants = s.constants
  | .function _ => t.functions = s.functions
  | .module _ => t.modules = s.modules
  | .type _ => t.types = s.types
  | .method struct _ => methodsOf t struct = methodsOf s struct

@[simp]
theorem taken_function (s : Symbols) (name : String) :
    (function name).taken s = s.functions.contains name :=
  Option.isSome_map

@[simp]
theorem taken_type (s : Symbols) (name : String) :
    (type name).taken s = s.types.contains name :=
  Option.isSome_map

theorem SameTable.refl (s : Symbols) (slot : Slot) : slot.SameTable s s := by
  cases slot <;> rfl

end Slot

/-- An entry that is about to be made. -/
structure Request where
  slot : Slot
  /-- What the entry is called in a complaint. -/
  kind : SymbolKind
  /-- Where to complain if the slot is taken. -/
  range : Option Range
  /-- Where the entry is declared. -/
  definition : Option Definition

namespace Request

/-- The request of a declaration of the script. -/
def declared (s : Symbols) (slot : Slot) (kind : SymbolKind) (name : Ident) : Request :=
  ⟨slot, kind, some name.range, some (s.define name.range)⟩

/-- The request of an import. -/
def imported (slot : Slot) (kind : SymbolKind) (range : Option Range) : Request :=
  ⟨slot, kind, range, none⟩

/-- The complaint about a slot that is taken. -/
def complaint (r : Request) : List Diagnostic :=
  r.range.toList.map fun range => ⟨.error, .duplicate r.kind r.slot.name, range⟩

/-- What there is to complain about in a request. -/
def collision (r : Request) (s : Symbols) : List Diagnostic :=
  if r.slot.taken s then r.complaint else []

end Request

/-- Whether a complaint is about an entry that was already there. Fields are entered with their
struct, all at once. -/
def isCollision (d : Diagnostic) : Bool :=
  match d.problem with
  | .duplicate kind _ => kind != .field
  | _ => false

/-! ## Actions -/

/-- What the first pass does at a time. -/
inductive Action where
  /-- Complains about an import that stands for nothing. -/
  | missing (kind : SymbolKind) (name : String) (owner : Option String) (range : Range)
  /-- Imports a constant of a module, if it has one of this name. A name that is not listed in the
  script has no range. -/
  | importConstant (module : Library.ModuleInfo) (name : String) (range : Option Range)
  | importFunction (module : Library.ModuleInfo) (name : String) (range : Option Range)
  | importType (module : Library.ModuleInfo) (name : String) (range : Option Range)
  | nameModule (module : Library.ModuleInfo) (name : Ident)
  | struct (decl : StructDecl)
  /-- Enters the fields and the constructor of a struct. -/
  | fields (decl : StructDecl)
  | typeAlias (decl : AliasDecl)
  | function (decl : FunctionDecl)
  /-- Looks for the struct that a block extends. -/
  | target (owner : Ident)
  | method (owner : Ident) (decl : FunctionDecl)
  | operator (owner : Ident) (decl : FunctionDecl)
  | const (decl : ConstDecl)

namespace Action

/-- Enters something for the struct that a block extends, if there is one. -/
def inBlock (owner : Ident) (entry : SelfType → DeclareM Unit) : DeclareM Unit := do
  match (← symbols).selfOf? owner.name with
  | some self => entry self
  | none => pure ()

/-- Carries out an action. The functions of a block without a struct are skipped. -/
def run : Action → DeclareM Unit
  | .missing kind name owner range => fail (.undefined kind name owner) range
  | .importConstant module name range => do let _ ← Declare.importConstant module name range
  | .importFunction module name range => do let _ ← Declare.importFunction module name range
  | .importType module name range => do let _ ← Declare.importType module name range
  | .nameModule module name => Declare.nameModule module name
  | .struct decl => register decl
  | .fields decl => structFields decl
  | .typeAlias decl => Declare.typeAlias decl
  | .function decl => enterFunction .module decl
  | .target owner => block .methods { name := owner, functions := [], range := owner.range }
  | .method owner decl => inBlock owner fun self => enterFunction (.methods self) decl
  | .operator owner decl => inBlock owner fun self => enterFunction (.operators self) decl
  | .const decl => Declare.const decl

/-- The entry that an action is about to make. -/
def request? (s : Symbols) : Action → Option Request
  | .importConstant module name range =>
    (module.constant? name).map fun _ => .imported (.constant name) .constant range
  | .importFunction module name range =>
    (module.function? name).map fun _ => .imported (.function name) .function range
  | .importType module name range =>
    (module.type? name).map fun _ => .imported (.type name) .type range
  | .nameModule _ name => some (.imported (.module name.name) .module (some name.range))
  | .struct decl => some (.declared s (.type decl.name.name) .struct decl.name)
  | .fields decl =>
    if owns s decl.name then some (.declared s (.function decl.name.name) .function decl.name)
    else none
  | .typeAlias decl => some (.declared s (.type decl.name.name) .type decl.name)
  | .function decl => some (.declared s (.function decl.name.name) .function decl.name)
  | .method owner decl =>
    if (Symbols.selfOf? s owner.name).isSome && hasReceiver decl then
      some (.declared s (.method owner.name decl.name.name) .method decl.name)
    else none
  | .const decl => some (.declared s (.constant decl.name.name) .constant decl.name)
  | .missing _ _ _ _ | .target _ | .operator _ _ => none

end Action

/-! ## Outcomes -/

/-- The library is the given one, and every struct is among the types. -/
structure Consistent (registry : Registry) (s : Symbols) : Prop where
  registry : s.registry = registry
  types : ∀ name, (s.structs.get? name).isSome → (s.types.get? name).isSome

/-- What an action with the given request does. -/
structure Outcome (registry : Registry) (request? : Option Request) (d d' : Declarations) :
    Prop where
  consistent : Consistent registry d'.symbols
  keeps : d.symbols.Keeps d'.symbols
  /-- Only the slot that is requested may get an entry. -/
  frame : ∀ slot : Slot, (∀ r ∈ request?, r.slot ≠ slot) →
    slot.stored? d'.symbols = slot.stored? d.symbols
  /-- A request is granted if the slot is free. -/
  granted : ∀ r ∈ request?,
    if r.slot.taken d.symbols then r.slot.SameTable d.symbols d'.symbols
    else r.slot.stored? d'.symbols = some r.definition
  /-- A request for a slot that is taken is complained about, and no other. -/
  complaints : ∃ added, d'.diagnostics = d.diagnostics ++ added ∧
    added.filter isCollision = request?.toList.flatMap fun r => r.collision d.symbols

/-- The symbols have a new entry in a slot. -/
structure Enters (registry : Registry) (slot : Slot) (s t : Symbols)
    (definition : Option Definition) : Prop where
  consistent : Consistent registry t
  keeps : s.Keeps t
  entry : slot.stored? t = some definition
  frame : ∀ other, slot ≠ other → other.stored? t = other.stored? s

section Entries

variable {registry : Registry} {s : Symbols} (hs : Consistent registry s) {name : String}

include hs

theorem enters_constant (value : Value) (hnew : s.constants.get? name = none) :
    Enters registry (.constant name) s { s with constants := s.constants.insert name value }
      value.definition where
  consistent := ⟨hs.registry, hs.types⟩
  keeps := { Symbols.Keeps.refl s with constants := .insert_new (fun _ => rfl) hnew }
  entry := congrArg (Option.map _) (Table.get?_insert_self _ _ _)
  frame other hother := by
    cases other with
    | constant n =>
      exact congrArg (Option.map _) (Table.get?_insert_of_ne _ (fun h => hother (by rw [h])) _)
    | function | module | type | method => rfl

theorem enters_function (value : Value) (hnew : s.functions.get? name = none) :
    Enters registry (.function name) s { s with functions := s.functions.insert name value }
      value.definition where
  consistent := ⟨hs.registry, hs.types⟩
  keeps := { Symbols.Keeps.refl s with functions := .insert_new (fun _ => rfl) hnew }
  entry := congrArg (Option.map _) (Table.get?_insert_self _ _ _)
  frame other hother := by
    cases other with
    | function n =>
      exact congrArg (Option.map _) (Table.get?_insert_of_ne _ (fun h => hother (by rw [h])) _)
    | constant | module | type | method => rfl

theorem enters_module (module : String) (hnew : s.modules.get? name = none) :
    Enters registry (.module name) s { s with modules := s.modules.insert name module } none where
  consistent := ⟨hs.registry, hs.types⟩
  keeps := { Symbols.Keeps.refl s with modules := .insert_new (fun _ => rfl) hnew }
  entry := congrArg (Option.map _) (Table.get?_insert_self _ _ _)
  frame other hother := by
    cases other with
    | module n =>
      exact congrArg (Option.map _) (Table.get?_insert_of_ne _ (fun h => hother (by rw [h])) _)
    | constant | function | type | method => rfl

theorem enters_type (found : TypeAlias) (hnew : s.types.get? name = none) :
    Enters registry (.type name) s { s with types := s.types.insert name found }
      found.definition where
  consistent := by
    refine ⟨hs.registry, fun struct hstruct => ?_⟩
    rw [Table.get?_insert]
    split
    · rfl
    · exact hs.types struct hstruct
  keeps := { Symbols.Keeps.refl s with types := .insert_new (fun _ => ⟨rfl, rfl⟩) hnew }
  entry := congrArg (Option.map _) (Table.get?_insert_self _ _ _)
  frame other hother := by
    cases other with
    | type n =>
      exact congrArg (Option.map _) (Table.get?_insert_of_ne _ (fun h => hother (by rw [h])) _)
    | constant | function | module | method => rfl

/-- A struct that is new to the types is new to the structs as well. -/
theorem enters_struct (found : TypeAlias) (hnew : s.types.get? name = none) :
    Enters registry (.type name) s
      { s with types := s.types.insert name found, structs := s.structs.insert name {} }
      found.definition := by
  have htype := enters_type hs found hnew
  have hnone : s.structs.get? name = none := by
    rw [← Option.not_isSome_iff_eq_none]
    intro hstruct
    have := hs.types name hstruct
    rw [hnew] at this
    cases this
  refine ⟨⟨hs.registry, fun struct hstruct => ?_⟩, ?_, htype.entry, fun other hother => ?_⟩
  · rw [Table.get?_insert] at hstruct
    split at hstruct
    · rename_i heq
      rw [heq, Table.get?_insert_self]
      rfl
    · exact htype.consistent.types struct hstruct
  · exact { htype.keeps with
      structs := .insert_new (fun _ => .refl (fun _ => rfl) _) hnone }
  · rw [← htype.frame other hother]
    cases other with
    | method struct n =>
      simp only [Slot.stored?, Slot.methodsOf, Table.get?_insert]
      split
      · rename_i heq
        rw [heq, hnone]
        rfl
      · rfl
    | constant | function | module | type => rfl

/-- What is changed about a struct among the types. -/
theorem keeps_withInfo (name : String) (change : StructInfo → StructInfo)
    (hname : (s.types.get? name).isSome)
    (h : (Slot.methodsOf s name).Persists Eq
      (change ((s.structs.get? name).getD {})).methods) :
    Consistent registry (withInfo s name change) ∧ s.Keeps (withInfo s name change) := by
  constructor
  · refine ⟨hs.registry, fun struct hstruct => ?_⟩
    rw [withInfo, Table.get?_insert] at hstruct
    split at hstruct
    · rename_i heq
      exact heq ▸ hname
    · exact hs.types struct hstruct
  · refine { Symbols.Keeps.refl s with structs := .insert (fun _ => .refl (fun _ => rfl) _) ?_ }
    intro old hold
    rw [Slot.methodsOf, hold] at h
    rw [hold]
    exact h

omit hs in
/-- A change to something else than the methods of a struct makes no difference to the slots. -/
theorem stored?_withInfo (s : Symbols) (name : String) (change : StructInfo → StructInfo)
    (h : (change ((s.structs.get? name).getD {})).methods = Slot.methodsOf s name) (slot : Slot) :
    slot.stored? (withInfo s name change) = slot.stored? s := by
  cases slot with
  | constant | function | module | type => rfl
  | method struct n =>
    simp only [Slot.stored?, Slot.methodsOf, withInfo, Table.get?_insert]
    split
    · rename_i heq
      rw [heq, Option.getD_some, h, Slot.methodsOf]
    · rfl

theorem enters_method {struct name : String} (hstruct : (s.types.get? struct).isSome)
    (value : Value) (hnew : (Slot.methodsOf s struct).get? name = none) :
    Enters registry (.method struct name) s
      (withInfo s struct fun info => { info with methods := info.methods.insert name value })
      value.definition := by
  obtain ⟨hconsistent, hkeeps⟩ := keeps_withInfo hs struct
    (fun info => { info with methods := info.methods.insert name value }) hstruct
    (.insert_new (fun _ => rfl) hnew)
  refine ⟨hconsistent, hkeeps, ?_, fun other hother => ?_⟩
  · simp [Slot.stored?, Slot.methodsOf, withInfo, Table.get?_insert_self]
  · cases other with
    | method owner n =>
      simp only [Slot.stored?, Slot.methodsOf, withInfo, Table.get?_insert]
      split
      · rename_i heq
        subst heq
        exact congrArg (Option.map _) (Table.get?_insert_of_ne _ (fun h => hother (by rw [h])) _)
      · rfl
    | constant | function | module | type => rfl

/-- The symbols with another type and other information for a name. -/
def withTypeAndInfo (s : Symbols) (name : String) (found : TypeAlias) (info : StructInfo) :
    Symbols :=
  { s with structs := s.structs.insert name info, types := s.types.insert name found }

/-- Another type that is declared at the same place, and other fields, make no difference to the
slots. -/
theorem keeps_withTypeAndInfo {found found' : TypeAlias} {info : StructInfo}
    (hfound : s.types.get? name = some found) (hdefinition : found'.definition = found.definition)
    (hstruct : found'.isStruct = found.isStruct) (hmethods : info.methods = Slot.methodsOf s name) :
    Consistent registry (withTypeAndInfo s name found' info) ∧
      s.Keeps (withTypeAndInfo s name found' info) ∧
      ∀ slot : Slot, slot.stored? (withTypeAndInfo s name found' info) = slot.stored? s := by
  refine ⟨⟨hs.registry, fun other hother => ?_⟩, ?_, fun slot => ?_⟩
  · rw [withTypeAndInfo, Table.get?_insert] at hother ⊢
    split
    · rfl
    · rename_i hne
      rw [if_neg hne] at hother
      exact hs.types other hother
  · refine { Symbols.Keeps.refl s with
      types := .insert (fun _ => ⟨rfl, rfl⟩) fun old hold => ?_
      structs := .insert (fun _ => .refl (fun _ => rfl) _) fun old hold => ?_ }
    · obtain rfl := Option.some.inj (hfound.symm.trans hold)
      exact ⟨hdefinition, hstruct⟩
    · rw [hmethods, Slot.methodsOf, hold]
      exact .refl (fun _ => rfl) _
  · cases slot with
    | constant | function | module => rfl
    | type other =>
      simp only [Slot.stored?, withTypeAndInfo, Table.get?_insert]
      split
      · rename_i heq
        rw [heq, hfound, Option.map_some, Option.map_some, hdefinition]
      · rfl
    | method other n =>
      simp only [Slot.stored?, Slot.methodsOf, withTypeAndInfo, Table.get?_insert]
      split
      · rename_i heq
        rw [heq, Option.getD_some, hmethods, Slot.methodsOf]
      · rfl

end Entries

theorem exists_of_owns {s : Symbols} {name : Ident} (h : owns s name = true) :
    ∃ found, s.types.get? name.name = some found := by
  cases hfound : s.types.get? name.name with
  | none => simp [owns, hfound] at h
  | some found => exact ⟨found, rfl⟩

section Outcomes

variable {registry : Registry} {d : Declarations} (hd : Consistent registry d.symbols)

include hd

/-- An action without a request that does no more than complain. -/
theorem outcome_complaints (added : List Diagnostic) (hadded : added.filter isCollision = []) :
    Outcome registry none d { d with diagnostics := d.diagnostics ++ added } where
  consistent := hd
  keeps := .refl _
  frame _ _ := rfl
  granted r hr := absurd hr (Option.not_mem_none r)
  complaints := ⟨added, rfl, hadded⟩

theorem outcome_none : Outcome registry none d d := by
  simpa using outcome_complaints hd [] rfl

/-- An action that makes the entry it requests unless the slot is taken. -/
theorem outcome_enterNew (r : Request) (hkind : r.kind ≠ .field) {taken : Symbols → Bool}
    {add : Symbols → Symbols} (htaken : r.slot.taken d.symbols = taken d.symbols)
    (henters : taken d.symbols = false →
      Enters registry r.slot d.symbols (add d.symbols) r.definition) :
    Outcome registry (some r) d (after (enterNew r.kind r.slot.name r.range taken add) d) := by
  have hcomplaint : r.complaint.filter isCollision = r.complaint := by
    refine List.filter_eq_self.2 fun x hx => ?_
    obtain ⟨range, -, rfl⟩ := List.mem_map.1 hx
    exact bne_iff_ne.2 hkind
  have hcollision : (some r).toList.flatMap (fun r => r.collision d.symbols) =
      if taken d.symbols then r.complaint else [] := by
    rw [← htaken]
    exact List.append_nil _
  rw [after_enterNew]
  cases hfree : taken d.symbols with
  | true =>
    rw [hfree] at htaken hcollision
    refine ⟨hd, .refl _, fun _ _ => rfl, ?_, r.complaint, rfl, hcomplaint.trans hcollision.symm⟩
    rintro _ ⟨⟩
    rw [htaken]
    exact .refl _ _
  | false =>
    have henters := henters hfree
    rw [hfree] at htaken hcollision
    refine ⟨henters.consistent, henters.keeps, fun slot hslot => henters.frame slot (hslot r rfl),
      ?_, [], (List.append_nil _).symm, hcollision.symm⟩
    rintro _ ⟨⟩
    rw [htaken]
    exact henters.entry

/-- An import of what a module may have. -/
theorem outcome_importAs {ι : Type} {found : Option ι} {enter : ι → DeclareM Unit} {r : Request}
    (h : ∀ info ∈ found, Outcome registry (some r) d (after (enter info) d)) :
    Outcome registry (found.map fun _ => r) d (after (do let _ ← importAs found enter) d) := by
  cases found with
  | none => exact outcome_none hd
  | some info => exact h info rfl

/-! ### Structs -/

/-- The symbols once a struct has its fields, but before it has its constructor. -/
def withFieldsOf (decl : StructDecl) (found : TypeAlias) (s : Symbols) : Symbols :=
  withTypeAndInfo s decl.name.name
    { found with ty := structType s decl.name.name (resolvedFields decl s) }
    (withFields s ((s.structs.get? decl.name.name).getD {}) (resolvedFields decl s) decl.fields)

omit hd in
theorem withStruct_eq {decl : StructDecl} {found : TypeAlias} {s : Symbols}
    (hfound : s.types.get? decl.name.name = some found) :
    withStruct decl s =
      if s.functions.contains decl.name.name then withFieldsOf decl found s
      else { withFieldsOf decl found s with
        functions := s.functions.insert decl.name.name (constructorValue decl s) } := by
  simp only [withStruct, hfound]
  split <;> rfl

/-- The fields of a struct, and its type with them, take no slot; its constructor does. -/
theorem outcome_fields (decl : StructDecl) :
    Outcome registry ((Action.fields decl).request? d.symbols) d
      (after (Action.fields decl).run d) := by
  rw [Action.run, Action.request?, after_structFields]
  cases howns : owns d.symbols decl.name with
  | false =>
    simp only [Bool.false_eq_true, if_false, List.append_nil]
    exact outcome_none hd
  | true =>
    obtain ⟨found, hfound⟩ := exists_of_owns howns
    obtain ⟨hconsistent, hkeeps, hentry⟩ :
        Consistent registry (withFieldsOf decl found d.symbols) ∧
          d.symbols.Keeps (withFieldsOf decl found d.symbols) ∧
          ∀ slot : Slot,
            slot.stored? (withFieldsOf decl found d.symbols) = slot.stored? d.symbols :=
      keeps_withTypeAndInfo hd hfound rfl rfl rfl
    have hfields : ((repeatedFields [] decl.fields).map fun name =>
        (⟨.error, .duplicate .field name.name, name.range⟩ : Diagnostic)).filter isCollision =
          [] := by
      refine List.filter_eq_nil_iff.2 fun x hx => ?_
      obtain ⟨repeated, -, rfl⟩ := List.mem_map.1 hx
      exact Bool.false_ne_true
    simp only [if_true, withStruct_eq hfound, structComplaints]
    cases hcontains : d.symbols.functions.contains decl.name.name with
    | true =>
      have htaken := (Slot.taken_function d.symbols decl.name.name).trans hcontains
      refine ⟨hconsistent, hkeeps, fun slot _ => hentry slot, ?_, _, rfl, ?_⟩
      · rintro _ ⟨⟩
        rw [Request.declared, if_pos htaken]
        rfl
      · rw [List.filter_append, hfields]
        simp [Request.collision, Request.complaint, Request.declared, Slot.name, isCollision,
          htaken]
    | false =>
      have htaken := (Slot.taken_function d.symbols decl.name.name).trans hcontains
      have henters := enters_function hconsistent (constructorValue decl d.symbols)
        (Table.get?_of_free hcontains)
      refine ⟨henters.consistent, hkeeps.trans henters.keeps, fun slot hslot => ?_, ?_, _, rfl, ?_⟩
      · exact (henters.frame slot (hslot _ rfl)).trans (hentry slot)
      · rintro _ ⟨⟩
        rw [Request.declared, if_neg (by simp [htaken])]
        exact henters.entry
      · rw [List.filter_append, hfields]
        simp [Request.collision, Request.declared, htaken]

/-! ### Blocks -/

theorem outcome_target (owner : Ident) :
    Outcome registry none d (after (Action.target owner).run d) := by
  rw [Action.run, after_block]
  split
  · exact outcome_none hd
  · exact outcome_complaints hd [⟨.error, .undefined .struct owner.name none, owner.range⟩] rfl

omit hd in
theorem after_inBlock (owner : Ident) (entry : SelfType → DeclareM Unit) :
    after (Action.inBlock owner entry) d =
      match d.symbols.selfOf? owner.name with
      | some self => after (entry self) d
      | none => d := by
  rw [Action.inBlock, after_symbols]
  cases d.symbols.selfOf? owner.name <;> rfl

theorem outcome_method (owner : Ident) (decl : FunctionDecl) :
    Outcome registry ((Action.method owner decl).request? d.symbols) d
      (after (Action.method owner decl).run d) := by
  rw [Action.run, Action.request?, after_inBlock]
  cases hself : Symbols.selfOf? d.symbols owner.name with
  | none => exact outcome_none hd
  | some self =>
    obtain ⟨found, hfound, -, rfl⟩ := exists_of_selfOf? hself
    dsimp only
    cases hreceiver : hasReceiver decl with
    | false =>
      rw [enterFunction, after_makeEntry, withFunction, hreceiver]
      exact outcome_complaints hd _ rfl
    | true =>
      rw [enterFunction_method _ hreceiver]
      exact outcome_enterNew hd
        (.declared d.symbols (.method owner.name decl.name.name) .method decl.name) (by rintro ⟨⟩)
        Option.isSome_map fun hfree => enters_method hd (by rw [hfound]; rfl) _
          (Table.get?_of_free hfree)

theorem outcome_operator (owner : Ident) (decl : FunctionDecl) :
    Outcome registry none d (after (Action.operator owner decl).run d) := by
  rw [Action.run, after_inBlock]
  cases hself : Symbols.selfOf? d.symbols owner.name with
  | none => exact outcome_none hd
  | some self =>
    obtain ⟨found, hfound, -, rfl⟩ := exists_of_selfOf? hself
    dsimp only
    rw [enterFunction, after_makeEntry, withFunction]
    cases classify { symbols := d.symbols, self := some ⟨owner.name, found.ty⟩ } found.ty decl with
    | error fault => exact outcome_complaints hd _ rfl
    | ok entry =>
      obtain ⟨op, side, overload⟩ := entry
      have hmethods (info : StructInfo) : (withOverload info op overload side).methods =
          info.methods := by cases side <;> rfl
      let change (info : StructInfo) : StructInfo := withOverload info op overload side
      obtain ⟨hconsistent, hkeeps⟩ := keeps_withInfo hd owner.name change
        (by rw [hfound]; rfl) (by rw [hmethods]; exact .refl (fun _ => rfl) _)
      have hframe := stored?_withInfo d.symbols owner.name change (hmethods _)
      exact ⟨hconsistent, hkeeps, fun slot _ => hframe slot,
        fun r hr => absurd hr (Option.not_mem_none r), [], (List.append_nil _).symm, rfl⟩

end Outcomes

/-- What an action does. -/
theorem outcome_run {registry : Registry} {d : Declarations} (hd : Consistent registry d.symbols)
    (action : Action) :
    Outcome registry (action.request? d.symbols) d (after action.run d) := by
  cases action with
  | missing kind name owner range => exact outcome_complaints hd _ rfl
  | importConstant module name range =>
    exact outcome_importAs hd fun _ _ =>
      outcome_enterNew hd (.imported (.constant name) .constant range)
      nofun Option.isSome_map fun hfree => enters_constant hd _ (Table.get?_of_free hfree)
  | importFunction module name range =>
    exact outcome_importAs hd fun _ _ =>
      outcome_enterNew hd (.imported (.function name) .function range)
      nofun Option.isSome_map fun hfree => enters_function hd _ (Table.get?_of_free hfree)
  | importType module name range =>
    exact outcome_importAs hd fun _ _ => outcome_enterNew hd (.imported (.type name) .type range)
      nofun Option.isSome_map fun hfree => enters_type hd _ (Table.get?_of_free hfree)
  | nameModule module name =>
    exact outcome_enterNew hd (.imported (.module name.name) .module (some name.range)) nofun
      Option.isSome_map fun hfree => enters_module hd module.name (Table.get?_of_free hfree)
  | struct decl =>
    exact outcome_enterNew hd (.declared d.symbols (.type decl.name.name) .struct decl.name) nofun
      Option.isSome_map fun hfree => enters_struct hd _ (Table.get?_of_free hfree)
  | fields decl => exact outcome_fields hd decl
  | typeAlias decl =>
    exact outcome_enterNew hd (.declared d.symbols (.type decl.name.name) .type decl.name) nofun
      Option.isSome_map fun hfree => enters_type hd _ (Table.get?_of_free hfree)
  | function decl =>
    exact outcome_enterNew hd (.declared d.symbols (.function decl.name.name) .function decl.name)
      nofun Option.isSome_map fun hfree => enters_function hd _ (Table.get?_of_free hfree)
  | target owner => exact outcome_target hd owner
  | method owner decl => exact outcome_method hd owner decl
  | operator owner decl => exact outcome_operator hd owner decl
  | const decl =>
    exact outcome_enterNew hd (.declared d.symbols (.constant decl.name.name) .constant decl.name)
      nofun Option.isSome_map fun hfree => enters_constant hd _ (Table.get?_of_free hfree)

end Declare

end ScriptCheck
