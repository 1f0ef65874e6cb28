import ScriptCheck.Endless
import ScriptCheck.Proofs.Signatures

/-!
# Overloads of operators

Blocks of operators for a struct stand anywhere in a script, before or after the struct. The first
pass comes to them in the order of the script, once all types are known. A function that it accepts
is appended to the table of the side on which the struct stands, so that the tables list the
accepted functions of all blocks (`Script.overloads_declarations`). Which functions these are does
not depend on how far the pass has come: blocks leave the types and the fields of structs alone
(`Symbols.SameFields`).

Operands of the types that an overload is written for find this overload or one before it, if the
comparisons on the way have an end (`accepted_overloads_installed_and_usable`). They need not
(`overload_search_without_end`).
-/

namespace ScriptCheck

open Declare

/-! ## Structs before the blocks -/

/-- Every struct is a record of its own name and has an entry, and no entry has overloads. -/
structure Symbols.Enrolled (s : Symbols) : Prop where
  types : s.types.All fun name found => found.isStruct = true →
    ∃ fields, found.ty = structType s name fields
  registered : s.Registered
  structs : s.structs.All fun _ info => ∀ side, info.overloads side = {}

theorem Declare.enrolled_entry {xs : List Item} {phase : Phase} {s s' : Symbols}
    (hphase : phase ≠ .functions) (hentry : Entry xs s phase s') (h : s.Enrolled) :
    s'.Enrolled := by
  cases hentry with
  | importedConstant | importedFunction | module | constant =>
    exact ⟨h.types, h.registered, h.structs⟩
  | importedType _ name =>
    exact ⟨h.types.insert nofun, h.registered.enterType name rfl, h.structs⟩
  | typeAlias decl =>
    exact ⟨h.types.insert nofun, h.registered.enterType decl.name.name rfl, h.structs⟩
  | struct decl =>
    refine ⟨h.types.insert fun _ => ⟨[], rfl⟩,
      h.registered.mono (fun name found hfound hstruct => ?_) fun name hname => ?_,
      h.structs.insert fun side => by cases side <;> rfl⟩
    · rw [Table.get?_insert] at hfound
      split at hfound
      · rename_i heq
        rw [heq, Table.get?_insert_self]
        exact .inl rfl
      · exact .inr ⟨found, hfound, hstruct⟩
    · rw [Table.get?_insert]
      split
      · rfl
      · exact hname
  | fields decl =>
    have htypes : (withStruct decl s).types.All fun name found => found.isStruct = true →
        ∃ fields, found.ty = structType s name fields := by
      dsimp only [withStruct]
      split
      · exact h.types.insert fun _ => ⟨_, rfl⟩
      · exact h.types
    refine ⟨htypes, withStruct_registered decl h.registered, h.structs.insert fun side => ?_⟩
    have hinfo : ((s.structs.get? decl.name.name).getD {}).overloads side = {} :=
      h.structs.getD (fun side => by cases side <;> rfl) decl.name.name side
    cases side <;> exact hinfo
  | function | method | operator => exact absurd rfl hphase

theorem Script.enrolled_types (registry : Registry) (script : Script) :
    (script.declaredUpTo registry .types).symbols.Enrolled := by
  have hphase (phase : Phase) (hphase : phase ≠ .functions) {d : Declarations}
      (hd : d.symbols.Enrolled) : (afterPhase script.items phase d).symbols.Enrolled :=
    Declare.symbols_induction (enrolled_entry hphase) hd
  have hstart : Symbols.Enrolled { registry, moduleName := script.name } :=
    ⟨.empty, fun _ _ hfound => (by cases hfound), .empty⟩
  exact hphase .types nofun (hphase .structs nofun (hphase .imports nofun (d := ⟨_, []⟩) hstart))

/-! ## What blocks leave alone -/

/-- Symbols of one script with the same types, in which structs have the same fields. -/
structure Symbols.SameFields (s t : Symbols) : Prop extends s.SameTypes t where
  moduleName : s.moduleName = t.moduleName
  fields : ∀ name,
    (s.structs.get? name).map StructInfo.fields = (t.structs.get? name).map StructInfo.fields

namespace Symbols.SameFields

variable {s t : Symbols}

theorem refl (s : Symbols) : s.SameFields s := ⟨⟨rfl, rfl, rfl⟩, rfl, fun _ => rfl⟩

theorem selfOf? (h : s.SameFields t) (name : String) :
    Symbols.selfOf? s name = Symbols.selfOf? t name := by
  rw [Symbols.selfOf?, Symbols.selfOf?, h.types]

theorem registered (h : s.SameFields t) (hs : s.Registered) : t.Registered := by
  intro name found hfound hstruct
  rw [← h.types] at hfound
  have hinfo := congrArg Option.isSome (h.fields name)
  rw [Option.isSome_map, Option.isSome_map] at hinfo
  exact hinfo ▸ hs name found hfound hstruct

theorem fieldsOf (h : s.SameFields t) (name : QName) (items : List (String × Ty)) :
    s.fieldsOf name items = t.fieldsOf name items := by
  rw [fieldsOf_eq, fieldsOf_eq, Symbols.struct?, Symbols.struct?, h.moduleName]
  split
  · rw [h.fields]
  · rfl

/-- Whether a function is accepted depends on the types and the fields of structs only. -/
theorem classify (h : s.SameFields t) (self : SelfType) (decl : FunctionDecl) :
    classify { symbols := s, self } self.ty decl =
      classify { symbols := t, self } self.ty decl := by
  have haccepts := accepts_congr h.registry h.fieldsOf
  have hsignature : signature { symbols := s, self } decl false =
      signature { symbols := t, self } decl false := by
    simp only [signature, h.resolve]
  simp only [Declare.classify, classifyWith, hsignature, haccepts, Symbols.define, h.moduleName]

/-- A block changes the entry of a struct that has one. -/
theorem withInfo (h : s.SameFields t) (hs : s.Registered) {name : String} {self : SelfType}
    (hself : Symbols.selfOf? t name = some self) {change : StructInfo → StructInfo}
    (hchange : ∀ info, (change info).fields = info.fields) :
    s.SameFields (withInfo t self.name change) := by
  refine ⟨⟨h.types, h.modules, h.registry⟩, h.moduleName, fun struct => (h.fields struct).trans ?_⟩
  obtain ⟨found, hfound, hstruct, rfl⟩ := exists_of_selfOf? hself
  obtain ⟨info, hinfo⟩ := Option.isSome_iff_exists.1 (h.registered hs name found hfound hstruct)
  rw [Declare.withInfo, Table.get?_insert]
  split
  · rename_i heq
    rw [heq, hinfo, Option.map_some, Option.map_some, Option.getD_some, hchange]
  · rfl

theorem entry (hs : s.Registered) {xs : List Item} {phase : Phase}
    (hphase : phase = .functions ∨ phase = .constants) {t t' : Symbols}
    (hentry : Entry xs t phase t') (hd : s.SameFields t) : s.SameFields t' := by
  cases hentry with
  | importedConstant | importedFunction | importedType | module | struct | fields | typeAlias =>
    simp at hphase
  | function | constant =>
    exact ⟨⟨hd.types, hd.modules, hd.registry⟩, hd.moduleName, hd.fields⟩
  | method block _ self hself =>
    exact hd.withInfo hs hself fun _ => rfl
  | operator block _ self hself decl _ op side overload =>
    refine hd.withInfo hs hself ?_
    cases side <;> exact fun _ => rfl

end Symbols.SameFields

/-! ## Tables of overloads -/

/-- The overloads of an operator that a struct has on one side. -/
def Symbols.overloads (s : Symbols) (struct : String) (side : Side) (op : Operator) :
    List Overload :=
  ((((s.structs.get? struct).getD {}).overloads side).get? op).getD []

/-- The functions of an item that are written as overloads for a struct. -/
def Item.overloadsFor (struct : String) : Item → List FunctionDecl
  | .operators block => if block.name.name = struct then block.functions else []
  | .use _ | .const _ | .function _ | .struct _ | .typeAlias _ | .methods _ => []

/-- The functions of all blocks of operators for a struct, as they stand in the script. -/
def Script.overloadsFor (script : Script) (struct : String) : List FunctionDecl :=
  script.items.flatMap (Item.overloadsFor struct)

/-- The overload of an operator on one side that a function is accepted as. -/
def Declare.overloadOn? (view : View) (self : Ty) (side : Side) (op : Operator)
    (decl : FunctionDecl) : Option Overload :=
  match classify view self decl with
  | .ok (op', side', overload) => if op' = op ∧ side' = side then some overload else none
  | .error _ => none

theorem Declare.overloadOn?_eq_some_iff {view : View} {self : Ty} {side : Side} {op : Operator}
    {decl : FunctionDecl} {overload : Overload} :
    overloadOn? view self side op decl = some overload ↔
      classify view self decl = .ok (op, side, overload) := by
  rw [overloadOn?]
  split
  · rename_i hclassify
    rw [hclassify]
    grind
  · rename_i hclassify
    rw [hclassify]
    simp

section Blocks

variable {s : Symbols} {struct : String} {side : Side} {op : Operator}

theorem Declare.overloads_withInfo_of_ne {name : String} (h : struct ≠ name)
    (change : StructInfo → StructInfo) :
    (withInfo s name change).overloads struct side op = s.overloads struct side op := by
  rw [Symbols.overloads, withInfo, Table.get?_insert_of_ne _ h]
  rfl

theorem Declare.overloads_withInfo (name : String) {change : StructInfo → StructInfo}
    (hchange : ∀ info, (change info).overloads side = info.overloads side) :
    (withInfo s name change).overloads struct side op = s.overloads struct side op := by
  by_cases h : struct = name
  · rw [Symbols.overloads, get?_withInfo s h.symm, Option.getD_some, hchange, h]
    rfl
  · exact overloads_withInfo_of_ne h change

/-- An overload is appended to the table it belongs to. -/
theorem Declare.overloads_withOverload (op' : Operator) (side' : Side) (overload : Overload) :
    (withInfo s struct fun info => withOverload info op' overload side').overloads struct side op =
      s.overloads struct side op ++ if op' = op ∧ side' = side then [overload] else [] := by
  rw [Symbols.overloads, get?_withInfo s rfl, Option.getD_some, Symbols.overloads]
  generalize (s.structs.get? struct).getD {} = info
  cases side' <;> cases side <;>
    simp only [withOverload, StructInfo.overloads, addOverload, Table.get?_insert, reduceCtorEq,
      and_false, and_true, if_false, List.append_nil, eq_comm (a := op)] <;>
    split <;> simp_all

/-- Other items leave the overloads of a struct alone. -/
theorem Declare.overloads_entry_of_other {xs : List Item} {s s' : Symbols}
    (hxs : ∀ x ∈ xs, x.overloadsFor struct = []) (hentry : Entry xs s .functions s') :
    s'.overloads struct side op = s.overloads struct side op := by
  cases hentry with
  | function => rfl
  | method block _ self =>
    refine overloads_withInfo self.name fun info => ?_
    cases side <;> rfl
  | operator block hmem self hself decl hdecl =>
    refine overloads_withInfo_of_ne (fun hname => ?_) _
    -- a block for the struct would have no functions
    have hblock := hxs _ hmem
    obtain ⟨found, -, -, rfl⟩ := exists_of_selfOf? hself
    rw [Item.overloadsFor, if_pos hname.symm] at hblock
    rw [hblock] at hdecl
    cases hdecl

/-! The symbols `t` are those that the blocks start from, and `self` is the struct. -/

variable {t : Symbols} {self : SelfType} (ht : t.Registered)
  (hself : Symbols.selfOf? t struct = some self)

include ht hself

/-- The symbols after a function of a block for the struct. -/
theorem Declare.overloads_after_operator {d : Declarations} (decl : FunctionDecl)
    (hd : t.SameFields d.symbols) :
    t.SameFields (after (enterFunction (.operators self) decl) d).symbols ∧
      ∀ side op, (after (enterFunction (.operators self) decl) d).symbols.overloads struct side op =
        d.symbols.overloads struct side op ++
          (overloadOn? { symbols := t, self } self.ty side op decl).toList := by
  have hname : self.name = struct := congrArg SelfType.name (name_of_selfOf? hself)
  simp only [enterFunction, after_makeEntry, withFunction, overloadOn?, hd.classify self decl]
  cases classify { symbols := d.symbols, self } self.ty decl with
  | error => exact ⟨hd, fun side op => (List.append_nil _).symm⟩
  | ok found =>
    obtain ⟨op', side', overload⟩ := found
    dsimp only
    refine ⟨hd.withInfo ht (hd.selfOf? struct ▸ hself) fun info => ?_, fun side op => ?_⟩
    · cases side' <;> rfl
    · rw [hname, overloads_withOverload]
      split <;> rfl

/-- The symbols after the functions of a block for the struct. -/
theorem Declare.overloads_after_block : (decls : List FunctionDecl) → {d : Declarations} →
    t.SameFields d.symbols → ∀ side op,
      (after (each (enterFunction (.operators self)) decls) d).symbols.overloads struct side op =
        d.symbols.overloads struct side op ++
          decls.filterMap (overloadOn? { symbols := t, self } self.ty side op)
  | [], _, _, _, _ => (List.append_nil _).symm
  | decl :: rest, d, hd, side, op => by
    obtain ⟨hfields, hoverloads⟩ := overloads_after_operator ht hself decl hd
    refine (overloads_after_block rest hfields side op).trans ?_
    rw [hoverloads, List.append_assoc]
    congr 1
    rw [List.filterMap_cons]
    split <;> simp_all

/-- The symbols after an item. -/
theorem Declare.overloads_after_item (x : Item) {d : Declarations} (hd : t.SameFields d.symbols) :
    t.SameFields (after (functionItem x) d).symbols ∧
      ∀ side op, (after (functionItem x) d).symbols.overloads struct side op =
        d.symbols.overloads struct side op ++
          (x.overloadsFor struct).filterMap
            (overloadOn? { symbols := t, self } self.ty side op) := by
  have hphase : after (functionItem x) d = afterPhase [x] .functions d := rfl
  refine ⟨?_, fun side op => ?_⟩
  · rw [hphase]
    exact symbols_induction (.entry ht (.inl rfl)) hd
  by_cases hx : x.overloadsFor struct = []
  · rw [hx, List.filterMap_nil, List.append_nil, hphase]
    refine symbols_induction (I := fun s => s.overloads struct side op = _)
      (fun hentry h => (overloads_entry_of_other ?_ hentry).trans h) rfl
    exact List.forall_mem_singleton.2 hx
  · cases x with
    | use | const | function | struct | typeAlias | methods => exact absurd rfl hx
    | operators block =>
      have hname : block.name.name = struct := by
        by_contra hname
        exact hx (if_neg hname)
      have hself' : Symbols.selfOf? d.symbols block.name.name = some self := by
        rw [hname, ← hd.selfOf?, hself]
      have hblock : after (functionItem (.operators block)) d =
          after (each (enterFunction (.operators self)) block.functions) d := by
        refine (after_block _ block d).trans ?_
        rw [hself']
      rw [hblock, Item.overloadsFor, if_pos hname]
      exact overloads_after_block ht hself block.functions hd side op

/-- The symbols after all functions, methods and overloads. -/
theorem Declare.overloads_after_functionItems : (xs : List Item) → {d : Declarations} →
    t.SameFields d.symbols →
    t.SameFields (after (each functionItem xs) d).symbols ∧
      ∀ side op, (after (each functionItem xs) d).symbols.overloads struct side op =
        d.symbols.overloads struct side op ++
          (xs.flatMap (Item.overloadsFor struct)).filterMap
            (overloadOn? { symbols := t, self } self.ty side op)
  | [], _, hd => ⟨hd, fun _ _ => (List.append_nil _).symm⟩
  | x :: xs, d, hd => by
    obtain ⟨hitem, hoverloads⟩ := overloads_after_item ht hself x hd
    obtain ⟨hitems, hrest⟩ := overloads_after_functionItems xs hitem
    refine ⟨hitems, fun side op => (hrest side op).trans ?_⟩
    rw [hoverloads, List.append_assoc, List.flatMap_cons, List.filterMap_append]

end Blocks

namespace Script

variable (registry : Registry) (script : Script)

/-- The functions phase and the constants phase leave the types and the fields of structs alone. -/
theorem sameFields_declarations : (script.declaredUpTo registry .types).symbols.SameFields
    (script.declarations registry).symbols := by
  have hregistered := (script.enrolled_types registry).registered
  have hphase (phase : Phase) (hphase : phase = .functions ∨ phase = .constants)
      {d : Declarations}
      (hd : (script.declaredUpTo registry .types).symbols.SameFields d.symbols) :
      (script.declaredUpTo registry .types).symbols.SameFields
        (afterPhase script.items phase d).symbols :=
    Declare.symbols_induction (.entry hregistered hphase) hd
  exact hphase .constants (.inr rfl) (hphase .functions (.inl rfl) (.refl _))

/-- The tables of a struct list the functions of its blocks that are accepted. -/
theorem overloads_declarations {struct : String} {self : SelfType}
    (hself : Symbols.selfOf? (script.declarations registry).symbols struct = some self)
    (side : Side)
    (op : Operator) :
    (script.declarations registry).symbols.overloads struct side op =
      (script.overloadsFor struct).filterMap
        (overloadOn? { symbols := (script.declarations registry).symbols, self } self.ty side
          op) := by
  have henrolled := script.enrolled_types registry
  have hsame := script.sameFields_declarations registry
  have hview : overloadOn? { symbols := (script.declaredUpTo registry .types).symbols, self }
      self.ty side op = overloadOn?
        { symbols := (script.declarations registry).symbols, self } self.ty side op := by
    funext decl
    rw [overloadOn?, overloadOn?, hsame.classify]
  have hconstants : (script.declarations registry).symbols.structs =
      (script.declaredUpTo registry .functions).symbols.structs := by
    have hphase : script.declarations registry =
        afterPhase script.items .constants (script.declaredUpTo registry .functions) := rfl
    rw [hphase]
    refine Declare.symbols_induction (I := fun s => s.structs = _) (fun hentry h => ?_) rfl
    cases hentry with | constant => exact h
  have hstart : (script.declaredUpTo registry .types).symbols.overloads struct side op = [] := by
    rw [Symbols.overloads, henrolled.structs.getD (fun side => by cases side <;> rfl) struct side]
    rfl
  have hfunctions := (overloads_after_functionItems henrolled.registered
    (hsame.selfOf? struct ▸ hself) script.items
    (.refl (script.declaredUpTo registry .types).symbols)).2 side op
  rw [hstart, List.nil_append, hview] at hfunctions
  rw [Symbols.overloads, hconstants]
  exact hfunctions

/-- A struct is looked up by its type. -/
theorem structOf?_self {struct : String} {self : SelfType}
    (hself : Symbols.selfOf? (script.declarations registry).symbols struct = some self) :
    (script.declarations registry).symbols.structOf? self.ty =
      (script.declarations registry).symbols.structs.get? struct := by
  have hsame := script.sameFields_declarations registry
  obtain ⟨found, hfound, hstruct, rfl⟩ := exists_of_selfOf? hself
  rw [← hsame.types] at hfound
  obtain ⟨fields, hty⟩ := (script.enrolled_types registry).types.get? hfound hstruct
  rw [hty]
  exact if_pos hsame.moduleName

end Script

/-! ## Finding an overload -/

namespace Check

/-- Comparisons that have an end are answered, and nothing else happens. What happens where a
comparison has none is left open. -/
def Comparing.Honest (A : Comparing) : Prop :=
  ∀ {c : Checker} {expected found : Ty} {answer : Bool},
    c.view.symbols.verdict? expected found = some answer →
      (A.ask expected found).run c = (answer, c)

theorem Comparing.honest_plain : Comparing.plain.Honest := by
  intro c expected found answer h
  change (c.view.symbols.accepts expected found, c) = (answer, c)
  rw [Symbols.accepts, h, Option.getD_some]

variable {other : Ty} {found? : Option Overload} {c : Checker}

/-- A search that has an end finds what it finds by the answers of its comparisons. -/
theorem run_pickWith [A : Comparing] (hA : A.Honest) : (overloads : List Overload) →
    Overload.pickWith c.view.symbols.verdict? other overloads = some found? →
    (Overload.pickWith Comparing.ask other overloads).run c = (found?, c)
  | [], h => by
    obtain rfl := Option.some.inj h
    rfl
  | o :: rest, h => by
    rw [Overload.pickWith, Option.bind_eq_bind, Option.bind_eq_some_iff] at h
    obtain ⟨taken, htaken, hrest⟩ := h
    have hask : (o.takenWith Comparing.ask other).run c = (taken, c) := by
      rw [Overload.takenWith] at htaken ⊢
      cases hunit : o.other.isUnit == other.isUnit with
      | true =>
        rw [hunit, if_pos rfl] at htaken
        exact hA htaken
      | false =>
        rw [hunit] at htaken
        obtain rfl := Option.some.inj htaken
        rfl
    rw [Overload.pickWith, StateT.run_bind, hask]
    cases taken with
    | true =>
      obtain rfl := Option.some.inj hrest
      rfl
    | false => exact run_pickWith hA rest hrest

/-- The state with more diagnostics. -/
def withNotes (c : Checker) (added : List Diagnostic) : Checker :=
  { c with report := { c.report with diagnostics := c.report.diagnostics ++ added } }

/-- A comparison without an end is noted, and no other. -/
theorem run_noting (expected found : Ty) (c : Checker) :
    (Comparing.noting.ask expected found).run c =
      match c.view.symbols.verdict? expected found with
      | some answer => (answer, c)
      | none => (false, withNotes c [⟨.error, .mismatch expected found, {}⟩]) := by
  dsimp only [Comparing.ask]
  rw [run_symbols_bind]
  cases c.view.symbols.verdict? expected found <;> rfl

theorem Comparing.honest_noting : Comparing.noting.Honest := by
  intro c expected found answer h
  rw [run_noting, h]

theorem noting_takenWith (other : Ty) (o : Overload) (c : Checker) :
    ∃ taken added, (o.takenWith Comparing.noting.ask other).run c = (taken, withNotes c added) ∧
      (added = [] → o.takenWith c.view.symbols.verdict? other = some taken) := by
  have hnone : withNotes c [] = c := by simp [withNotes]
  unfold Overload.takenWith
  split
  · rw [run_noting]
    cases c.view.symbols.verdict? o.other other with
    | some answer => exact ⟨answer, [], by rw [hnone], fun _ => rfl⟩
    | none => exact ⟨false, _, rfl, nofun⟩
  · exact ⟨false, [], by rw [hnone]; rfl, fun _ => rfl⟩

/-- A search that notes nothing has an end. -/
theorem noting_pickWith (other : Ty) : (overloads : List Overload) → (c : Checker) →
    ∃ found? added, (Overload.pickWith Comparing.noting.ask other overloads).run c =
        (found?, withNotes c added) ∧
      (added = [] → Overload.pickWith c.view.symbols.verdict? other overloads = some found?)
  | [], c => ⟨none, [], by simp only [withNotes, List.append_nil]; rfl, fun _ => rfl⟩
  | o :: rest, c => by
    obtain ⟨taken, added, hask, htaken⟩ := noting_takenWith other o c
    rw [Overload.pickWith, StateT.run_bind, hask]
    cases taken with
    | true =>
      refine ⟨some o, added, rfl, fun hadded => ?_⟩
      rw [Overload.pickWith, htaken hadded]
      rfl
    | false =>
      obtain ⟨found?, more, hrest, hfound⟩ := noting_pickWith other rest (withNotes c added)
      refine ⟨found?, added ++ more, hrest.trans ?_, fun hadded => ?_⟩
      · simp only [withNotes, List.append_assoc]
      · obtain ⟨hadded, hmore⟩ := List.append_eq_nil_iff.1 hadded
        rw [Overload.pickWith, htaken hadded]
        exact hfound hmore

theorem noting_search (overloads : Symbols → List Overload) (other : Ty) (c : Checker) :
    ∃ found? added, (@search .noting overloads other).run c = (found?, withNotes c added) ∧
      (added = [] → Overload.pickWith c.view.symbols.verdict? other (overloads c.view.symbols) =
        some found?) :=
  noting_pickWith other (overloads c.view.symbols) c

/-- One of the overloads is written for the operand, whose type accepts itself. -/
def Offers (s : Symbols) (overloads : List Overload) (other : Ty) : Prop :=
  s.accepts other other = true ∧ ∃ o ∈ overloads, o.other = other

/-- This overload is found or one before it, if the search has an end. -/
theorem Offers.isSome {s : Symbols} : {overloads : List Overload} → Offers s overloads other →
    Overload.pickWith s.verdict? other overloads = some found? → found?.isSome = true
  | [], ⟨_, _, hmem, _⟩, _ => absurd hmem List.not_mem_nil
  | o :: rest, ⟨haccepts, o', hmem, hother⟩, h => by
    rw [Overload.pickWith, Option.bind_eq_bind, Option.bind_eq_some_iff] at h
    obtain ⟨taken, htaken, hrest⟩ := h
    cases taken with
    | true =>
      obtain rfl := Option.some.inj hrest
      rfl
    | false =>
      refine Offers.isSome ⟨haccepts, o', (List.mem_cons.1 hmem).resolve_left ?_, hother⟩ hrest
      rintro rfl
      have hverdict : s.verdict? other other = some false := by
        rwa [Overload.takenWith, hother, BEq.rfl, if_pos rfl] at htaken
      rw [Symbols.accepts, hverdict] at haccepts
      cases haccepts

end Check

/-! ## Functions that are accepted -/

/-- The overloads for a value of the given type on the left, for a suffix, or on the right. -/
def Symbols.overloadsOn (s : Symbols) : Side → Ty → Operator → List Overload
  | .suffixSide => s.suffixOverloads
  | .prefixSide => s.prefixOverloads

theorem Symbols.mem_overloadsOn {s : Symbols} {ty : Ty} {struct : String} {side : Side}
    {op : Operator} {overload : Overload} (hty : s.structOf? ty = s.structs.get? struct)
    (hmem : overload ∈ s.overloads struct side op) : overload ∈ s.overloadsOn side ty op := by
  rw [Symbols.overloads] at hmem
  cases hinfo : s.structs.get? struct with
  | none =>
    rw [hinfo, Option.getD_none] at hmem
    cases side <;> cases hmem
  | some info =>
    rw [hinfo, Option.getD_some] at hmem
    rw [hinfo] at hty
    cases side with
    | prefixSide => rwa [overloadsOn, prefixOverloads, overloadsIn, hty]
    | suffixSide => rwa [overloadsOn, suffixOverloads, overloadsIn, hty]

theorem Symbols.accepts_unit (s : Symbols) : s.accepts Ty.unit Ty.unit = true := by
  refine accepts_eq_true_iff.2 ⟨1, ?_⟩
  simp [accepts?, Ty.unit, Ty.prelude]

namespace Declare

/-- Conjunction and disjunction are not overloaded. -/
theorem not_isLogical_of_overload? {name : String} {op : Operator}
    (h : (overload? name).map Prod.fst = some op) : op.isLogical = false := by
  have hnames : ∀ entry ∈ overloadNames, entry.2.1.isLogical = false := by decide
  rw [overload?, Option.map_map, Option.map_eq_some_iff] at h
  obtain ⟨entry, hentry, rfl⟩ := h
  exact hnames entry (List.mem_of_find?_eq_some hentry)

/-- The types of the operands that an accepted function is written for: its struct takes the place
of the parameter that accepts it. -/
def operandTypes (self : Ty) (params : List (Param Ty)) : Side → List Ty
  | .suffixSide => self :: (params.drop 1).map Param.ty
  | .prefixSide => (params.dropLast).map Param.ty ++ [self]

/-- An accepted function is offered to the operands that it is written for. -/
theorem Written.offers {s : Symbols} {params : List (Param Ty)} {side : Side} {op : Operator}
    {overload : Overload} (h : Written params side overload.other)
    (hparams : ∀ p ∈ params, s.accepts p.ty p.ty = true) {ty : Ty} {struct : String}
    (hty : s.structOf? ty = s.structs.get? struct)
    (hmem : overload ∈ s.overloads struct side op) :
    Check.Offers s (s.overloadsOn side ty op) overload.other := by
  refine ⟨?_, overload, Symbols.mem_overloadsOn hty hmem, rfl⟩
  generalize overload.other = other at h
  cases h with
  | unary => exact s.accepts_unit
  | left | right => exact hparams _ (by simp)

end Declare

/-! ## Applying an operator -/

namespace Expr

/-- The operator that an expression applies, and what it is applied to. -/
def operation? : Expr → Option (Operator × List Expr)
  | .unary _ op operand => some (op, [operand])
  | .binary _ left op right => some (op, [left, right])
  | _ => none

/-- Checks the operands of an operator from left to right. -/
def checkOperands [Check.Comparing] (operands : List Expr) (id : Nat) : CheckM (List Ty) :=
  operands.mapM fun e => e.check id none

end Expr

namespace Check

variable {range : Range} {op : Operator} {id : Nat} {s : Symbols} {c c' : Checker}

/-- The type of an operator that is applied to values of the given types. -/
def applied [Comparing] (range : Range) (op : Operator) : List Ty → CheckM Ty
  | [operand] => unaryOf range op operand
  | [left, right] => apply range left op right
  | _ => return .unknown

theorem run_bind {α β : Type} {m : CheckM α} {a : α} (hrun : m.run c = (a, c'))
    (k : α → CheckM β) : (m >>= k).run c = (k a).run c' := by
  rw [StateT.run_bind, hrun]
  rfl

theorem diagnostics_typed (range : Range) (rule : CheckM Ty) (c : Checker) :
    ((typed range rule).run c).2.report.diagnostics = (rule.run c).2.report.diagnostics := by
  change ((setType range (rule.run c).1).run (rule.run c).2).2.report.diagnostics = _
  obtain h | ⟨-, h⟩ := note_cases (fun r => { r with types := r.types.insert range (rule.run c).1 })
    (rule.run c).2
  · rw [setType, h]
  · rw [setType, h]

theorem run_checkOperands_cons [Comparing] {e : Expr} {ty : Ty}
    (hrun : (e.check id none).run c = (ty, c'))
    (rest : List Expr) :
    (Expr.checkOperands (e :: rest) id).run c =
      (ty :: ((Expr.checkOperands rest id).run c').1, ((Expr.checkOperands rest id).run c').2) := by
  rw [Expr.checkOperands, List.mapM_cons, run_bind hrun]
  rfl

/-! ### Searches that have an end -/

theorem exists_found_of_ends_unaryOf {ty : Ty} (hknown : ty.isUnknown = false)
    (h : ends s (fun _ => unaryOf range op ty) = true) :
    ∃ found?, Overload.pickWith s.verdict? Ty.unit (s.prefixOverloads ty op) = some found? := by
  obtain ⟨found?, added, hsearch, hfound⟩ :=
    noting_search (·.prefixOverloads ty op) Ty.unit { view := { symbols := s }, muted := 1 }
  refine ⟨found?, hfound ?_⟩
  simp only [ends, unaryOf, hknown, Bool.false_eq_true, if_false, run_bind hsearch] at h
  cases found? <;> exact List.isEmpty_iff.1 h

theorem exists_found_of_ends_apply {left right : Ty} (hleft : left.isUnknown = false)
    (hright : right.isUnknown = false) (h : ends s (fun _ => apply range left op right) = true) :
    ∃ found?, Overload.pickWith s.verdict? right (s.suffixOverloads left op) = some found? ∧
      (found? = none →
        ∃ found?,
          Overload.pickWith s.verdict? left (s.prefixOverloads right op) = some found?) := by
  obtain ⟨found?, added, hsearch, hfound⟩ :=
    noting_search (·.suffixOverloads left op) right { view := { symbols := s }, muted := 1 }
  simp only [ends, apply, hleft, hright, Bool.or_false, Bool.false_eq_true, if_false,
    run_bind hsearch] at h
  cases found? with
  | some found => exact ⟨some found, hfound (List.isEmpty_iff.1 h), by simp⟩
  | none =>
    obtain ⟨found?', more, hsearch', hfound'⟩ := noting_search (·.prefixOverloads right op) left
      (withNotes { view := { symbols := s }, muted := 1 } added)
    have hnotes : added ++ more = [] := by
      rw [run_bind hsearch'] at h
      cases found?' <;> exact List.isEmpty_iff.1 h
    obtain ⟨hadded, hmore⟩ := List.append_eq_nil_iff.1 hnotes
    exact ⟨none, hfound hadded, fun _ => ⟨found?', hfound' hmore⟩⟩

/-! ### Operators that are found -/

section

variable [A : Comparing] (hA : A.Honest)

include hA

theorem run_unaryOf {ty : Ty}
    (hends : ends c.view.symbols (fun _ => unaryOf range op ty) = true)
    (hoffers : Offers c.view.symbols (c.view.symbols.prefixOverloads ty op) Ty.unit) :
    ((unaryOf range op ty).run c).2 = c := by
  cases hknown : ty.isUnknown with
  | true =>
    rw [unaryOf, hknown]
    rfl
  | false =>
    obtain ⟨found?, hpick⟩ := exists_found_of_ends_unaryOf hknown hends
    obtain ⟨found, rfl⟩ := Option.isSome_iff_exists.1 (hoffers.isSome hpick)
    have hsearch : (search (·.prefixOverloads ty op) Ty.unit).run c = (some found, c) :=
      run_pickWith hA _ hpick
    rw [unaryOf, hknown, if_neg Bool.false_ne_true, run_bind hsearch]
    rfl

theorem run_apply {left right : Ty}
    (hends : ends c.view.symbols (fun _ => apply range left op right) = true)
    (hoffers : Offers c.view.symbols (c.view.symbols.suffixOverloads left op) right ∨
      Offers c.view.symbols (c.view.symbols.prefixOverloads right op) left) :
    ((apply range left op right).run c).2 = c := by
  cases hunknown : left.isUnknown || right.isUnknown with
  | true =>
    rw [apply, hunknown]
    rfl
  | false =>
    obtain ⟨hleft, hright⟩ := Bool.or_eq_false_iff.1 hunknown
    obtain ⟨found?, hpick, hnone⟩ := exists_found_of_ends_apply hleft hright hends
    have hsearch : (search (·.suffixOverloads left op) right).run c = (found?, c) :=
      run_pickWith hA _ hpick
    rw [apply, hunknown, if_neg Bool.false_ne_true, run_bind hsearch]
    cases found? with
    | some found => rfl
    | none =>
      obtain ⟨found?', hpick'⟩ := hnone rfl
      have hoffers := hoffers.resolve_left fun h => nomatch h.isSome hpick
      obtain ⟨found, rfl⟩ := Option.isSome_iff_exists.1 (hoffers.isSome hpick')
      have hsearch' : (search (·.prefixOverloads right op) left).run c = (some found, c) :=
        run_pickWith hA _ hpick'
      dsimp only
      rw [run_bind hsearch']
      rfl

/-- An operator is not complained about if an overload is offered to operands as they are written
and the search for it has an end. -/
theorem diagnostics_operation {params : List (Param Ty)} {side : Side} {self other : Ty}
    (hwritten : Written params side other) (hlogical : op.isLogical = false)
    (hoffers : Offers c'.view.symbols (c'.view.symbols.overloadsOn side self op) other) {e : Expr}
    {operands : List Expr} (hop : e.operation? = some (op, operands)) (hint : Option Ty)
    (hends : ends c'.view.symbols
      (fun _ => applied e.range op (operandTypes self params side)) = true)
    (hrun : (Expr.checkOperands operands id).run c = (operandTypes self params side, c')) :
    ((e.check id hint).run c).2.report.diagnostics = c'.report.diagnostics := by
  unfold Expr.operation? at hop
  split at hop
  · rename_i range _ operand
    obtain ⟨rfl, rfl⟩ := Prod.mk.inj (Option.some.inj hop)
    obtain ⟨ty, c₁, hoperand⟩ : ∃ ty c₁, (operand.check id none).run c = (ty, c₁) := ⟨_, _, rfl⟩
    rw [run_checkOperands_cons hoperand] at hrun
    obtain ⟨htypes, rfl⟩ := Prod.mk.inj hrun
    refine (diagnostics_typed range _ c).trans (congrArg (Report.diagnostics ∘ Checker.report) ?_)
    cases hwritten with
    | unary =>
      obtain ⟨rfl, -⟩ := List.cons.inj htypes
      exact (congrArg Prod.snd (run_bind hoperand _)).trans (run_unaryOf hA hends hoffers)
    | left | right => cases (List.cons.inj htypes).2
  · rename_i range left operator right
    obtain ⟨rfl, rfl⟩ := Prod.mk.inj (Option.some.inj hop)
    obtain ⟨l, c₁, hleft⟩ : ∃ l c₁, (left.check id none).run c = (l, c₁) := ⟨_, _, rfl⟩
    obtain ⟨r, c₂, hright⟩ : ∃ r c₂, (right.check id none).run c₁ = (r, c₂) := ⟨_, _, rfl⟩
    rw [run_checkOperands_cons hleft, run_checkOperands_cons hright] at hrun
    obtain ⟨htypes, rfl⟩ := Prod.mk.inj hrun
    refine (diagnostics_typed range _ c).trans (congrArg (Report.diagnostics ∘ Checker.report) ?_)
    have hbinary : (binary range left.part operator right.part id).run c =
        (apply range l operator r).run c₂ := by
      rw [binary, hlogical, if_neg Bool.false_ne_true]
      exact (run_bind hleft _).trans (run_bind hright _)
    refine (congrArg Prod.snd hbinary).trans ?_
    cases hwritten with
    | unary => cases (List.cons.inj htypes).2
    | left =>
      obtain ⟨rfl, hrest⟩ := List.cons.inj htypes
      obtain ⟨rfl, -⟩ := List.cons.inj hrest
      exact run_apply hA hends (.inl hoffers)
    | right =>
      obtain ⟨rfl, hrest⟩ := List.cons.inj htypes
      obtain ⟨rfl, -⟩ := List.cons.inj hrest
      exact run_apply hA hends (.inr hoffers)
  · cases hop

end

end Check

/-- The tables of a struct list, for each side and each operator, the functions of its blocks that
are accepted, in the order of the script. If the types of the parameters of such a function accept
themselves, and all comparisons have an end that are made when its operator is applied to operands
as the function takes them, an expression that does so adds nothing to what is reported about the
operands. This is so whatever is done about comparisons without an end. -/
theorem accepted_overloads_installed_and_usable (registry : Registry) (script : Script)
    {struct : String} {self : SelfType}
    (hself : Symbols.selfOf? (script.declarations registry).symbols struct = some self) :
    let v : View := { symbols := (script.declarations registry).symbols, self }
    (∀ side op, v.symbols.overloads struct side op =
      (script.overloadsFor struct).filterMap (overloadOn? v self.ty side op)) ∧
    ∀ decl ∈ script.overloadsFor struct, ∀ op side overload,
      classify v self.ty decl = .ok (op, side, overload) →
      (∀ p ∈ (signature v decl false).params, v.symbols.accepts p.ty p.ty = true) →
      let types := operandTypes self.ty (signature v decl false).params side
      ∀ (e : Expr) (operands : List Expr), e.operation? = some (op, operands) →
      Check.ends v.symbols (fun _ => Check.applied e.range op types) = true →
      ∀ A : Check.Comparing, A.Honest → ∀ (id : Nat) (hint : Option Ty) (c c' : Checker),
      (Expr.checkOperands operands id).run c = (types, c') → c'.view.symbols = v.symbols →
      ((e.check id hint).run c).2.report.diagnostics = c'.report.diagnostics := by
  intro v
  have htables := script.overloads_declarations registry hself
  refine ⟨htables, ?_⟩
  intro decl hdecl op side overload hclassify hparams types e operands hop hends A hA id hint c c'
    hrun hc
  obtain ⟨hname, hwritten, -, -⟩ := classify_ok hclassify
  have hmem : overload ∈ v.symbols.overloads struct side op := by
    rw [htables]
    exact List.mem_filterMap.2 ⟨decl, hdecl, overloadOn?_eq_some_iff.2 hclassify⟩
  have hoffers := hwritten.offers hparams (script.structOf?_self registry hself) hmem
  exact Check.diagnostics_operation hA hwritten (not_isLogical_of_overload? hname) (hc ▸ hoffers)
    hop hint (hc ▸ hends) hrun

/-- A function with the given parameter types that returns a force. -/
def forceOverload (name : String) (params : List TypeSpec) : FunctionDecl :=
  .ofBody name (params.map (.ofType "x")) "Force" (.ofName "x")

/-- The script
`impl operators Force { fn mul(x : float, x : Force) .. fn add(x : Force, x : float) .. }`,
`struct Force ( newton : float )`,
`impl operators Force { fn add(x : float, x : float) .. fn unary_minus(x : Force) ..
fn add(x : Force, x : Force) .. }`, in which no parameter of the third function is a force. -/
def forces : Script :=
  .ofItems
    [.operators (.ofFunctions "Force"
        [forceOverload "mul" [.plain "float", .plain "Force"],
          forceOverload "add" [.plain "Force", .plain "float"]]),
      .ofStruct "Force" [("newton", .plain "float")],
      .operators (.ofFunctions "Force"
        [forceOverload "add" [.plain "float", .plain "float"],
          forceOverload "unary_minus" [.plain "Force"],
          forceOverload "add" [.plain "Force", .plain "Force"]])]

/-- The struct of the script. -/
def forceType : Ty := .record (some ⟨"main", "Force"⟩) [("newton", .float)]

/-- The state in which a force `f` and a number `k` are known. -/
def forcesKnown : Checker where
  view := { symbols := (forces.declarations .empty).symbols }
  scopes :=
    let body := ({} : Scopes).push none (.function .unit)
    (body.declare 0 "f" { ty := forceType }).declare 0 "k" { ty := .float }

/-- Two of three functions called `add` are in one table, the first and the last. `k * f` and `-f`
are in order, while `f * k` is complained about. For `-f` also comparisons without an end would be
noted. -/
theorem accepted_overloads_installed_and_usable_forces :
    let f := Expr.ofName "f"
    let k := Expr.ofName "k"
    let reported (e : Expr) := ((e.check 0 none).run forcesKnown).2.report.diagnostics
    Symbols.selfOf? (forces.declarations .empty).symbols "Force" = some ⟨"Force", forceType⟩ ∧
      ((forces.declarations .empty).symbols.overloads "Force" .suffixSide .add).map
        Overload.other = [.float, forceType] ∧
      reported (.binary {} k .mul f) = [] ∧ reported (.binary {} f .mul k) ≠ [] ∧
      ((@Expr.check .noting (.unary {} .sub f) 0 none).run forcesKnown).2.report.diagnostics =
        [] := by
  intro f k reported
  have hself : Symbols.selfOf? (forces.declarations .empty).symbols "Force" =
      some ⟨"Force", forceType⟩ := by decide +kernel
  obtain ⟨htables, husable⟩ := accepted_overloads_installed_and_usable .empty forces hself
  have hfunctions : forces.overloadsFor "Force" =
      [forceOverload "mul" [.plain "float", .plain "Force"],
        forceOverload "add" [.plain "Force", .plain "float"],
        forceOverload "add" [.plain "float", .plain "float"],
        forceOverload "unary_minus" [.plain "Force"],
        forceOverload "add" [.plain "Force", .plain "Force"]] := rfl
  refine ⟨hself, ?_, ?_, by decide +kernel, ?_⟩
  · rw [htables]
    decide +kernel
  · refine (husable (forceOverload "mul" [.plain "float", .plain "Force"])
      (by simp [hfunctions]) .mul .prefixSide ⟨.float, forceType, some ⟨"main", {}⟩⟩ ?_ ?_ _
      [k, f] rfl ?_ _ Check.Comparing.honest_plain 0 none forcesKnown
      ((Expr.checkOperands [k, f] 0).run forcesKnown).2 (Prod.ext ?_ rfl) rfl).trans ?_
    all_goals decide +kernel
  · refine (husable (forceOverload "unary_minus" [.plain "Force"])
      (by simp [hfunctions]) .sub .prefixSide ⟨.unit, forceType, some ⟨"main", {}⟩⟩ ?_ ?_ _
      [f] rfl ?_ _ Check.Comparing.honest_noting 0 none forcesKnown _ (Prod.ext ?_ rfl)
      rfl).trans ?_
    all_goals decide +kernel

/-- A function `fn name(left : S, right : ..) -> S = body` of the given type on the right. -/
def ofStructAnd (right : TypeSpec) (name : String) (body : Expr) : FunctionDecl :=
  .ofBody name [.ofType "left" (.plain "S"), .ofType "right" right] "S" body

/-- The overload `fn add(left : S, right : ( f : fn(S) -> Unit )) -> S = left`. -/
def addArgument : FunctionDecl :=
  ofStructAnd (.record {} [("f", .function {} false [.plain "S"] (.plain "Unit"))]) "add"
    (.ofName "left")

/-- The script `selfCovering` with overloads of its struct for the struct itself and for the
argument of its field, and a function that applies the second one: `impl operators S { fn add(left :
S, right : S) -> S = left, fn add(left : S, right : ( f : fn(S) -> Unit )) -> S = left }`, `fn
sum(left : S, right : ( f : fn(S) -> Unit )) -> S = left + right`. -/
def selfAdding : Script :=
  .ofItems (selfCovering.items ++
    [.operators (.ofFunctions "S" [ofStructAnd (.plain "S") "add" (.ofName "left"), addArgument]),
      .function
        { addArgument with
          name := ⟨"sum", {}⟩, body := .binary {} (.ofName "left") .add (.ofName "right") }])

/-- The struct of the script. -/
def selfAddingStruct : Ty :=
  .record (some ⟨"main", "S"⟩) [("f", .fn [selfCoveringArgument] .unit)]

/-- The second overload is accepted, and the types of its parameters accept themselves. But where
its operator is applied, the first overload is compared first, and this comparison has no end: the
script is not validated. -/
theorem overload_search_without_end :
    let v : View :=
      { symbols := (selfAdding.declarations .empty).symbols, self := some ⟨"S", selfAddingStruct⟩ }
    let params := (signature v addArgument false).params
    v.symbols.selfOf? "S" = v.self ∧ addArgument ∈ selfAdding.overloadsFor "S" ∧
      (overloadOn? v selfAddingStruct .suffixSide .add addArgument).isSome ∧
      (∀ p ∈ params, v.symbols.accepts p.ty p.ty = true) ∧
      Check.ends v.symbols
        (fun _ => Check.applied {} .add (operandTypes selfAddingStruct params .suffixSide)) =
          false ∧
      selfAdding.check? .empty = .error .stack := by
  refine ⟨by decide +kernel, List.mem_cons_of_mem _ List.mem_cons_self, by decide +kernel,
    by decide +kernel, by decide +kernel, if_neg ?_⟩
  decide +kernel

end ScriptCheck
