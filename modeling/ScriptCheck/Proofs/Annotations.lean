import ScriptCheck.Proofs.Inference
import ScriptCheck.Proofs.TypeMaps

/-!
# Annotations

What there is to complain about in an annotation is decided by the view alone: `TypeSpec.faults`
lists one fault for each name that is not known or has the wrong number of arguments. Checking the
annotation complains about just these and returns the type that it resolves to
(`TypeSpec.writes_check`), that is, it complains once about each name that it mentions and that is
faulty (`TypeSpec.check_complains_about_faulty_names`). An annotation without faults has no unknown
part as long as the type names of the view have none (`TypeSpec.known_resolve`), and whether it has
faults depends on no more than how many arguments each name takes (`TypeSpec.faults_eq_nil_congr`).
-/

namespace ScriptCheck

/-! ## Faults -/

/-- How many arguments a type name takes, if it is known. -/
def View.arity? (v : View) (scope : Option String) (name : String) : Option Nat :=
  (v.type? scope name).map fun t => (t.genericNames v.symbols.registry).length

namespace TypeSpec

/-- The complaint about a type name that stands for nothing, or about the module in front of it. -/
def unknownName (s : Symbols) (scope : Option String) (name : String) : Problem :=
  match scope with
  | some module =>
    if (s.module? module).isNone then .undefined .module module none
    else .undefined .type name scope
  | none => .undefined .type name none

/-- What is wrong with a type name that has `count` arguments. -/
def nameFault? (v : View) (scope : Option String) (name : String) (count : Nat) : Option Problem :=
  match v.arity? scope name with
  | none => some (unknownName v.symbols scope name)
  | some expected =>
    if count ≠ 0 ∧ expected ≠ count then some (.count (.typeArguments name) expected count)
    else none

mutual
/-- What there is to complain about in an annotation. -/
def faults (v : View) : TypeSpec → List Diagnostic
  | .named range scope name args =>
    faultsOfList v args ++
      (nameFault? v scope name args.length).toList.map fun problem => ⟨.error, problem, range⟩
  | .array _ element => element.faults v
  | .option _ inner => inner.faults v
  | .result _ ok err => ok.faults v ++ err.faults v
  | .tuple _ items => faultsOfList v items
  | .record _ items => faultsOfItems v items
  | .function _ _ params ret => faultsOfList v params ++ ret.faults v

/-- What there is to complain about in the annotations of a list. -/
def faultsOfList (v : View) : List TypeSpec → List Diagnostic
  | [] => []
  | spec :: rest => spec.faults v ++ faultsOfList v rest

/-- What there is to complain about in the annotations of record items. -/
def faultsOfItems (v : View) : List (String × TypeSpec) → List Diagnostic
  | [] => []
  | (_, spec) :: rest => spec.faults v ++ faultsOfItems v rest
end

theorem nameFault?_eq_none_iff {v : View} {scope : Option String} {name : String} {count : Nat} :
    nameFault? v scope name count = none ↔
      ∃ expected, v.arity? scope name = some expected ∧ (count = 0 ∨ expected = count) := by
  unfold nameFault?
  cases v.arity? scope name with
  | none => simp
  | some expected => simp [or_iff_not_imp_left]

theorem faultsOfList_eq (v : View) (specs : List TypeSpec) :
    faultsOfList v specs = specs.flatMap (faults v) := by
  induction specs with
  | nil => rfl
  | cons spec rest ih => rw [faultsOfList, ih, List.flatMap_cons]

theorem faultsOfItems_eq (v : View) (items : List (String × TypeSpec)) :
    faultsOfItems v items = (items.map Prod.snd).flatMap (faults v) := by
  induction items with
  | nil => rfl
  | cons item rest ih => rw [faultsOfItems, ih, List.map_cons, List.flatMap_cons]

theorem faults_named_eq_nil_iff {v : View} {range : Range} {scope : Option String} {name : String}
    {args : List TypeSpec} : (named range scope name args).faults v = [] ↔
      (∀ arg ∈ args, arg.faults v = []) ∧ nameFault? v scope name args.length = none := by
  simp [faults, faultsOfList_eq]

theorem faults_of_composite {spec : TypeSpec} (h : spec.isComposite = true) (v : View) :
    spec.faults v = spec.children.flatMap (faults v) := by
  cases spec with
  | named => cases h
  | _ => simp [faults, children, faultsOfList_eq, faultsOfItems_eq]

end TypeSpec

/-! ## Faults are what is complained about -/

/-- The check has gone from `c` to `c'` by writing to the report. The diagnostics written are
`added`, or none if the check is muted. -/
structure Checker.Noted (added : List Diagnostic) (c c' : Checker) : Prop where
  view : c'.view = c.view
  scopes : c'.scopes = c.scopes
  muted : c'.muted = c.muted
  diagnostics : c'.report.diagnostics = c.report.diagnostics ++ if c.muted = 0 then added else []

namespace Check

open Checker

/-- In a view, the computation returns `a` and does no more than to write to the report, with the
complaints `added`. -/
def Writes {α : Type} (v : View) (m : CheckM α) (a : α) (added : List Diagnostic) : Prop :=
  ∀ c, c.view = v → (m.run c).1 = a ∧ Noted added c (m.run c).2

namespace Writes

variable {α β : Type} {v : View} {a : α} {b : β} {added more : List Diagnostic}

theorem pure (a : α) : Writes v (pure a) a [] :=
  fun _ _ => ⟨rfl, rfl, rfl, rfl, by simp only [ite_self, List.append_nil]; rfl⟩

theorem bind {m : CheckM α} {k : α → CheckM β} (hm : Writes v m a added)
    (hk : Writes v (k a) b more) : Writes v (m >>= k) b (added ++ more) := by
  intro c hc
  obtain ⟨hvalue, hnoted⟩ := hm c hc
  obtain ⟨hvalue', hnoted'⟩ := hk (m.run c).2 (hnoted.view.trans hc)
  change ((k (m.run c).1).run (m.run c).2).1 = b ∧
    Noted (added ++ more) c ((k (m.run c).1).run (m.run c).2).2
  rw [hvalue]
  refine ⟨hvalue', hnoted'.view.trans hnoted.view, hnoted'.scopes.trans hnoted.scopes,
    hnoted'.muted.trans hnoted.muted, ?_⟩
  rw [hnoted'.diagnostics, hnoted.diagnostics, hnoted.muted, List.append_assoc]
  split <;> rfl

/-- A computation that is followed by one without complaints. -/
theorem bindSilent {m : CheckM α} {k : α → CheckM β} (hm : Writes v m a added)
    (hk : Writes v (k a) b []) : Writes v (m >>= k) b added := by
  have h := hm.bind hk
  rwa [List.append_nil] at h

/-- A computation that looks at the view first. -/
theorem get {k : Checker → CheckM α} (h : ∀ c, c.view = v → Writes v (k c) a added) :
    Writes v (get >>= k) a added :=
  fun c hc => h c hc c hc

theorem symbols {k : Symbols → CheckM α} (h : Writes v (k v.symbols) a added) :
    Writes v (symbols >>= k) a added := by
  intro c hc
  change (((k c.view.symbols).run c).1 = a) ∧ Noted added c ((k c.view.symbols).run c).2
  rw [hc]
  exact h c hc

theorem note {change : Report → Report}
    (h : ∀ r, (change r).diagnostics = r.diagnostics ++ added) :
    Writes v (note change) () added := by
  intro c _
  rw [run_note]
  refine ⟨rfl, ?_⟩
  dsimp only
  split_ifs with hmuted
  · exact ⟨rfl, rfl, rfl, by rw [if_pos hmuted]; exact h c.report⟩
  · exact ⟨rfl, rfl, rfl, by rw [if_neg hmuted, List.append_nil]⟩

theorem error (problem : Problem) (range : Range) :
    Writes v (error problem range) () [⟨.error, problem, range⟩] :=
  note fun _ => rfl

theorem token (range : Range) (kind : TokenKind) (modifiers : List TokenModifier) :
    Writes v (token range kind modifiers) () [] :=
  note fun _ => (List.append_nil _).symm

theorem link (range : Range) (definition : Option Definition) :
    Writes v (link range definition) () [] := by
  cases definition with
  | none => exact pure ()
  | some d => exact note fun _ => (List.append_nil _).symm

theorem hoverText (range : Range) (text : String) : Writes v (hoverText range text) () [] :=
  note fun _ => (List.append_nil _).symm

theorem markType (range : Range) (scope : Option String) (name : String) :
    Writes v (markType range scope name) () [] := by
  refine symbols ?_
  dsimp only
  generalize (if (scope.isNone && name != "Self") = true then v.symbols.types.get? name else none)
    = own
  cases own with
  | none => exact token _ _ _
  | some found =>
    dsimp only
    split
    · exact (token _ _ _).bind (link _ _)
    · split
      · exact (token _ _ _).bind (link _ _)
      · exact token _ _ _

theorem unknownType (range : Range) (scope : Option String) (name : String) :
    Writes v (unknownType range scope name) ()
      [⟨.error, TypeSpec.unknownName v.symbols scope name, range⟩] := by
  refine symbols ?_
  unfold TypeSpec.unknownName
  cases scope with
  | none => exact error _ _
  | some module =>
    dsimp only
    split <;> exact error _ _

/-- A type name is marked or complained about; which of both is decided by its arity. -/
theorem typeName (range : Range) (scope : Option String) (name : String) (args : List TypeSpec) :
    Writes v (typeName range scope name args) ((TypeSpec.named range scope name args).resolve v)
      ((TypeSpec.nameFault? v scope name args.length).toList.map fun problem =>
        ⟨.error, problem, range⟩) := by
  refine get fun c hc => ?_
  subst hc
  simp only [TypeSpec.nameFault?, View.arity?, TypeSpec.resolve]
  cases c.view.type? scope name with
  | none => exact (unknownType _ _ _).bind (pure _)
  | some base =>
    simp only [Option.map_some]
    refine (markType _ _ _).bind ?_
    cases args with
    | nil =>
      simp only [List.isEmpty_nil, Bool.not_true, Bool.false_and, Bool.false_eq_true, if_false,
        List.length_nil, ne_eq, not_true_eq_false, false_and, if_true]
      exact (hoverText _ _).bind (pure _)
    | cons arg rest =>
      simp only [List.isEmpty_cons, Bool.not_false, Bool.true_and, Bool.false_eq_true, if_false,
        bne_iff_ne, ne_eq, List.length_cons, Nat.add_one_ne_zero, not_false_eq_true, true_and]
      split
      · exact (error _ _).bind (pure _)
      · exact (hoverText _ _).bind (pure _)

theorem resolved (spec : TypeSpec) : Writes v (resolved spec) (spec.resolve v) [] := by
  refine get fun c hc => ?_
  subst hc
  exact pure _

end Writes

end Check

namespace TypeSpec

open Check

variable {v : View}

mutual
/-- Checking an annotation returns the type that it resolves to and complains about its faults. -/
theorem writes_check : (spec : TypeSpec) → Writes v spec.check (spec.resolve v) (spec.faults v)
  | .named _ _ _ args => (writes_checkList args).bind (.typeName _ _ _ _)
  | .array _ element => (writes_check element).bindSilent (.resolved _)
  | .option _ inner => (writes_check inner).bindSilent (.resolved _)
  | .result _ ok err => (writes_check ok).bind ((writes_check err).bindSilent (.resolved _))
  | .tuple _ items => (writes_checkList items).bindSilent (.resolved _)
  | .record _ items => (writes_checkItems items).bindSilent (.resolved _)
  | .function _ _ params ret =>
    (writes_checkList params).bind ((writes_check ret).bindSilent (.resolved _))

theorem writes_checkList : (specs : List TypeSpec) →
    Writes v (checkList specs) (resolveList v specs) (faultsOfList v specs)
  | [] => .pure _
  | spec :: rest => (writes_check spec).bind ((writes_checkList rest).bindSilent (.pure _))

theorem writes_checkItems : (items : List (String × TypeSpec)) →
    Writes v (checkItems items) () (faultsOfItems v items)
  | [] => .pure _
  | (_, spec) :: rest => (writes_check spec).bind (writes_checkItems rest)
end

/-! ## Names in an annotation -/

end TypeSpec

/-- A type name in an annotation, with the number of its arguments. -/
structure TypeName where
  range : Range
  scope : Option String
  name : String
  count : Nat

namespace TypeName

/-- The name stands for no type, or it has arguments and takes another number of them. -/
def isFaulty (v : View) (n : TypeName) : Bool :=
  match v.type? n.scope n.name with
  | none => true
  | some base => n.count != 0 && (base.genericNames v.symbols.registry).length != n.count

/-- The error at a faulty name. -/
def complaint (v : View) (n : TypeName) : Diagnostic :=
  let problem := match v.type? n.scope n.name with
    | none => TypeSpec.unknownName v.symbols n.scope n.name
    | some base =>
      .count (.typeArguments n.name) (base.genericNames v.symbols.registry).length n.count
  ⟨.error, problem, n.range⟩

/-- The fault of a name is complained about where the name stands. -/
theorem complaints_eq (v : View) (n : TypeName) :
    ([n].filter (isFaulty v)).map (complaint v) =
      (TypeSpec.nameFault? v n.scope n.name n.count).toList.map fun problem =>
        ⟨.error, problem, n.range⟩ := by
  unfold TypeSpec.nameFault? View.arity?
  cases htype : v.type? n.scope n.name with
  | none => simp [isFaulty, complaint, htype]
  | some base =>
    by_cases hfaulty : n.count ≠ 0 ∧ (base.genericNames v.symbols.registry).length ≠ n.count
    · simp [isFaulty, complaint, htype, hfaulty]
    · rw [Option.map_some]
      dsimp only
      rw [if_neg hfaulty]
      simpa [isFaulty, htype] using hfaulty

end TypeName

namespace TypeSpec

mutual
/-- All type names in an annotation, at any depth, the arguments of a name in front of it. -/
def typeNames : TypeSpec → List TypeName
  | .named range scope name args => typeNamesOfList args ++ [⟨range, scope, name, args.length⟩]
  | .array _ element => element.typeNames
  | .option _ inner => inner.typeNames
  | .result _ ok err => ok.typeNames ++ err.typeNames
  | .tuple _ items => typeNamesOfList items
  | .record _ items => typeNamesOfItems items
  | .function _ _ params ret => typeNamesOfList params ++ ret.typeNames

/-- All type names in the annotations of a list. -/
def typeNamesOfList : List TypeSpec → List TypeName
  | [] => []
  | spec :: rest => spec.typeNames ++ typeNamesOfList rest

/-- All type names in the annotations of record items. -/
def typeNamesOfItems : List (String × TypeSpec) → List TypeName
  | [] => []
  | (_, spec) :: rest => spec.typeNames ++ typeNamesOfItems rest
end

theorem typeNamesOfList_eq (specs : List TypeSpec) :
    typeNamesOfList specs = specs.flatMap typeNames := by
  induction specs with
  | nil => rfl
  | cons spec rest ih => rw [typeNamesOfList, ih, List.flatMap_cons]

theorem typeNamesOfItems_eq (items : List (String × TypeSpec)) :
    typeNamesOfItems items = (items.map Prod.snd).flatMap typeNames := by
  induction items with
  | nil => rfl
  | cons item rest ih => rw [typeNamesOfItems, ih, List.map_cons, List.flatMap_cons]

theorem typeNames_of_composite {spec : TypeSpec} (h : spec.isComposite = true) :
    spec.typeNames = spec.children.flatMap typeNames := by
  cases spec with
  | named => cases h
  | _ => simp [typeNames, children, typeNamesOfList_eq, typeNamesOfItems_eq]

theorem faults_eq (v : View) (spec : TypeSpec) :
    spec.faults v = (spec.typeNames.filter (TypeName.isFaulty v)).map (TypeName.complaint v) := by
  induction spec using names_induction with
  | named range scope name args ih =>
    rw [faults, typeNames, List.filter_append, List.map_append, TypeName.complaints_eq,
      faultsOfList_eq, typeNamesOfList_eq, List.filter_flatMap, List.map_flatMap,
      List.flatMap_congr ih]
  | composite spec hspec ih =>
    rw [faults_of_composite hspec, typeNames_of_composite hspec, List.filter_flatMap,
      List.map_flatMap, List.flatMap_congr ih]

/-- Every fault is an error. -/
theorem isError_of_mem_faults {v : View} {d : Diagnostic} (spec : TypeSpec)
    (h : d ∈ spec.faults v) : d.isError = true := by
  rw [faults_eq] at h
  obtain ⟨n, -, rfl⟩ := List.mem_map.1 h
  rfl

/-- Checking an annotation returns the type that it resolves to. Unless the check is muted, there is
one error for each faulty type name in the annotation, at any depth, and no other complaint. -/
theorem check_complains_about_faulty_names (spec : TypeSpec) (c : Checker) :
    (spec.check.run c).1 = spec.resolve c.view ∧
      (spec.check.run c).2.report.diagnostics = c.report.diagnostics ++
        if c.muted = 0 then
          (spec.typeNames.filter (TypeName.isFaulty c.view)).map (TypeName.complaint c.view)
        else [] := by
  obtain ⟨hresult, hnoted⟩ := spec.writes_check c rfl
  exact ⟨hresult, spec.faults_eq c.view ▸ hnoted.diagnostics⟩

/-! ## Annotations without faults -/

/-- Whether an annotation has faults depends on how many arguments each of its names takes. -/
structure AritiesAgree (names : List String) (v v' : View) : Prop where
  member : ∀ module name, v.arity? (some module) name = v'.arity? (some module) name
  arity? : ∀ name ∈ names, v.arity? none name = v'.arity? none name

theorem AritiesAgree.mono {names more : List String} {v v' : View} (h : AritiesAgree more v v')
    (hsub : names ⊆ more) : AritiesAgree names v v' :=
  ⟨h.member, fun name hname => h.arity? name (hsub hname)⟩

theorem AritiesAgree.named {range : Range} {scope : Option String} {name : String}
    {args : List TypeSpec} {v v' : View}
    (h : AritiesAgree (named range scope name args).names v v') :
    v.arity? scope name = v'.arity? scope name := by
  cases scope with
  | none => exact h.arity? name (by simp [names])
  | some module => exact h.member module name

theorem faults_eq_nil_congr {v v' : View} (spec : TypeSpec) (h : AritiesAgree spec.names v v') :
    spec.faults v = [] ↔ spec.faults v' = [] := by
  induction spec using names_induction with
  | named range scope name args ih =>
    rw [faults_named_eq_nil_iff, faults_named_eq_nil_iff, nameFault?_eq_none_iff,
      nameFault?_eq_none_iff, h.named]
    exact and_congr_left' (forall₂_congr fun arg harg => ih arg harg (h.mono (names_subset harg)))
  | composite spec hspec ih =>
    rw [faults_of_composite hspec, faults_of_composite hspec, List.flatMap_eq_nil_iff,
      List.flatMap_eq_nil_iff]
    exact forall₂_congr fun c hc => ih c hc (h.mono (names_subset hc))

end TypeSpec

/-- A qualified name stands for a library type. -/
theorem View.type?_or_named {v : View} {scope : Option String} {name : String} {t : Ty}
    (h : v.type? scope name = some t) : v.type? none name = some t ∨ ∃ q, t = .named q := by
  cases scope with
  | none => exact .inl h
  | some module =>
    simp only [View.type?, Symbols.type?, Option.isNone_some, Bool.false_and, Bool.false_eq_true,
      if_false, Option.bind_eq_bind, Option.bind_eq_some_iff, pure, Option.some.injEq] at h
    obtain ⟨_, _, _, _, rfl⟩ := h
    exact .inr ⟨_, rfl⟩

/-- A name stands for `Self`, a type of the script or a library type. -/
theorem View.type?_none {v : View} {name : String} {t : Ty} (h : v.type? none name = some t) :
    (∃ self ∈ v.self, self.ty = t) ∨
      (∃ found, v.symbols.types.get? name = some found ∧ found.ty = t) ∨ ∃ q, t = .named q := by
  simp only [View.type?, View.selfType?, Symbols.type?] at h
  split at h
  · exact .inl (Option.map_eq_some_iff.1 h)
  · split at h
    · rename_i found hfound
      exact .inr (.inl ⟨found, hfound, Option.some.inj h⟩)
    · split at h
      · exact .inr (.inr ⟨_, (Option.some.inj h).symm⟩)
      · cases h

/-- No type name of the view stands for something with an unknown part. -/
def View.Known (v : View) : Prop := ∀ name t, v.type? none name = some t → t.Known

theorem View.Known.type? {v : View} (hv : v.Known) {scope : Option String} {name : String} {t : Ty}
    (h : v.type? scope name = some t) : t.Known := by
  obtain h | ⟨q, rfl⟩ := View.type?_or_named h
  · exact hv name t h
  · exact Ty.known_named q

namespace TypeSpec

/-- An annotation without faults has no unknown part. -/
theorem known_resolve (hv : v.Known) (spec : TypeSpec) (h : spec.faults v = []) :
    (spec.resolve v).Known := by
  induction spec using names_induction with
  | named range scope name args ih =>
    obtain ⟨hargs, hname⟩ := faults_named_eq_nil_iff.1 h
    obtain ⟨_, harity, hcount⟩ := nameFault?_eq_none_iff.1 hname
    obtain ⟨base, hbase, rfl⟩ := Option.map_eq_some_iff.1 harity
    have hknown := hv.type? hbase
    simp only [resolve, hbase]
    split
    · exact hknown
    · rename_i hnonempty
      have hlength := hcount.resolve_left (by simpa using hnonempty)
      rw [if_neg (not_not.2 hlength), Ty.fillPositional, resolveList_eq_map]
      split
      · exact hknown
      · refine hknown.fill (.ofList fun p hp => ?_)
        obtain ⟨arg, harg, hp⟩ := List.mem_map.1 (List.of_mem_zip hp).2
        exact hp ▸ ih arg harg (hargs arg harg)
  | composite spec hspec ih =>
    rw [faults_of_composite hspec, List.flatMap_eq_nil_iff] at h
    refine Ty.known_iff.2 ⟨?_, fun t ht => ?_⟩
    · cases spec with
      | named => cases hspec
      | _ => simp [resolve]
    · rw [children_resolve hspec] at ht
      obtain ⟨c, hc, rfl⟩ := List.mem_map.1 ht
      exact ih c hc (h c hc)

end TypeSpec

end ScriptCheck
