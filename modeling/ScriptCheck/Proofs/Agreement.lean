import ScriptCheck.Proofs.Questions
import ScriptCheck.Proofs.ScriptNodes

/-!
# Symbols that agree

Symbol tables are asked for what a name stands for, never for the order in which names were
entered. Two sets of symbols agree (`Symbols.Agree`) if every name stands for the same in both, and
then every question about names, types, members and operators has the same answer in both. What a
constant stands for matters to the question for this constant only: without it, the symbols are
still similar (`Symbols.Similar`), and all other questions have the same answers.

An annotation asks for the type names that it mentions and for nothing else. `TypeSpec.names` lists
those that stand without a module, and `TypeSpec.resolve_congr` says that the annotation stands for
the same type wherever these names do.
-/

namespace ScriptCheck

/-! ## Assignability

A comparison looks at the library and at the fields of structs. -/

theorem Symbols.accepts?_congr {s s' : Symbols} (hr : s.registry = s'.registry)
    (hf : ∀ name items, s.fieldsOf name items = s'.fieldsOf name items) :
    (bound : ℕ) → (target other : Ty) →
      s.accepts? bound target other = s'.accepts? bound target other
  | 0, _, _ => rfl
  | n + 1, target, other => by
    have ih : s.accepts? n = s'.accepts? n := funext₂ (accepts?_congr hr hf n)
    have hcoerces : s.coerces target other = s'.coerces target other := by
      rw [coerces, coerces, hr]
    have hinquiry : s.inquiry target other = s'.inquiry target other := by
      simp only [inquiry, hcoerces, hf]
    rw [accepts?_succ, accepts?_succ, ih, hinquiry]

/-- The bounds of the two comparisons may differ, their answers do not. -/
theorem Symbols.accepts_congr {s s' : Symbols} (hr : s.registry = s'.registry)
    (hf : ∀ name items, s.fieldsOf name items = s'.fieldsOf name items) (target other : Ty) :
    s.accepts target other = s'.accepts target other := by
  rw [Bool.eq_iff_iff, accepts_eq_true_iff, accepts_eq_true_iff]
  simp only [Answers, accepts?_congr hr hf]

/-! ## Agreement -/

/-- Two structs with the same members. Their methods may be entered in different orders. -/
structure StructInfo.Agree (a b : StructInfo) : Prop where
  fields : a.fields = b.fields
  fieldDefinitions : a.fieldDefinitions = b.fieldDefinitions
  fieldDescriptions : a.fieldDescriptions = b.fieldDescriptions
  methods : a.methods.Agree b.methods
  prefixOperators : a.prefixOperators = b.prefixOperators
  suffixOperators : a.suffixOperators = b.suffixOperators

theorem StructInfo.Agree.refl (a : StructInfo) : a.Agree a := ⟨rfl, rfl, rfl, .refl _, rfl, rfl⟩

theorem StructInfo.Agree.trans {a b c : StructInfo} (h : a.Agree b) (h' : b.Agree c) :
    a.Agree c :=
  ⟨h.fields.trans h'.fields, h.fieldDefinitions.trans h'.fieldDefinitions,
    h.fieldDescriptions.trans h'.fieldDescriptions, h.methods.trans h'.methods,
    h.prefixOperators.trans h'.prefixOperators, h.suffixOperators.trans h'.suffixOperators⟩

/-- Symbols of one script in which every name stands for the same, constants apart. -/
structure Symbols.Similar (s s' : Symbols) : Prop where
  registry : s.registry = s'.registry
  moduleName : s.moduleName = s'.moduleName
  functions : s.functions.Agree s'.functions
  modules : s.modules.Agree s'.modules
  types : s.types.Agree s'.types
  structs : ∀ name, Option.Rel StructInfo.Agree (s.structs.get? name) (s'.structs.get? name)

/-- Symbols of one script in which every name stands for the same. -/
structure Symbols.Agree (s s' : Symbols) : Prop extends s.Similar s' where
  constants : s.constants.Agree s'.constants

namespace Symbols.Agree

variable {s s' s'' : Symbols}

theorem refl (s : Symbols) : s.Agree s where
  registry := rfl
  moduleName := rfl
  constants := .refl _
  functions := .refl _
  modules := .refl _
  types := .refl _
  structs name := by
    cases s.structs.get? name with
    | none => exact .none
    | some info => exact .some (.refl info)

theorem trans (h : s.Agree s') (h' : s'.Agree s'') : s.Agree s'' where
  registry := h.registry.trans h'.registry
  moduleName := h.moduleName.trans h'.moduleName
  constants := h.constants.trans h'.constants
  functions := h.functions.trans h'.functions
  modules := h.modules.trans h'.modules
  types := h.types.trans h'.types
  structs name := by
    have h₁ := h.structs name
    have h₂ := h'.structs name
    revert h₁ h₂
    cases s.structs.get? name <;> cases s'.structs.get? name <;> cases s''.structs.get? name <;>
      intro h₁ h₂ <;> cases h₁ <;> cases h₂
    · exact .none
    · rename_i h₁ h₂
      exact .some (h₁.trans h₂)

end Symbols.Agree

namespace Symbols.Similar

variable {s s' : Symbols}

/-! ## Names at module level -/

variable (h : s.Similar s')

include h

theorem define (range : Range) : s.define range = s'.define range := by
  rw [Symbols.define, Symbols.define, h.moduleName]

theorem module? (name : String) : s.module? name = s'.module? name := by
  rw [Symbols.module?, Symbols.module?, h.modules name, h.registry]

theorem type? (scope : Option String) (name : String) :
    s.type? scope name = s'.type? scope name := by
  cases scope with
  | none => rw [Symbols.type?, Symbols.type?, h.types name]
  | some module => rw [Symbols.type?, Symbols.type?, h.module? module]

/-- A constant of a module is found in the library. -/
theorem memberConstant? (module name : String) :
    s.constant? (some module) name = s'.constant? (some module) name := by
  rw [Symbols.constant?, Symbols.constant?, h.module? module, h.registry]

theorem function? (scope : Option String) (name : String) (hint : Option Ty) :
    s.function? scope name hint = s'.function? scope name hint := by
  cases scope with
  | none => rw [Symbols.function?, Symbols.function?, h.functions name]
  | some module => rw [Symbols.function?, Symbols.function?, h.module? module, h.registry]

theorem struct? (name : QName) :
    Option.Rel StructInfo.Agree (s.struct? name) (s'.struct? name) := by
  rw [Symbols.struct?, Symbols.struct?, h.moduleName]
  split
  · exact h.structs name.name
  · exact .none

theorem structOf? (t : Ty) : Option.Rel StructInfo.Agree (s.structOf? t) (s'.structOf? t) := by
  unfold Symbols.structOf?
  split
  · exact h.struct? _
  · exact .none

theorem fieldsOf (name : QName) (items : List (String × Ty)) :
    s.fieldsOf name items = s'.fieldsOf name items := by
  have hinfo := h.struct? name
  rw [Symbols.fieldsOf, Symbols.fieldsOf]
  generalize s.struct? name = info, s'.struct? name = info' at hinfo ⊢
  cases hinfo with
  | some hinfo => exact hinfo.fields
  | none => rfl

theorem accepts (target other : Ty) : s.accepts target other = s'.accepts target other :=
  accepts_congr h.registry h.fieldsOf target other

/-! ## Members and operators -/

theorem typeBindings (t : Ty) : s.typeBindings t = s'.typeBindings t := by
  unfold Symbols.typeBindings
  rw [h.registry]

theorem libraryField? (t : Ty) (name : String) :
    s.libraryField? t name = s'.libraryField? t name := by
  rw [Symbols.libraryField?, Symbols.libraryField?, h.registry, h.typeBindings]

theorem libraryMethod? (t : Ty) (name : String) :
    s.libraryMethod? t name = s'.libraryMethod? t name := by
  simp only [Symbols.libraryMethod?, methodSignature, h.registry, h.typeBindings]

theorem field? (t : Ty) (name : String) : s.field? t name = s'.field? t name := by
  have hinfo := h.structOf? t
  unfold Symbols.field?
  split
  case h_5 =>
    generalize s.structOf? _ = info, s'.structOf? _ = info' at hinfo ⊢
    cases hinfo with
    | some hinfo =>
      simp only [structField?, hinfo.fields, hinfo.fieldDescriptions, hinfo.fieldDefinitions]
    | none => rfl
  case h_6 | h_7 => exact h.libraryField? _ name
  all_goals rfl

theorem method? (t : Ty) (name : String) : s.method? t name = s'.method? t name := by
  have hinfo := h.structOf? t
  unfold Symbols.method?
  split
  case h_4 =>
    generalize s.structOf? _ = info, s'.structOf? _ = info' at hinfo ⊢
    cases hinfo with
    | some hinfo => simp only [Option.bind_some, structMethod?, hinfo.methods name]
    | none => rfl
  case h_5 | h_6 => exact h.libraryMethod? _ name
  all_goals rfl

theorem pick? (overloads : List Overload) (other : Ty) :
    s.pick? overloads other = s'.pick? overloads other := by
  simp only [Symbols.pick?, h.accepts]

theorem libraryOverloads (t : Ty) (overloads : List Library.OverloadInfo) :
    s.libraryOverloads t overloads = s'.libraryOverloads t overloads := by
  rw [Symbols.libraryOverloads, Symbols.libraryOverloads, h.registry, h.typeBindings]

theorem suffixOverloads (t : Ty) (op : Operator) :
    s.suffixOverloads t op = s'.suffixOverloads t op := by
  have hinfo := h.structOf? t
  unfold Symbols.suffixOverloads overloadsIn
  generalize s.structOf? t = info, s'.structOf? t = info' at hinfo ⊢
  cases hinfo with
  | some hinfo => simp only [hinfo.suffixOperators]
  | none => simp only [h.registry, h.libraryOverloads]

theorem prefixOverloads (t : Ty) (op : Operator) :
    s.prefixOverloads t op = s'.prefixOverloads t op := by
  have hinfo := h.structOf? t
  unfold Symbols.prefixOverloads overloadsIn
  generalize s.structOf? t = info, s'.structOf? t = info' at hinfo ⊢
  cases hinfo with
  | some hinfo => simp only [hinfo.prefixOperators]
  | none => simp only [h.registry, h.libraryOverloads]

theorem suffixOperator? (t : Ty) (op : Operator) (right : Ty) :
    s.suffixOperator? t op right = s'.suffixOperator? t op right := by
  rw [Symbols.suffixOperator?, Symbols.suffixOperator?, h.suffixOverloads, h.pick?]

theorem prefixOperator? (t : Ty) (op : Operator) (left : Ty) :
    s.prefixOperator? t op left = s'.prefixOperator? t op left := by
  rw [Symbols.prefixOperator?, Symbols.prefixOperator?, h.prefixOverloads, h.pick?]

theorem elementIn? (source : Library.TypeInfo → Option TypeRef) (t : Ty) :
    s.elementIn? source t = s'.elementIn? source t := by
  unfold Symbols.elementIn?
  rw [h.registry, h.typeBindings]

theorem iterated? (t : Ty) : s.iterated? t = s'.iterated? t := h.elementIn? _ t

theorem indexed? (t : Ty) : s.indexed? t = s'.indexed? t := h.elementIn? _ t

theorem describe (t : Ty) : s.describe t = s'.describe t := by
  rw [Symbols.describe, Symbols.describe, h.registry]

end Symbols.Similar

/-! ## Views and annotations -/

/-- Views of similar symbols with the same `Self`. -/
structure View.Similar (v v' : View) : Prop where
  symbols : v.symbols.Similar v'.symbols
  self : v.self = v'.self

/-- Views of agreeing symbols with the same `Self`. -/
structure View.Agree (v v' : View) : Prop where
  symbols : v.symbols.Agree v'.symbols
  self : v.self = v'.self

theorem View.Agree.refl (v : View) : v.Agree v := ⟨.refl _, rfl⟩

theorem View.Agree.similar {v v' : View} (h : v.Agree v') : v.Similar v' :=
  ⟨h.symbols.toSimilar, h.self⟩

theorem View.Similar.type? {v v' : View} (h : v.Similar v') (scope : Option String)
    (name : String) :
    v.type? scope name = v'.type? scope name := by
  rw [View.type?, View.type?, View.selfType?, View.selfType?, h.self, h.symbols.type?]

namespace TypeSpec

mutual
/-- The type names without a module in front of them that an annotation mentions. -/
def names : TypeSpec → List String
  | .named _ scope name args => (if scope.isNone then [name] else []) ++ namesOfList args
  | .array _ element => element.names
  | .option _ inner => inner.names
  | .result _ ok err => ok.names ++ err.names
  | .tuple _ items => namesOfList items
  | .record _ items => namesOfItems items
  | .function _ _ params ret => namesOfList params ++ ret.names

/-- The names that the annotations of a list mention. -/
def namesOfList : List TypeSpec → List String
  | [] => []
  | spec :: rest => spec.names ++ namesOfList rest

/-- The names that the annotations of record items mention. -/
def namesOfItems : List (String × TypeSpec) → List String
  | [] => []
  | (_, spec) :: rest => spec.names ++ namesOfItems rest
end

end TypeSpec

/-- Views of scripts over one library in which the given type names stand for the same. -/
structure View.AgreeOn (names : List String) (v v' : View) : Prop where
  registry : v.symbols.registry = v'.symbols.registry
  member : ∀ module name, v.type? (some module) name = v'.type? (some module) name
  type? : ∀ name ∈ names, v.type? none name = v'.type? none name

theorem View.AgreeOn.mono {names more : List String} {v v' : View} (h : View.AgreeOn more v v')
    (hsub : names ⊆ more) : View.AgreeOn names v v' :=
  ⟨h.registry, h.member, fun name hname => h.type? name (hsub hname)⟩

theorem View.Similar.agreeOn {v v' : View} (h : v.Similar v') (names : List String) :
    View.AgreeOn names v v' :=
  ⟨h.symbols.registry, fun module name => h.type? (some module) name,
    fun name _ => h.type? none name⟩

namespace TypeSpec

variable {v v' : View}

theorem resolveList_eq_map (v : View) (specs : List TypeSpec) :
    resolveList v specs = specs.map (resolve v) := by
  induction specs with
  | nil => rfl
  | cons spec rest ih => rw [resolveList, ih, List.map_cons]

theorem resolveItems_eq_map (v : View) (items : List (String × TypeSpec)) :
    resolveItems v items = items.map fun item => (item.1, item.2.resolve v) := by
  induction items with
  | nil => rfl
  | cons item rest ih => rw [resolveItems, ih, List.map_cons]

/-- Whether an annotation is built from others, and is not a name with its arguments. -/
def isComposite : TypeSpec → Bool
  | .named .. => false
  | .array .. | .option .. | .result .. | .tuple .. | .record .. | .function .. => true

/-- Induction on annotations, with names apart from everything else. -/
theorem names_induction {P : TypeSpec → Prop}
    (named : ∀ range scope name args, (∀ arg ∈ args, P arg) → P (.named range scope name args))
    (composite : ∀ spec, spec.isComposite = true → (∀ c ∈ spec.children, P c) → P spec)
    (spec : TypeSpec) : P spec := by
  induction spec using children_induction with
  | h spec ih =>
    cases spec with
    | named range scope name args => exact named range scope name args ih
    | array | option | result | tuple | record | function => exact composite _ rfl ih

section Composite

variable {spec : TypeSpec} (h : spec.isComposite = true)

include h

/-- What is below an annotation stands for what is below its type. -/
theorem children_resolve (v : View) :
    (spec.resolve v).children = spec.children.map (resolve v) := by
  cases spec with
  | named => cases h
  | _ => simp [resolve, children, Ty.children, resolveList_eq_map, resolveItems_eq_map]

theorem resolve_eq_of_children (hchildren : ∀ c ∈ spec.children, c.resolve v = c.resolve v') :
    spec.resolve v = spec.resolve v' := by
  cases spec with
  | named => cases h
  | tuple _ items =>
    rw [resolve, resolve, resolveList_eq_map, resolveList_eq_map]
    exact congrArg _ (List.map_congr_left hchildren)
  | record _ items =>
    rw [resolve, resolve, resolveItems_eq_map, resolveItems_eq_map]
    exact congrArg _ (List.map_congr_left fun item hitem => by
      rw [hchildren item.2 (List.mem_map_of_mem hitem)])
  | function _ _ params ret =>
    obtain ⟨hparams, hret⟩ := List.forall_mem_append.1 hchildren
    rw [resolve, resolve, resolveList_eq_map, resolveList_eq_map, List.map_congr_left hparams,
      hret ret List.mem_cons_self]
  | array | option | result => simp_all [resolve, children]

end Composite

theorem namesOfList_eq (specs : List TypeSpec) : namesOfList specs = specs.flatMap names := by
  induction specs with
  | nil => rfl
  | cons spec rest ih => rw [namesOfList, ih, List.flatMap_cons]

theorem namesOfItems_eq (items : List (String × TypeSpec)) :
    namesOfItems items = (items.map Prod.snd).flatMap names := by
  induction items with
  | nil => rfl
  | cons item rest ih => rw [namesOfItems, ih, List.map_cons, List.flatMap_cons]

theorem names_subset {spec child : TypeSpec} (h : child ∈ spec.children) :
    child.names ⊆ spec.names := by
  intro name hname
  have hmem := List.mem_flatMap.2 ⟨child, h, hname⟩
  cases spec with
  | named => exact List.mem_append_right _ (namesOfList_eq _ ▸ hmem)
  | _ => simpa [names, namesOfList_eq, namesOfItems_eq, children] using hmem

/-- An annotation stands for the same type in views where the names that it mentions do. -/
theorem resolve_congr (spec : TypeSpec) (h : View.AgreeOn spec.names v v') :
    spec.resolve v = spec.resolve v' := by
  induction spec using names_induction with
  | named range scope name args ih =>
    have hname : v.type? scope name = v'.type? scope name := by
      cases scope with
      | none => exact h.type? name (by simp [names])
      | some module => exact h.member module name
    have hargs : resolveList v args = resolveList v' args := by
      rw [resolveList_eq_map, resolveList_eq_map]
      exact List.map_congr_left fun arg harg => ih arg harg (h.mono (names_subset harg))
    simp only [resolve, hname, h.registry, hargs]
  | composite spec hspec ih =>
    exact resolve_eq_of_children hspec fun c hc => ih c hc (h.mono (names_subset hc))

end TypeSpec

theorem View.Similar.resolve {v v' : View} (h : v.Similar v') (spec : TypeSpec) :
    spec.resolve v = spec.resolve v' :=
  spec.resolve_congr (h.agreeOn _)

end ScriptCheck
