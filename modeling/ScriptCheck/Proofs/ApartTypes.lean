import ScriptCheck.Proofs.CompleteLibraries

/-!
# Types apart from a module

A type stands apart from a module if no part of it is a library type of this module. A registry that
has been extended by the module then says the same about the type as the registry before, provided
that no type reference in the latter names the module. `Registry.Extension` is such a pair of
registries.

Substituting, guessing, erasing and resolving stay among types that stand apart, and do the same
over both registries.
-/

namespace ScriptCheck

open Library

/-! ## Type references -/

namespace TypeRef

mutual
/-- The modules that a reference names. -/
def modules : TypeRef → List String
  | .builtin _ | .generic _ => []
  | .standard module _ args => module :: modulesOfList args
  | .array param | .option param => param.modules
  | .result ok err => ok.modules ++ err.modules
  | .tuple params | .record _ params => modulesOfList params
  | .function _ params ret => modulesOfList params ++ ret.modules

/-- The modules that the references of a list name. -/
def modulesOfList : List TypeRef → List String
  | [] => []
  | ref :: rest => ref.modules ++ modulesOfList rest
end

theorem modulesOfList_eq (refs : List TypeRef) : modulesOfList refs = refs.flatMap modules := by
  induction refs with
  | nil => rfl
  | cons ref rest ih => rw [modulesOfList, ih, List.flatMap_cons]

theorem modules_subset {ref c : TypeRef} (h : c ∈ ref.children) : c.modules ⊆ ref.modules := by
  intro m hm
  cases ref <;> simp only [children, modules, modulesOfList_eq, List.mem_cons, List.mem_append,
    List.mem_flatMap] at h ⊢ <;> grind

end TypeRef

namespace Library

/-- The type references in a parameter list and a result. -/
def signatureRefs (params : List ParameterInfo) (result : TypeRef) : List TypeRef :=
  result :: params.map ParameterInfo.type

/-- The type references in an operator table. -/
def operatorRefs (table : Table String (List OverloadInfo)) : List TypeRef :=
  table.entries.flatMap fun entry => entry.2.flatMap fun o => [o.other, o.result]

/-- The type references in the description of a type. -/
def TypeInfo.refs (info : TypeInfo) : List TypeRef :=
  info.fields.entries.map (fun entry => entry.2.type) ++
    info.methods.entries.flatMap (fun entry => signatureRefs entry.2.params entry.2.result) ++
    operatorRefs info.prefixOperators ++ operatorRefs info.suffixOperators ++
    info.forInSource.toList ++ info.indexAccess.toList ++ info.assignableFrom

/-- The type references in the description of a module. -/
def ModuleInfo.refs (m : ModuleInfo) : List TypeRef :=
  m.constants.map ConstantInfo.type ++
    m.functions.flatMap (fun f => signatureRefs f.params f.result) ++
    m.types.flatMap TypeInfo.refs

end Library

/-- The modules that the type references in a registry name. -/
def Registry.mentions (r : Registry) : List String :=
  r.modules.entries.flatMap fun entry => entry.2.refs.flatMap TypeRef.modules

/-- The descriptions of the prelude name no module. -/
theorem Library.Prelude.eq_empty_of_mem_modules {name : String} {info : TypeInfo}
    (h : Prelude.type? name = some info) {ref : TypeRef} (href : ref ∈ info.refs) {module : String}
    (hmodule : module ∈ ref.modules) : module = "" := by
  have hall : ∀ info ∈ Prelude.types, ∀ ref ∈ info.refs, ∀ module ∈ ref.modules, module = "" := by
    decide
  exact hall info (List.mem_of_find?_eq_some h) ref href module hmodule

/-! ## Extended registries -/

/-- A registry, and the same registry with one module more or another one in its place. No type
reference of the other modules names it. -/
structure Registry.Extension where
  base : Registry
  extended : Registry
  module : String
  nonempty : module ≠ ""
  same : ∀ name, name ≠ module → extended.module? name = base.module? name
  named : ∀ name info, name ≠ module → base.module? name = some info → info.name ≠ module
  apart : ∀ name info, name ≠ module → base.module? name = some info →
    ∀ ref ∈ info.refs, module ∉ ref.modules

variable {E : Registry.Extension}

namespace Ty

/-! ## Types that stand apart -/

/-- Whether a type, apart from the types below it, is none of the module. -/
def headApart (module : String) : Ty → Bool
  | .named q | .applied q _ => q.module != module
  | _ => true

/-- No part of the type is a library type of the module. -/
def Apart (module : String) (t : Ty) : Prop := ∀ u ∈ t.parts, u.headApart module = true

variable {module : String} {t : Ty}

theorem apart_iff :
    t.Apart module ↔ t.headApart module = true ∧ ∀ c ∈ t.children, c.Apart module := by
  rw [Apart, parts_eq, List.forall_mem_cons]
  simp only [Apart, List.mem_flatMap, forall_exists_index, and_imp]
  exact and_congr_right fun _ => ⟨fun h c hc u hu => h u c hc hu, fun h u c hc hu => h c hc u hu⟩

theorem Apart.child (h : t.Apart module) {c : Ty} (hc : c ∈ t.children) : c.Apart module :=
  (apart_iff.1 h).2 c hc

/-- A type that is no library type stands apart if its children do. -/
theorem apart_of_children (hhead : t.headApart module = true)
    (h : ∀ c ∈ t.children, c.Apart module) : t.Apart module :=
  apart_iff.2 ⟨hhead, h⟩

theorem apart_unknown : Ty.unknown.Apart module := apart_iff.2 ⟨rfl, List.forall_mem_nil _⟩

theorem apart_placeholder (name : String) : (Ty.placeholder name).Apart module :=
  apart_iff.2 ⟨rfl, List.forall_mem_nil _⟩

theorem apart_named {q : QName} : (Ty.named q).Apart module ↔ q.module ≠ module := by
  rw [apart_iff]
  simp [headApart, children]

theorem apart_applied {q : QName} {args : List Ty} :
    (Ty.applied q args).Apart module ↔ q.module ≠ module ∧ ∀ t ∈ args, t.Apart module := by
  rw [apart_iff]
  simp [headApart, children]

theorem apart_array {t : Ty} : (Ty.array t).Apart module ↔ t.Apart module := by
  rw [apart_iff]
  simp [headApart, children]

theorem apart_option {t : Ty} : (Ty.option t).Apart module ↔ t.Apart module := by
  rw [apart_iff]
  simp [headApart, children]

theorem apart_result {ok err : Ty} :
    (Ty.result ok err).Apart module ↔ ok.Apart module ∧ err.Apart module := by
  rw [apart_iff]
  simp [headApart, children]

theorem apart_tuple {items : List Ty} :
    (Ty.tuple items).Apart module ↔ ∀ t ∈ items, t.Apart module := by
  rw [apart_iff]
  simp [headApart, children]

theorem apart_record {name : Option QName} {items : List (String × Ty)} :
    (Ty.record name items).Apart module ↔ ∀ item ∈ items, item.2.Apart module := by
  rw [apart_iff]
  simp only [headApart, children, List.forall_mem_map, true_and]

theorem apart_function {s : Signature Ty} : (Ty.function s).Apart module ↔
    (∀ p ∈ s.params, p.ty.Apart module) ∧ s.result.Apart module := by
  rw [apart_iff]
  simp only [headApart, children, List.forall_mem_append, List.forall_mem_map,
    List.forall_mem_singleton, true_and]

/-- Types of the prelude belong to no module. -/
theorem apart_prelude (name : String) : (prelude name).Apart E.module :=
  apart_named.2 E.nonempty.symm

theorem Apart.erase (h : t.Apart module) : t.erase.Apart module := by
  induction t using children_induction with
  | h t ih =>
    obtain ⟨hhead, hchildren⟩ := apart_iff.1 h
    refine apart_iff.2 ⟨?_, fun c hc => ?_⟩
    · cases t <;> exact hhead
    · rw [children_erase] at hc
      obtain ⟨child, hchild, rfl⟩ := List.mem_map.1 hc
      exact ih child hchild (hchildren child hchild)

/-- A type that is no name is filled alike over two registries if its children are. -/
theorem fill_eq_of_children {r r' : Registry} {bound : Bindings} (hnamed : ∀ q, t ≠ .named q)
    (h : ∀ c ∈ t.children, c.fill r' bound = c.fill r bound) :
    t.fill r' bound = t.fill r bound := by
  cases t with
  | named q => exact absurd rfl (hnamed q)
  | unknown | placeholder => rfl
  | applied base args =>
    rw [fill, fill, fillList_eq_map, fillList_eq_map]
    exact congrArg (applied base) (List.map_congr_left h)
  | tuple items =>
    rw [fill, fill, fillList_eq_map, fillList_eq_map]
    exact congrArg tuple (List.map_congr_left h)
  | array element => rw [fill, fill, h element List.mem_cons_self]
  | option inner => rw [fill, fill, h inner List.mem_cons_self]
  | result ok err => rw [fill, fill, h ok (by simp [children]), h err (by simp [children])]
  | record name items =>
    rw [fill, fill, fillItems_eq_map, fillItems_eq_map]
    congr 1
    exact List.map_congr_left fun item hitem => by rw [h item.2 (List.mem_map_of_mem hitem)]
  | function s =>
    obtain ⟨hparams, hresult⟩ := List.forall_mem_append.1 h
    have hparams' : fillParams r' bound s.params = fillParams r bound s.params := by
      rw [fillParams_eq_map, fillParams_eq_map]
      exact List.map_congr_left fun p hp => by rw [hparams p.ty (List.mem_map_of_mem hp)]
    rw [fill, fill, hparams', hresult s.result List.mem_cons_self]

theorem Apart.guess {bound : Bindings} (hbound : bound.All fun _ u => u.Apart module)
    (expected : Ty) (h : t.Apart module) :
    (guess bound expected t).All fun _ u => u.Apart module :=
  all_guess (fun _ h _ hc => h.child hc) hbound expected t h

end Ty

/-- What a generic parameter is bound to, or a type that stands apart in its place. -/
theorem Table.All.apart_getD {module : String} {bound : Bindings}
    (h : bound.All fun _ u => u.Apart module) (name : String) {other : Ty}
    (hother : other.Apart module) : ((bound.get? name).getD other).Apart module := by
  cases hname : bound.get? name with
  | none => exact hother
  | some u => exact h.get? hname

namespace Registry.Extension

/-! ## Library types -/

theorem type? {q : QName} (h : q.module ≠ E.module) : E.extended.type? q = E.base.type? q := by
  rw [Registry.type?, Registry.type?, E.same _ h]

/-- The description of a library type of another module refers to none of this one. -/
theorem refs_of_type? {q : QName} (h : q.module ≠ E.module) {info : TypeInfo}
    (hinfo : E.base.type? q = some info) : ∀ ref ∈ info.refs, E.module ∉ ref.modules := by
  intro ref href hmodule
  unfold Registry.type? at hinfo
  split at hinfo
  · exact E.nonempty (Prelude.eq_empty_of_mem_modules hinfo href hmodule)
  · obtain ⟨m, hm, hfound⟩ := Option.bind_eq_some_iff.1 hinfo
    have hmem : info ∈ m.types := List.mem_reverse.1 (List.mem_of_find?_eq_some hfound)
    exact E.apart _ m h hm ref
      (List.mem_append_right _ (List.mem_flatMap.2 ⟨info, hmem, href⟩)) hmodule

theorem infoOf? {t : Ty} (h : t.Apart E.module) : E.extended.infoOf? t = E.base.infoOf? t := by
  cases t with
  | named q => exact type? (Ty.apart_named.1 h)
  | applied q args => exact type? (Ty.apart_applied.1 h).1
  | _ => rfl

theorem refs_of_infoOf? {t : Ty} (h : t.Apart E.module) {info : TypeInfo}
    (hinfo : E.base.infoOf? t = some info) : ∀ ref ∈ info.refs, E.module ∉ ref.modules := by
  cases t with
  | named q => exact refs_of_type? (Ty.apart_named.1 h) hinfo
  | applied q args => exact refs_of_type? (Ty.apart_applied.1 h).1 hinfo
  | _ => cases hinfo

theorem genericNames {t : Ty} (h : t.Apart E.module) :
    t.genericNames E.extended = t.genericNames E.base := by
  cases t with
  | named q => rw [Ty.genericNames, Ty.genericNames, type? (Ty.apart_named.1 h)]
  | _ => rfl

/-! ## Substitution -/

/-- Substituting types that stand apart gives such a type, the same over both registries. -/
theorem fill {bound : Bindings} (hbound : bound.All fun _ u => u.Apart E.module) {t : Ty}
    (h : t.Apart E.module) :
    t.fill E.extended bound = t.fill E.base bound ∧ (t.fill E.base bound).Apart E.module := by
  induction t using Ty.children_induction with
  | h t ih =>
    have hchildren := fun c hc => ih c hc (h.child hc)
    cases t with
    | unknown => exact ⟨rfl, Ty.apart_unknown⟩
    | placeholder name => exact ⟨rfl, hbound.apart_getD name (Ty.apart_placeholder name)⟩
    | named q =>
      simp only [Ty.fill, genericNames h, true_and]
      split
      · refine Ty.apart_applied.2 ⟨Ty.apart_named.1 h, fun u hu => ?_⟩
        obtain ⟨name, -, rfl⟩ := List.mem_map.1 hu
        exact hbound.apart_getD name (Ty.apart_placeholder name)
      · exact h
    | applied | array | tuple | record | option | result | function =>
      refine ⟨?_, Ty.apart_of_children (Ty.apart_iff.1 h).1 fun c hc => ?_⟩
      · exact Ty.fill_eq_of_children (by simp) fun c hc => (hchildren c hc).1
      · rw [Ty.children_fill] at hc
        case hnamed | hplaceholder => simp
        obtain ⟨child, hchild, rfl⟩ := List.mem_map.1 hc
        exact (hchildren child hchild).2

theorem fillPositional {args : List Ty} (hargs : ∀ u ∈ args, u.Apart E.module) {t : Ty}
    (h : t.Apart E.module) :
    t.fillPositional E.extended args = t.fillPositional E.base args ∧
      (t.fillPositional E.base args).Apart E.module := by
  rw [Ty.fillPositional, Ty.fillPositional, genericNames h]
  split
  · exact ⟨rfl, h⟩
  · exact fill (.ofList fun p hp => hargs p.2 (List.of_mem_zip hp).2) h

end Registry.Extension

/-! ## Resolving references -/

namespace TypeRef

variable {bound : Bindings}

/-- A reference that does not name the module is resolved to a type that stands apart, the same over
both registries. -/
theorem resolve_apart (hbound : bound.All fun _ u => u.Apart E.module) (ref : TypeRef)
    (href : E.module ∉ ref.modules) :
    ref.resolve E.extended bound = ref.resolve E.base bound ∧
      (ref.resolve E.base bound).Apart E.module := by
  induction ref using names_induction with
  | builtin name =>
    refine ⟨rfl, ?_⟩
    rw [resolve]
    split
    · exact Ty.apart_prelude name
    · exact Ty.apart_unknown
  | generic name => exact ⟨rfl, hbound.apart_getD name Ty.apart_unknown⟩
  | standard module name args ih =>
    have hmodule := (not_or.1 (mt List.mem_cons.2 href)).1
    have ih (arg : TypeRef) (harg : arg ∈ args) := ih arg harg fun h => href (modules_subset harg h)
    have htype := Registry.Extension.type? (q := ⟨module, name⟩) (Ne.symm hmodule)
    rw [resolve, resolve, htype, resolveList_eq_map, resolveList_eq_map,
      List.map_congr_left fun arg harg => (ih arg harg).1]
    refine ⟨rfl, ?_⟩
    split
    · exact Ty.apart_unknown
    · split
      · exact Ty.apart_named.2 (Ne.symm hmodule)
      · exact Ty.apart_applied.2
          ⟨Ne.symm hmodule, List.forall_mem_map.2 fun arg harg => (ih arg harg).2⟩
  | composite ref hcomposite ih =>
    have ih (c : TypeRef) (hc : c ∈ ref.children) := ih c hc fun h => href (modules_subset hc h)
    refine ⟨resolve_eq_of_children hcomposite fun c hc => (ih c hc).1, Ty.apart_iff.2
      ⟨?_, forall_children_resolve hcomposite fun c hc => (ih c hc).2⟩⟩
    cases ref with
    | builtin | generic | standard => cases hcomposite
    | _ => rfl

end TypeRef

namespace Registry.Extension

theorem paramTypes {bound : Bindings} (hbound : bound.All fun _ u => u.Apart E.module)
    {params : List ParameterInfo} (h : ∀ p ∈ params, E.module ∉ p.type.modules) :
    E.extended.paramTypes bound params = E.base.paramTypes bound params ∧
      ∀ p ∈ E.base.paramTypes bound params, p.ty.Apart E.module := by
  constructor
  · refine List.map_congr_left fun p hp => ?_
    rw [(TypeRef.resolve_apart hbound p.type (h p hp)).1]
  · intro p hp
    obtain ⟨info, hinfo, rfl⟩ := List.mem_map.1 hp
    exact (TypeRef.resolve_apart hbound info.type (h info hinfo)).2

/-- The type of a library function whose references do not name the module. -/
theorem functionType {f : FunctionInfo}
    (h : ∀ ref ∈ signatureRefs f.params f.result, E.module ∉ ref.modules) :
    E.extended.functionType f = E.base.functionType f ∧
      (E.base.functionType f).Apart E.module := by
  obtain ⟨hresult, hparams⟩ := List.forall_mem_cons.1 h
  have hbound : (selfBindings f.generics).All fun _ u => u.Apart E.module := by
    refine .ofList fun p hp => ?_
    obtain ⟨g, -, rfl⟩ := List.mem_map.1 hp
    exact Ty.apart_placeholder g
  have ihparams := paramTypes hbound fun p hp => hparams p.type (List.mem_map_of_mem hp)
  have ihresult := TypeRef.resolve_apart hbound f.result hresult
  exact ⟨by rw [Registry.functionType, Registry.functionType, ihparams.1, ihresult.1],
    Ty.apart_function.2 ⟨ihparams.2, ihresult.2⟩⟩

end Registry.Extension

end ScriptCheck
