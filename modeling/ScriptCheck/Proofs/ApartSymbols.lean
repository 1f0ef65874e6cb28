import Mathlib.Data.List.Find
import ScriptCheck.Proofs.ApartTypes

/-!
# Lookup in symbols apart from a module

Symbols stand apart from a module if all types in their tables do and no name in the script stands
for the module. Put over the extended registry (`Symbols.extend`), they answer every question about
names, types, members and operators as before, as long as it is about types that stand apart and
does not name the module; and what is found stands apart as well. The lemmas of this module say
both.
-/

namespace ScriptCheck

open Library

variable {E : Registry.Extension}

/-- Only the questions of an inquiry matter to its outcome. -/
theorem Inquiry.settle_eq_of_forall {ask ask' : Ty → Ty → Option Bool} {verdict : Bool} :
    {qs : List Question} → (∀ q ∈ qs, ask q.1 q.2 = ask' q.1 q.2) →
    settle ask verdict qs = settle ask' verdict qs
  | [], _ => rfl
  | q :: rest, h => by
    obtain ⟨hq, hrest⟩ := List.forall_mem_cons.1 h
    rw [settle, settle, hq, settle_eq_of_forall hrest]

/-! ## References in descriptions -/

namespace Library.TypeInfo

variable {info : TypeInfo} {ref : TypeRef}

theorem mem_refs_of_field {name : String} {field : FieldInfo}
    (h : info.fields.get? name = some field) : field.type ∈ info.refs := by
  simp only [refs, List.mem_append, List.mem_map]
  exact .inl (.inl (.inl (.inl (.inl (.inl ⟨_, Table.mem_entries_of_get? h, rfl⟩)))))

theorem mem_refs_of_method {name : String} {m : MethodInfo} (h : info.methods.get? name = some m)
    (href : ref ∈ signatureRefs m.params m.result) : ref ∈ info.refs := by
  simp only [refs, List.mem_append, List.mem_flatMap]
  exact .inl (.inl (.inl (.inl (.inl (.inr ⟨_, Table.mem_entries_of_get? h, href⟩)))))

theorem mem_operatorRefs {table : Table String (List OverloadInfo)} {name : String}
    {overloads : List OverloadInfo} (h : table.get? name = some overloads) {o : OverloadInfo}
    (ho : o ∈ overloads) : o.other ∈ operatorRefs table ∧ o.result ∈ operatorRefs table := by
  have hmem (ref : TypeRef) (href : ref ∈ [o.other, o.result]) : ref ∈ operatorRefs table :=
    List.mem_flatMap.2 ⟨_, Table.mem_entries_of_get? h, List.mem_flatMap.2 ⟨o, ho, href⟩⟩
  exact ⟨hmem _ (by simp), hmem _ (by simp)⟩

theorem mem_refs_of_prefix (h : ref ∈ operatorRefs info.prefixOperators) : ref ∈ info.refs := by
  simp [refs, h]

theorem mem_refs_of_suffix (h : ref ∈ operatorRefs info.suffixOperators) : ref ∈ info.refs := by
  simp [refs, h]

theorem mem_refs_of_forIn (h : info.forInSource = some ref) : ref ∈ info.refs := by
  simp [refs, h]

theorem mem_refs_of_index (h : info.indexAccess = some ref) : ref ∈ info.refs := by
  simp [refs, h]

theorem mem_refs_of_assignable (h : ref ∈ info.assignableFrom) : ref ∈ info.refs := by
  simp [refs, h]

end Library.TypeInfo

/-! ## Symbols that stand apart -/

/-- All types of the struct stand apart from the module. -/
structure StructInfo.Apart (module : String) (info : StructInfo) : Prop where
  fields : ∀ item ∈ info.fields, item.2.Apart module
  methods : info.methods.All fun _ value => value.ty.Apart module
  prefixOperators : info.prefixOperators.All fun _ overloads =>
    ∀ o ∈ overloads, o.other.Apart module ∧ o.result.Apart module
  suffixOperators : info.suffixOperators.All fun _ overloads =>
    ∀ o ∈ overloads, o.other.Apart module ∧ o.result.Apart module

theorem StructInfo.Apart.empty {module : String} : StructInfo.Apart module {} :=
  ⟨List.forall_mem_nil _, .empty, .empty, .empty⟩

/-- Symbols over the registry before the extension that stand apart from the module. -/
structure Symbols.Apart (E : Registry.Extension) (s : Symbols) : Prop where
  registry : s.registry = E.base
  constants : s.constants.All fun _ value => value.ty.Apart E.module
  functions : s.functions.All fun _ value => value.ty.Apart E.module
  modules : s.modules.All fun _ module => module ≠ E.module
  types : s.types.All fun _ found => found.ty.Apart E.module
  structs : s.structs.All fun _ info => info.Apart E.module

/-- The same symbols over the extended registry. -/
def Symbols.extend (E : Registry.Extension) (s : Symbols) : Symbols :=
  { s with registry := E.extended }

theorem Symbols.structOf?_extend (E : Registry.Extension) (s : Symbols) (t : Ty) :
    (s.extend E).structOf? t = s.structOf? t := rfl

namespace Symbols.Apart

variable {s : Symbols} {t : Ty} {name : String} {scope : Option String}

variable (h : s.Apart E)

include h

theorem info (name : String) : ((s.structs.get? name).getD {}).Apart E.module :=
  h.structs.getD .empty name

theorem structOf? {info : StructInfo} (hinfo : s.structOf? t = some info) : info.Apart E.module :=
  all_structOf? h.structs hinfo

/-! ## Assignability -/

variable {info : TypeInfo}

variable (ht : t.Apart E.module)

include ht

theorem infoOf? : (s.extend E).registry.infoOf? t = s.registry.infoOf? t := by
  rw [h.registry]
  exact Registry.Extension.infoOf? ht

/-- A reference in the description of a type that stands apart. -/
theorem resolve (hinfo : s.registry.infoOf? t = some info) {ref : TypeRef} (href : ref ∈ info.refs)
    {bound : Bindings} (hbound : bound.All fun _ u => u.Apart E.module) :
    ref.resolve (s.extend E).registry bound = ref.resolve s.registry bound ∧
      (ref.resolve s.registry bound).Apart E.module := by
  rw [h.registry] at hinfo ⊢
  exact ref.resolve_apart hbound (Registry.Extension.refs_of_infoOf? ht hinfo ref href)

theorem coerces (other : Ty) : (s.extend E).coerces t other = s.coerces t other := by
  unfold Symbols.coerces
  rw [h.infoOf? ht]
  split
  · rfl
  · rename_i info hinfo
    congr 1
    rw [Bool.eq_iff_iff, List.any_eq_true, List.any_eq_true]
    refine exists_congr fun ref => and_congr_right fun href => ?_
    rw [(h.resolve ht hinfo (TypeInfo.mem_refs_of_assignable href) .empty).1]

omit ht in
theorem fieldTypes {u : Ty} (hu : u ∈ s.fieldTypes) : u.Apart E.module := by
  obtain ⟨entry, hentry, hu⟩ := List.mem_flatMap.1 hu
  obtain ⟨item, hitem, rfl⟩ := List.mem_map.1 hu
  exact (h.structs entry hentry).fields item hitem

omit ht in
/-- All questions that a comparison comes to are about types that stand apart. -/
theorem accepts? : (bound : ℕ) → {target other : Ty} → target.Apart E.module →
    other.Apart E.module →
    (s.extend E).accepts? bound target other = s.accepts? bound target other
  | 0, _, _, _, _ => rfl
  | n + 1, target, other, htarget, hother => by
    have hinquiry : (s.extend E).inquiry target other = s.inquiry target other := by
      simp only [inquiry, h.coerces htarget]
      rfl
    rw [accepts?_succ, accepts?_succ, hinquiry]
    refine Inquiry.settle_eq_of_forall fun q hq => ?_
    obtain ⟨hfirst, hsecond⟩ | ⟨hfirst, hsecond⟩ := mem_inquiry hq
    · exact accepts? n (hfirst.elim htarget.child h.fieldTypes) (hother.child hsecond)
    · exact accepts? n (hother.child hfirst) (htarget.child hsecond)

omit ht in
theorem accepts {target other : Ty} (htarget : target.Apart E.module)
    (hother : other.Apart E.module) :
    (s.extend E).accepts target other = s.accepts target other := by
  have hsame : (s.extend E).verdict? target other = s.verdict? target other :=
    h.accepts? (s.questionBound target other) htarget hother
  rw [Symbols.accepts, Symbols.accepts, hsame]

/-! ## Names at module level -/

omit ht in
/-- A module that the script names otherwise than the module. -/
theorem module? (hname : name ≠ E.module) :
    (s.extend E).module? name = s.module? name ∧ ∀ m ∈ s.module? name,
      m.name ≠ E.module ∧ ∀ ref ∈ m.refs, E.module ∉ ref.modules := by
  have hregistry (name : String) (hname : name ≠ E.module) :
      E.extended.module? name = s.registry.module? name ∧ ∀ m ∈ s.registry.module? name,
        m.name ≠ E.module ∧ ∀ ref ∈ m.refs, E.module ∉ ref.modules := by
    rw [h.registry]
    exact ⟨E.same name hname, fun m hm => ⟨E.named name m hname hm, E.apart name m hname hm⟩⟩
  unfold Symbols.module?
  dsimp only [Symbols.extend]
  cases hmodule : s.modules.get? name with
  | some module => exact hregistry module (h.modules.get? hmodule)
  | none => exact hregistry name hname

omit ht in
theorem type? (hscope : scope ≠ some E.module) (name : String) :
    (s.extend E).type? scope name = s.type? scope name ∧
      ∀ t ∈ s.type? scope name, t.Apart E.module := by
  cases scope with
  | none =>
    refine ⟨rfl, fun t ht => ?_⟩
    simp only [Symbols.type?, Option.mem_def] at ht
    split at ht
    · rename_i found hfound
      obtain rfl := Option.some.inj ht
      exact h.types.get? hfound
    · split at ht
      · obtain rfl := Option.some.inj ht
        exact Ty.apart_prelude name
      · cases ht
  | some module =>
    obtain ⟨hsame, hapart⟩ := h.module? (mt (congrArg some) hscope)
    refine ⟨by simp only [Symbols.type?, hsame], fun t ht => ?_⟩
    simp only [Symbols.type?, Option.bind_eq_bind, Option.mem_def, Option.bind_eq_some_iff, pure,
      Option.some.injEq] at ht
    obtain ⟨m, hm, _, _, rfl⟩ := ht
    exact Ty.apart_named.2 (hapart m hm).1

omit ht in
theorem constant? (hscope : scope ≠ some E.module) (name : String) :
    (s.extend E).constant? scope name = s.constant? scope name ∧
      ∀ value ∈ s.constant? scope name, value.ty.Apart E.module := by
  cases scope with
  | none => exact ⟨rfl, fun value hvalue => h.constants.get? hvalue⟩
  | some module =>
    obtain ⟨hsame, hapart⟩ := h.module? (mt (congrArg some) hscope)
    have hresolve {m : ModuleInfo} (hm : s.module? module = some m) {c : ConstantInfo}
        (hc : m.constant? name = some c) :=
      c.type.resolve_apart (E := E) .empty ((hapart m hm).2 c.type (List.mem_append_left _
        (List.mem_append_left _ (List.mem_map_of_mem
          (List.mem_reverse.1 (List.mem_of_find?_eq_some hc))))))
    simp only [Symbols.constant?, hsame, h.registry, Option.bind_eq_bind, Option.mem_def,
      Option.bind_eq_some_iff, pure, Option.some.injEq]
    constructor
    · refine Option.bind_congr fun m hm => Option.bind_congr fun c hc => ?_
      exact congrArg (fun ty => some (Value.mk ty none c.description)) (hresolve hm hc).1
    · rintro value ⟨m, hm, c, hc, rfl⟩
      exact (hresolve hm hc).2

omit h in
omit ht in
/-- The type that a constructor function takes from a hint that stands apart. -/
theorem constructor? {expected : Option Ty} (hexpected : ∀ t ∈ expected, t.Apart E.module) {ty : Ty}
    (h : constructor? name expected = some ty) : ty.Apart E.module := by
  have hempty : "" ≠ E.module := E.nonempty.symm
  unfold ScriptCheck.constructor? at h
  dsimp only at h
  split_ifs at h
  all_goals try split at h
  all_goals
    cases h
    simp_all [Ty.apart_function, Ty.apart_option, Ty.apart_result, Ty.apart_applied,
      Ty.apart_placeholder, Ty.apart_prelude, Ty.int]
  -- What is left is the argument of the `Cell` that the hint expects.
  cases ‹List Ty› with
  | nil => exact Ty.apart_unknown
  | cons arg rest => simp_all

omit ht in
theorem function? (hscope : scope ≠ some E.module) (name : String) {hint : Option Ty}
    (hhint : ∀ t ∈ hint, t.Apart E.module) :
    (s.extend E).function? scope name hint = s.function? scope name hint ∧
      ∀ value ∈ s.function? scope name hint, value.ty.Apart E.module := by
  cases scope with
  | none =>
    refine ⟨rfl, fun value hvalue => ?_⟩
    have hresult : ∀ t ∈ (hint.bind Ty.signature?).map Signature.result, t.Apart E.module := by
      intro t ht
      obtain ⟨signature, hsignature, rfl⟩ := Option.map_eq_some_iff.1 ht
      obtain ⟨u, hu, hfunction⟩ := Option.bind_eq_some_iff.1 hsignature
      cases u with
      | function f =>
        obtain rfl := Option.some.inj hfunction
        exact (Ty.apart_function.1 (hhint _ hu)).2
      | _ => cases hfunction
    simp only [Symbols.function?, Option.mem_def] at hvalue
    split at hvalue
    · rename_i ty hty
      obtain rfl := Option.some.inj hvalue
      exact constructor? hresult hty
    · exact h.functions.get? hvalue
  | some module =>
    obtain ⟨hsame, hapart⟩ := h.module? (mt (congrArg some) hscope)
    have htype {m : ModuleInfo} (hm : s.module? module = some m) {f : FunctionInfo}
        (hf : m.function? name = some f) :=
      Registry.Extension.functionType (E := E) (f := f) fun ref href =>
        (hapart m hm).2 ref (List.mem_append_left _ (List.mem_append_right _ (List.mem_flatMap.2
          ⟨f, List.mem_reverse.1 (List.mem_of_find?_eq_some hf), href⟩)))
    simp only [Symbols.function?, hsame, h.registry, Option.bind_eq_bind, Option.mem_def,
      Option.bind_eq_some_iff, pure, Option.some.injEq]
    constructor
    · refine Option.bind_congr fun m hm => Option.bind_congr fun f hf => ?_
      exact congrArg (fun ty => some (Value.mk ty none f.description)) (htype hm hf).1
    · rintro value ⟨m, hm, f, hf, rfl⟩
      exact (htype hm hf).2

/-! ## Members and operators -/

theorem typeBindings :
    (s.extend E).typeBindings t = s.typeBindings t ∧
      (s.typeBindings t).All fun _ u => u.Apart E.module := by
  cases t with
  | applied base args =>
    obtain ⟨hbase, hargs⟩ := Ty.apart_applied.1 ht
    have htype : (s.extend E).registry.type? base = s.registry.type? base := by
      rw [h.registry]
      exact Registry.Extension.type? hbase
    rw [Symbols.typeBindings, Symbols.typeBindings, htype]
    refine ⟨rfl, ?_⟩
    split
    · exact .ofList fun p hp => hargs p.2 (List.of_mem_zip hp).2
    · exact .empty
  | _ => exact ⟨rfl, .empty⟩

/-- A reference in the description of a library type, under the arguments of the type. -/
theorem resolveMember (hinfo : s.registry.infoOf? t = some info) {ref : TypeRef}
    (href : ref ∈ info.refs) :
    ref.resolve (s.extend E).registry ((s.extend E).typeBindings t) =
        ref.resolve s.registry (s.typeBindings t) ∧
      (ref.resolve s.registry (s.typeBindings t)).Apart E.module := by
  obtain ⟨hsame, hbound⟩ := h.typeBindings ht
  rw [hsame]
  exact h.resolve ht hinfo href hbound

theorem libraryField? (name : String) :
    (s.extend E).libraryField? t name = s.libraryField? t name := by
  simp only [Symbols.libraryField?, h.infoOf? ht, Option.bind_eq_bind]
  refine Option.bind_congr fun info hinfo => Option.bind_congr fun field hfield => ?_
  rw [(h.resolveMember ht hinfo (TypeInfo.mem_refs_of_field hfield)).1]

theorem methodSignature (hinfo : s.registry.infoOf? t = some info) {m : MethodInfo}
    (hm : info.methods.get? name = some m) :
    (s.extend E).methodSignature t m = s.methodSignature t m ∧
      (Ty.function (s.methodSignature t m)).Apart E.module := by
  obtain ⟨hsame, hbound⟩ := h.typeBindings ht
  have hgenerics : ∀ (generics : List String) (b : Bindings),
      (b.All fun _ u => u.Apart E.module) →
      (generics.foldl (fun b g => b.insert g (.placeholder g)) b).All
        fun _ u => u.Apart E.module := by
    intro generics
    induction generics with
    | nil => exact fun _ hb => hb
    | cons g rest ih => exact fun b hb => ih _ (hb.insert (Ty.apart_placeholder g))
  have hrefs : ∀ ref ∈ signatureRefs m.params m.result, E.module ∉ ref.modules := fun ref href =>
    Registry.Extension.refs_of_infoOf? ht (h.registry ▸ hinfo) ref
      (TypeInfo.mem_refs_of_method hm href)
  obtain ⟨hresult, hparams⟩ := List.forall_mem_cons.1 hrefs
  have hbound' := hgenerics m.generics _ hbound
  have ihparams := Registry.Extension.paramTypes hbound' fun p hp =>
    hparams p.type (List.mem_map_of_mem hp)
  have ihresult := TypeRef.resolve_apart hbound' m.result hresult
  unfold Symbols.methodSignature
  rw [hsame, h.registry]
  refine ⟨?_, Ty.apart_function.2 ⟨ihparams.2, ihresult.2⟩⟩
  dsimp only [Symbols.extend]
  rw [ihparams.1, ihresult.1]

theorem libraryMethod? (name : String) :
    (s.extend E).libraryMethod? t name = s.libraryMethod? t name ∧
      ∀ found ∈ s.libraryMethod? t name, (Ty.function found.signature).Apart E.module := by
  simp only [Symbols.libraryMethod?, h.infoOf? ht, Option.bind_eq_bind, Option.mem_def,
    Option.bind_eq_some_iff, pure, Option.some.injEq]
  constructor
  · refine Option.bind_congr fun info hinfo => Option.bind_congr fun m hm => ?_
    rw [(h.methodSignature ht hinfo hm).1]
  · rintro found ⟨info, hinfo, m, hm, rfl⟩
    exact (h.methodSignature ht hinfo hm).2

theorem field? (name : String) :
    (s.extend E).field? t name = s.field? t name ∧
      ∀ found ∈ s.field? t name, found.ty.Apart E.module := by
  constructor
  · cases t with
    | named | applied => exact h.libraryField? ht name
    | _ => rfl
  · intro found hfound
    cases fieldSource hfound with
    | fixed hty => obtain hty | hty := hty <;> rw [hty] <;> exact Ty.apart_prelude _
    | part _ hty => exact ht.child hty
    | struct hinfo hty => exact (h.structOf? hinfo).fields _ hty
    | library hinfo hfield hty =>
      exact hty ▸ (h.resolveMember ht hinfo (TypeInfo.mem_refs_of_field hfield)).2

omit h in
omit ht in
/-- The fixed methods of arrays, options and results. -/
theorem fixedMethod {found : MethodType} {element other : Ty} (helement : element.Apart E.module)
    (hother : other.Apart E.module)
    (h : Ty.arrayMethod? element name = some found ∨ Ty.optionMethod? element name = some found ∨
      Ty.resultMethod? element other name = some found) :
    (Ty.function found.signature).Apart E.module := by
  have hprelude (name : String) : (Ty.prelude name).Apart E.module := Ty.apart_prelude name
  obtain h | h | h := h
  all_goals
    simp only [Ty.arrayMethod?, Ty.optionMethod?, Ty.resultMethod?] at h
    split_ifs at h
    all_goals
      obtain rfl := Option.some.inj h
      simp [Ty.apart_function, Ty.apart_array, Ty.apart_option, Ty.apart_result,
        Ty.apart_placeholder, Ty.mapperTo, Ty.predicateOn, Ty.fn, Ty.positional, Ty.int, Ty.bool,
        Ty.string, helement, hother, hprelude]

theorem method? (name : String) :
    (s.extend E).method? t name = s.method? t name ∧
      ∀ found ∈ s.method? t name, (Ty.function found.signature).Apart E.module := by
  cases t with
  | unknown | tuple | function | placeholder => exact ⟨rfl, nofun⟩
  | named | applied => exact h.libraryMethod? ht name
  | array element =>
    exact ⟨rfl, fun _ hfound =>
      fixedMethod (Ty.apart_array.1 ht) Ty.apart_unknown (.inl hfound)⟩
  | option inner =>
    exact ⟨rfl, fun _ hfound =>
      fixedMethod (Ty.apart_option.1 ht) Ty.apart_unknown (.inr (.inl hfound))⟩
  | result ok err =>
    obtain ⟨hok, herr⟩ := Ty.apart_result.1 ht
    exact ⟨rfl, fun _ hfound => fixedMethod hok herr (.inr (.inr hfound))⟩
  | record structName items =>
    refine ⟨rfl, fun found hfound => ?_⟩
    obtain ⟨info, value, hinfo, hvalue, hty, -⟩ := exists_of_recordMethod hfound
    exact hty ▸ (h.structOf? hinfo).methods.get? hvalue

omit ht in
theorem pick? {overloads : List Overload} {other : Ty}
    (hoverloads : ∀ o ∈ overloads, o.other.Apart E.module ∧ o.result.Apart E.module)
    (hother : other.Apart E.module) :
    (s.extend E).pick? overloads other = s.pick? overloads other ∧
      ∀ found ∈ s.pick? overloads other, found.result.Apart E.module := by
  rw [pick?_eq_find?, pick?_eq_find?]
  constructor
  · exact List.find?_congr fun o ho => by rw [h.accepts (hoverloads o ho).1 hother]
  · exact fun found hfound => (hoverloads found (List.mem_of_find?_eq_some hfound)).2

/-- The overloads in an operator table of a library type that stands apart. -/
theorem libraryOverloads (hinfo : s.registry.infoOf? t = some info) {overloads : List OverloadInfo}
    (hrefs : ∀ o ∈ overloads, o.other ∈ info.refs ∧ o.result ∈ info.refs) :
    (s.extend E).libraryOverloads t overloads = s.libraryOverloads t overloads ∧
      ∀ o ∈ s.libraryOverloads t overloads, o.other.Apart E.module ∧ o.result.Apart E.module := by
  constructor
  · refine List.map_congr_left fun o ho => ?_
    rw [(h.resolveMember ht hinfo (hrefs o ho).1).1, (h.resolveMember ht hinfo (hrefs o ho).2).1]
  · intro o ho
    obtain ⟨info', hmem, rfl⟩ := List.mem_map.1 ho
    exact ⟨(h.resolveMember ht hinfo (hrefs info' hmem).1).2,
      (h.resolveMember ht hinfo (hrefs info' hmem).2).2⟩

/-- The overloads of an operator, in either of the tables. -/
theorem overloadsIn {own : StructInfo → Table Operator (List Overload)}
    (hown : ∀ info : StructInfo, info.Apart E.module → (own info).All fun _ overloads =>
      ∀ o ∈ overloads, o.other.Apart E.module ∧ o.result.Apart E.module)
    {library : TypeInfo → Table String (List OverloadInfo)}
    (hlibrary : ∀ info : TypeInfo, ∀ ref ∈ operatorRefs (library info), ref ∈ info.refs)
    (op : Operator) :
    (s.extend E).overloadsIn own library t op = s.overloadsIn own library t op ∧
      ∀ o ∈ s.overloadsIn own library t op, o.other.Apart E.module ∧ o.result.Apart E.module := by
  unfold Symbols.overloadsIn
  rw [structOf?_extend, h.infoOf? ht]
  split
  · rename_i info hinfo
    exact ⟨rfl, (hown _ (h.structOf? hinfo)).getD (List.forall_mem_nil _) op⟩
  · split
    · rename_i info hinfo
      refine h.libraryOverloads ht hinfo fun o ho => ?_
      cases hos : (library info).get? op.symbol with
      | none => simp [hos] at ho
      | some os =>
        have hmem := TypeInfo.mem_operatorRefs hos (by simpa [hos] using ho)
        exact ⟨hlibrary info _ hmem.1, hlibrary info _ hmem.2⟩
    · exact ⟨rfl, List.forall_mem_nil _⟩

theorem suffixOperator? (op : Operator) {right : Ty} (hright : right.Apart E.module) :
    (s.extend E).suffixOperator? t op right = s.suffixOperator? t op right ∧
      ∀ found ∈ s.suffixOperator? t op right, found.result.Apart E.module := by
  obtain ⟨hsame, hoverloads⟩ := h.overloadsIn ht (fun _ hinfo => hinfo.suffixOperators)
    (fun _ _ => TypeInfo.mem_refs_of_suffix) op
  rw [Symbols.suffixOperator?, suffixOverloads, hsame]
  exact h.pick? hoverloads hright

theorem prefixOperator? (op : Operator) {left : Ty} (hleft : left.Apart E.module) :
    (s.extend E).prefixOperator? t op left = s.prefixOperator? t op left ∧
      ∀ found ∈ s.prefixOperator? t op left, found.result.Apart E.module := by
  obtain ⟨hsame, hoverloads⟩ := h.overloadsIn ht (fun _ hinfo => hinfo.prefixOperators)
    (fun _ _ => TypeInfo.mem_refs_of_prefix) op
  rw [Symbols.prefixOperator?, prefixOverloads, hsame]
  exact h.pick? hoverloads hleft

/-- The type of the elements, for loops or for index access. -/
theorem elementIn? {source : TypeInfo → Option TypeRef}
    (hsource : ∀ (info : TypeInfo) (ref : TypeRef), source info = some ref → ref ∈ info.refs) :
    (s.extend E).elementIn? source t = s.elementIn? source t ∧
      ∀ found ∈ s.elementIn? source t, found.Apart E.module := by
  constructor
  · unfold Symbols.elementIn?
    rw [h.infoOf? ht]
    cases t with
    | array => rfl
    | _ => exact Option.bind_congr fun info hinfo => Option.bind_congr fun ref href =>
        congrArg some (h.resolveMember ht hinfo (hsource info ref href)).1
  · intro found hfound
    obtain rfl | ⟨info, ref, hinfo, href, rfl⟩ := elementSource hfound
    · exact Ty.apart_array.1 ht
    · exact (h.resolveMember ht hinfo (hsource info ref href)).2

theorem describe : (s.extend E).describe t = s.describe t := by
  rw [Symbols.describe, Symbols.describe, h.infoOf? ht]

end Symbols.Apart

/-! ## Views and annotations -/

/-- A view of symbols that stand apart, with such a `Self`. -/
structure View.Apart (E : Registry.Extension) (v : View) : Prop where
  symbols : v.symbols.Apart E
  self : ∀ self ∈ v.self, self.ty.Apart E.module

/-- The same view over the extended registry. -/
def View.extend (E : Registry.Extension) (v : View) : View :=
  { v with symbols := v.symbols.extend E }

theorem View.Apart.type? {v : View} (h : v.Apart E) {scope : Option String}
    (hscope : scope ≠ some E.module) (name : String) :
    (v.extend E).type? scope name = v.type? scope name ∧
      ∀ t ∈ v.type? scope name, t.Apart E.module := by
  unfold View.type?
  split
  · refine ⟨rfl, fun t ht => ?_⟩
    obtain ⟨self, hself, rfl⟩ := Option.map_eq_some_iff.1 ht
    exact h.self self hself
  · exact h.symbols.type? hscope name

namespace TypeSpec

variable {v : View}

theorem scope_ne {scope : Option String} {others : List String}
    (h : E.module ∉ scope.toList ++ others) : scope ≠ some E.module := by
  rintro rfl
  exact h (List.mem_append_left _ List.mem_cons_self)

/-- An annotation that does not name the module stands for a type that stands apart, the same over
both registries. -/
theorem resolve_apart (hv : v.Apart E) (spec : TypeSpec) (hspec : E.module ∉ spec.modules) :
    spec.resolve (v.extend E) = spec.resolve v ∧ (spec.resolve v).Apart E.module := by
  induction spec using names_induction with
  | named range scope name args ih =>
    obtain ⟨hsame, hapart⟩ := hv.type? (scope_ne hspec) name
    have ih (arg : TypeSpec) (harg : arg ∈ args) :=
      ih arg harg fun h => hspec (modules_subset harg h)
    have hargs : resolveList (v.extend E) args = resolveList v args := by
      rw [resolveList_eq_map, resolveList_eq_map]
      exact List.map_congr_left fun arg harg => (ih arg harg).1
    have hargsApart : ∀ t ∈ resolveList v args, t.Apart E.module := by
      rw [resolveList_eq_map]
      exact List.forall_mem_map.2 fun arg harg => (ih arg harg).2
    rw [resolve, resolve, hsame, hargs]
    cases hbase : v.type? scope name with
    | none => exact ⟨rfl, Ty.apart_unknown⟩
    | some base =>
      have hbase := hapart base hbase
      have hregistry := hv.symbols.registry
      have hnames : base.genericNames (v.extend E).symbols.registry =
          base.genericNames v.symbols.registry := by
        rw [hregistry]
        exact Registry.Extension.genericNames hbase
      dsimp only
      rw [hnames]
      split
      · exact ⟨rfl, hbase⟩
      · split
        · exact ⟨rfl, Ty.apart_unknown⟩
        · rw [hregistry]
          exact Registry.Extension.fillPositional hargsApart hbase
  | composite spec hcomposite ih =>
    have ih (c : TypeSpec) (hc : c ∈ spec.children) := ih c hc fun h => hspec (modules_subset hc h)
    refine ⟨resolve_eq_of_children hcomposite fun c hc => (ih c hc).1, Ty.apart_iff.2 ⟨?_, ?_⟩⟩
    · cases spec with
      | named => cases hcomposite
      | _ => rfl
    · rw [children_resolve hcomposite]
      exact List.forall_mem_map.2 fun c hc => (ih c hc).2

end TypeSpec

/-! ## Scopes -/

/-- All local variables, and the results of all functions around, stand apart from the module. -/
structure Scopes.Apart (module : String) (s : Scopes) : Prop where
  locals : s.All fun _ value => value.ty.Apart module
  results : ∀ scope ∈ s.scopes, ∀ result, scope.kind = .function result → result.Apart module

namespace Scopes.Apart

variable {module : String} {s : Scopes}

theorem empty : Scopes.Apart module {} := ⟨.empty, List.forall_mem_nil _⟩

theorem push (h : s.Apart module) (parent : Option Nat) {kind : ScopeKind}
    (hkind : ∀ result, kind = .function result → result.Apart module) :
    (s.push parent kind).Apart module := by
  refine ⟨h.locals.push parent kind, fun scope hscope => ?_⟩
  obtain hscope | hscope := List.mem_append.1 hscope
  · exact h.results scope hscope
  · obtain rfl := List.mem_singleton.1 hscope
    exact hkind

theorem truncate (h : s.Apart module) (count : Nat) : (s.truncate count).Apart module :=
  ⟨h.locals.truncate count, fun scope hscope => h.results scope (List.mem_of_mem_take hscope)⟩

theorem declare (h : s.Apart module) (id : Nat) (name : String) {value : Local}
    (hvalue : value.ty.Apart module) : (s.declare id name value).Apart module := by
  refine ⟨All.declare (P := fun _ value => value.ty.Apart module) h.locals id hvalue,
    fun scope hscope => ?_⟩
  obtain ⟨i, hi⟩ := List.mem_iff_getElem?.1 hscope
  rw [scopes_declare] at hi
  obtain ⟨old, hold, rfl⟩ := Option.map_eq_some_iff.1 hi
  have hresults := h.results old (List.mem_of_getElem? hold)
  split
  · exact hresults
  · exact hresults

theorem returnType? (h : s.Apart module) {id : Nat} {result : Ty}
    (hresult : s.returnType? id = some result) : result.Apart module := by
  obtain ⟨scope, hscope, hkind⟩ := List.exists_of_findSome?_eq_some hresult
  split at hkind
  · rename_i found hfound
    obtain rfl := Option.some.inj hkind
    exact h.results scope (mem_scopes_of_mem_chain hscope) _ hfound
  · cases hkind

end Scopes.Apart

end ScriptCheck
