import ScriptCheck.Proofs.ClosedSymbols
import ScriptCheck.Proofs.CompleteLibraries

/-!
# Lookup in settled symbols

Symbols are settled if their library is complete and what the script declares has settled types.
What a lookup finds in settled symbols is settled if the type it starts from is. A function that is
found can be called: its parameters are saturated, and its result leaves nothing open but the
generic parameters of the function (`Signature.Usable`). The result of a method is determined by the
arguments (`Signature.Determined`).

For constants this is asked of some names only. The type of a constant may be inferred from its
value, and then only what is known of the constants before it can be used.
-/

namespace ScriptCheck

open Library

variable {r : Registry}

/-! ## Signatures -/

namespace Signature

/-- The generic parameters that every call binds which gives the arguments without defaults. -/
def pinned (s : Signature Ty) : List String := (s.params.take s.required).flatMap fun p => p.ty.pins

/-- The parameters are saturated and the result leaves only the generic parameters open. -/
structure Usable (r : Registry) (s : Signature Ty) : Prop where
  params : ∀ p ∈ s.params, p.ty.Saturated r
  result : s.result.Sound r (.only s.generics)

/-- A call binds everything that the result leaves open. -/
def Determined (r : Registry) (s : Signature Ty) : Prop := s.result.Sound r (.only s.pinned)

instance (r : Registry) (s : Signature Ty) : Decidable (s.Determined r) :=
  inferInstanceAs (Decidable (Ty.Sound _ _ _))

variable {r : Registry} {s : Signature Ty}

theorem Usable.saturated (h : s.Usable r) : (Ty.function s).Saturated r :=
  Ty.sound_function.2 ⟨.inl rfl, h.params, h.result.saturated⟩

theorem usable_of_settled (h : (Ty.function s).Settled r) : s.Usable r ∧ s.Determined r := by
  obtain ⟨-, hparams, hresult⟩ := Ty.sound_function.1 h
  exact ⟨⟨fun p hp => (hparams p hp).saturated, hresult.loosen⟩, hresult.loosen⟩

/-- A method of a type that maps what is inside of it. -/
theorem usable_mapper {target : String} {source result : Ty} (hsource : source.Settled r)
    (hresult : result.Sound r (.only [target])) :
    Usable r { generics := [target], params := [⟨"mapper", Ty.mapperTo target source, false⟩],
               result } ∧
      Determined r { generics := [target]
                     params := [⟨"mapper", Ty.mapperTo target source, false⟩], result } := by
  refine ⟨⟨fun p hp => ?_, hresult⟩, hresult⟩
  obtain rfl := List.mem_singleton.1 hp
  refine Ty.sound_function.2 ⟨.inl rfl, fun p hp => ?_, Ty.sound_iff.2 ⟨rfl, nofun⟩⟩
  obtain rfl := List.mem_singleton.1 hp
  exact hsource.saturated

/-- A method without generic parameters. -/
theorem usable_plain {params : List (Param Ty)} {result : Ty}
    (hparams : ∀ p ∈ params, p.ty.Settled r) (hresult : result.Settled r) :
    Usable r { params, result } ∧ Determined r { params, result } :=
  usable_of_settled (Ty.sound_function.2 ⟨.inr rfl, hparams, hresult⟩)

end Signature

/-- A function type that can be called. -/
def Ty.Callable (r : Registry) (t : Ty) : Prop := ∃ s, t = .function s ∧ s.Usable r

theorem Ty.Callable.saturated {t : Ty} (h : t.Callable r) : t.Saturated r := by
  obtain ⟨s, rfl, hs⟩ := h
  exact hs.saturated

/-! ## Library functions and methods -/

theorem get?_withPlaceholders (name : String) : (generics : List String) → (bound : Bindings) →
    (generics.foldl (fun b g => b.insert g (.placeholder g)) bound).get? name =
      if name ∈ generics then some (.placeholder name) else bound.get? name
  | [], _ => rfl
  | g :: rest, bound => by
    rw [List.foldl_cons, get?_withPlaceholders name rest, Table.get?_insert]
    by_cases hg : name = g <;> by_cases hrest : name ∈ rest <;> simp [hg, hrest]

theorem get?_selfBindings (generics : List String) (name : String) :
    (Registry.selfBindings generics).get? name =
      if name ∈ generics then some (.placeholder name) else none := by
  rw [Registry.selfBindings, Table.ofList, List.foldl_map]
  exact get?_withPlaceholders name generics {}

theorem sound_placeholder {names : List String} {name : String} (h : name ∈ names) :
    (Ty.placeholder name).Sound r (.only names) :=
  Ty.sound_iff.2 ⟨List.contains_iff_mem.2 h, nofun⟩

theorem saturated_placeholder (name : String) : (Ty.placeholder name).Saturated r :=
  Ty.sound_iff.2 ⟨rfl, nofun⟩

theorem Registry.saturated_paramTypes {bound : Bindings}
    (hbound : ∀ name t, bound.get? name = some t → t.Saturated r) {params : List ParameterInfo}
    (hparams : ∀ p ∈ params, p.type.sound r = true) :
    ∀ p ∈ r.paramTypes bound params, p.ty.Saturated r := by
  intro p hp
  obtain ⟨info, hinfo, rfl⟩ := List.mem_map.1 hp
  exact TypeRef.saturated_resolve (hparams info hinfo) hbound

theorem Registry.callable_functionType {f : FunctionInfo} (h : f.complete r = true) :
    (r.functionType f).Callable r := by
  simp only [FunctionInfo.complete, Bool.and_eq_true, List.all_eq_true, TypeRef.settles_iff] at h
  obtain ⟨hparams, hsound, hmentions⟩ := h
  refine ⟨_, rfl, saturated_paramTypes (fun name t hget => ?_) hparams, ?_⟩
  · rw [get?_selfBindings] at hget
    split at hget
    · exact Option.some.inj hget ▸ saturated_placeholder name
    · cases hget
  · refine f.result.sound_resolve hsound fun name hname => ?_
    rw [get?_selfBindings, if_pos (hmentions hname)]
    exact sound_placeholder (hmentions hname)

theorem pinned_subset_pinned {bound : Bindings} {params : List ParameterInfo} {s : Signature Ty}
    (hs : s.params = r.paramTypes bound params) {name : String}
    (hbound : bound.get? name = some (.placeholder name)) (h : name ∈ Library.pinned params) :
    name ∈ s.pinned := by
  obtain ⟨p, hp, hpin⟩ := List.mem_flatMap.1 h
  have hrequired : s.required = (params.filter fun p => !p.hasDefault).length := by
    rw [Signature.required, hs, Registry.paramTypes, List.filter_map, List.length_map]
    rfl
  rw [Signature.pinned, hrequired, hs, Registry.paramTypes, ← List.map_take, List.flatMap_map]
  exact List.mem_flatMap.2 ⟨p, hp, p.type.mem_pins_resolve hbound hpin⟩

/-! ## Modules -/

namespace Library.ModuleInfo

variable {r : Registry} {m : ModuleInfo} {name : String}

theorem settled_constant? (hm : m.complete r = true) {info : ConstantInfo}
    (hinfo : m.constant? name = some info) : (info.type.resolve r {}).Settled r := by
  simp only [complete, Bool.and_eq_true, List.all_eq_true] at hm
  obtain ⟨hsound, hmentions⟩ := TypeRef.settles_iff.1 (hm.1.1 info (mem_of_findLast? hinfo))
  exact info.type.sound_resolve hsound fun name hname => absurd (hmentions hname) List.not_mem_nil

theorem callable_function? (hm : m.complete r = true) {info : FunctionInfo}
    (hinfo : m.function? name = some info) : (r.functionType info).Callable r := by
  simp only [complete, Bool.and_eq_true, List.all_eq_true] at hm
  exact Registry.callable_functionType (hm.1.2 info (mem_of_findLast? hinfo))

end Library.ModuleInfo

/-! ## Settled symbols -/

/-- Fields, methods and operators of a struct with settled types. -/
structure StructInfo.Settled (r : Registry) (info : StructInfo) : Prop where
  fields : ∀ item ∈ info.fields, item.2.Settled r
  methods : info.methods.All fun _ value => value.ty.Settled r
  prefixOperators : info.prefixOperators.All fun _ overloads => ∀ o ∈ overloads, o.result.Settled r
  suffixOperators : info.suffixOperators.All fun _ overloads => ∀ o ∈ overloads, o.result.Settled r

/-- A complete library, and declarations with settled types. A type name may also stand for a
library type that is generic. Of constants only those with known names count. -/
structure Symbols.Settled (knows : String → Prop) (s : Symbols) : Prop where
  registry : s.registry.complete = true
  constants : ∀ name value, knows name → s.constants.get? name = some value →
    value.ty.Settled s.registry
  functions : s.functions.All fun _ value => value.ty.Callable s.registry
  types : s.types.All fun _ found => found.ty.Settled s.registry ∨
    found.isStruct = false ∧ ∃ q, found.ty = .named q
  structs : s.structs.All fun _ info => info.Settled s.registry

namespace Symbols.Settled

variable {knows : String → Prop} {s : Symbols} {t : Ty} {name : String} {found : MethodType}
  {r : Registry} {slack : Slack}

variable (h : s.Settled knows)

include h

theorem structOf? {info : StructInfo} (hinfo : s.structOf? t = some info) :
    info.Settled s.registry :=
  all_structOf? h.structs hinfo

theorem module? {m : ModuleInfo} (hm : s.module? name = some m) : m.complete s.registry = true := by
  unfold Symbols.module? at hm
  split at hm <;> exact Registry.complete_module? h.registry hm

theorem memberConstant? {module name : String} {value : Value}
    (hvalue : s.constant? (some module) name = some value) : value.ty.Settled s.registry := by
  simp only [Symbols.constant?, Option.bind_eq_bind, Option.bind_eq_some_iff, pure,
    Option.some.injEq] at hvalue
  obtain ⟨m, hm, info, hinfo, rfl⟩ := hvalue
  exact ModuleInfo.settled_constant? (h.module? hm) hinfo

/-! ### Functions -/

omit h in
theorem callable_constructor? (h : constructor? name none = some t) : t.Callable r := by
  have hparam {generics : List String} {param : Param Ty} {result : Ty}
      (hp : param.ty.Saturated r) (hresult : result.Sound r (.only generics)) :
      Ty.Callable r (.function { generics, params := [param], result }) :=
    ⟨_, rfl, fun p h => List.mem_singleton.1 h ▸ hp, hresult⟩
  have hplaceholder {names : List String} {name : String} (hname : name ∈ names) :=
    sound_placeholder (r := r) hname
  unfold constructor? at h
  dsimp only at h
  split_ifs at h
  all_goals obtain rfl := Option.some.inj h
  · exact hparam (saturated_placeholder _) (Ty.sound_option.2 (hplaceholder (by simp)))
  · exact ⟨_, rfl, nofun, Ty.sound_option.2 (hplaceholder (by simp))⟩
  · exact hparam (saturated_placeholder _)
      (Ty.sound_result.2 ⟨hplaceholder (by simp), hplaceholder (by simp)⟩)
  · exact hparam (saturated_placeholder _)
      (Ty.sound_result.2 ⟨hplaceholder (by simp), hplaceholder (by simp)⟩)
  · exact hparam (saturated_placeholder _)
      (Ty.sound_applied.2 ⟨rfl, fun t ht => List.mem_singleton.1 ht ▸ hplaceholder (by simp)⟩)
  · exact hparam Ty.settled_int.loosen
      (Ty.sound_applied.2 ⟨rfl, fun t ht => List.mem_singleton.1 ht ▸ hplaceholder (by simp)⟩)

theorem function? {scope : Option String} {value : Value}
    (hvalue : s.function? scope name none = some value) : value.ty.Callable s.registry := by
  cases scope with
  | none =>
    simp only [Symbols.function?, Option.bind_none, Option.map_none] at hvalue
    split at hvalue
    · rename_i t ht
      obtain rfl := Option.some.inj hvalue
      exact callable_constructor? ht
    · exact h.functions.get? hvalue
  | some module =>
    simp only [Symbols.function?, Option.bind_eq_bind, Option.bind_eq_some_iff, pure,
      Option.some.injEq] at hvalue
    obtain ⟨m, hm, info, hinfo, rfl⟩ := hvalue
    exact ModuleInfo.callable_function? (h.module? hm) hinfo

omit h in
/-- A constructor function whose result is expected to be settled has a settled type, or the one
that it has without a hint. -/
theorem constructor?_cases {expected : Option Ty} (hexpected : ∀ u ∈ expected, u.Settled r)
    (h : constructor? name expected = some t) : t.Settled r ∨ constructor? name none = some t := by
  have hfixed {param : Param Ty} {result : Ty} (hp : param.ty.Settled r)
      (hresult : result.Settled r) : Ty.Settled r (.function { params := [param], result }) :=
    Ty.sound_function.2 ⟨.inr rfl, fun p h => List.mem_singleton.1 h ▸ hp, hresult⟩
  unfold constructor? at h ⊢
  dsimp only at h ⊢
  split_ifs at h ⊢
  all_goals
    split at h
    case h_2 => exact .inr h
    case' h_1 =>
      obtain rfl := Option.some.inj h
      have hexpected := hexpected _ rfl
      left
  · have hinner := Ty.sound_option.1 hexpected
    exact hfixed hinner hexpected
  · exact Ty.sound_function.2 ⟨.inr rfl, nofun, hexpected⟩
  · exact hfixed (Ty.sound_result.1 hexpected).1 hexpected
  · exact hfixed (Ty.sound_result.1 hexpected).2 hexpected
  · obtain ⟨hcount, hargs⟩ := Ty.sound_applied.1 hexpected
    obtain ⟨arg, rfl⟩ := List.length_eq_one_iff.1 hcount.symm
    exact hfixed (hargs arg List.mem_cons_self) hexpected
  · exact hfixed Ty.settled_int hexpected

/-! ### Members and operators -/

omit h in
/-- The generic parameters of a library type stand for its arguments. -/
theorem sound_typeBindings (ht : t.Sound s.registry slack) {info : TypeInfo}
    (hinfo : s.registry.infoOf? t = some info) (hname : name ∈ info.generics) :
    (((s.typeBindings t).get? name).getD .unknown).Sound s.registry slack := by
  cases t with
  | named q =>
    have hnone : Ty.genericNames s.registry (.named q) = info.generics := by
      have hq : s.registry.type? q = some info := hinfo
      simp [Ty.genericNames, hq]
    have hempty := List.isEmpty_iff.1 (Ty.sound_iff.1 ht).1
    rw [hnone.symm.trans hempty] at hname
    cases hname
  | applied base args =>
    have hbase : s.registry.type? base = some info := hinfo
    obtain ⟨hcount, hargs⟩ := Ty.sound_applied.1 ht
    have hlength : info.generics.length = args.length := by
      simpa [Ty.genericNames, hbase] using hcount
    obtain ⟨arg, harg, hget⟩ := Table.exists_mem_get?_ofList_zip hlength.le hname
    rw [typeBindings, hbase]
    dsimp only
    rw [hget]
    exact hargs arg harg
  | _ => cases hinfo

omit h in
theorem all_typeBindings (ht : t.Sound s.registry slack) :
    (s.typeBindings t).All fun _ u => u.Sound s.registry slack := by
  unfold Symbols.typeBindings
  split
  · split
    · exact .ofList fun p hp => ht.child (List.of_mem_zip hp).2
    · exact .empty
  · exact .empty

omit h in
/-- What a library type says about itself is as settled as its arguments. -/
theorem sound_member (ht : t.Sound s.registry slack) {info : TypeInfo}
    (hinfo : s.registry.infoOf? t = some info) {ref : TypeRef}
    (href : ref.settles s.registry info.generics = true) :
    (ref.resolve s.registry (s.typeBindings t)).Sound s.registry slack := by
  obtain ⟨hsound, hmentions⟩ := TypeRef.settles_iff.1 href
  exact ref.sound_resolve hsound fun name hname => sound_typeBindings ht hinfo (hmentions hname)

/-- The field of a type leaves open no more than the type. -/
theorem field? (ht : t.Sound s.registry slack) {found : FieldType}
    (hfound : s.field? t name = some found) : found.ty.Sound s.registry slack := by
  cases fieldSource hfound with
  | fixed hty =>
    obtain hty | hty := hty <;> rw [hty]
    · exact Ty.settled_int.loosen
    · exact Ty.settled_bool.loosen
  | part _ hty => exact ht.child hty
  | struct hinfo hty => exact ((h.structOf? hinfo).fields _ hty).loosen
  | library hinfo hfield hty =>
    rw [hty]
    exact sound_member ht hinfo ((Registry.complete_infoOf? h.registry hinfo).fields.get? hfield)

theorem libraryMethod? (ht : t.Settled s.registry) (hfound : s.libraryMethod? t name = some found) :
    found.signature.Usable s.registry ∧ found.signature.Determined s.registry := by
  simp only [Symbols.libraryMethod?, Option.bind_eq_bind, Option.bind_eq_some_iff, pure,
    Option.some.injEq] at hfound
  obtain ⟨info, hinfo, m, hm, rfl⟩ := hfound
  have hmethod := (Registry.complete_infoOf? h.registry hinfo).methods.get? hm
  simp only [MethodInfo.complete, Bool.and_eq_true, List.all_eq_true] at hmethod
  obtain ⟨⟨hparams, hsound⟩, hmentions⟩ := hmethod
  set bound := m.generics.foldl (fun b g => b.insert g (.placeholder g)) (s.typeBindings t)
    with hbound
  have hget (name : String) := get?_withPlaceholders name m.generics (s.typeBindings t)
  have hresult {names : List String} (hnames : ∀ name ∈ m.result.mentions, name ∈ m.generics →
      name ∈ names) : (m.result.resolve s.registry bound).Sound s.registry (.only names) := by
    refine m.result.sound_resolve hsound fun name hname => ?_
    rw [hbound, hget]
    split
    · rename_i hown
      exact sound_placeholder (hnames name hname hown)
    · rename_i hown
      refine (sound_typeBindings ht hinfo ?_).loosen
      simpa [hown] using hmentions name hname
  refine ⟨⟨Registry.saturated_paramTypes ?_ hparams, hresult fun _ _ hown => hown⟩,
    hresult fun name hname hown => ?_⟩
  · intro name u hu
    rw [hget] at hu
    split at hu
    · exact Option.some.inj hu ▸ saturated_placeholder name
    · exact (all_typeBindings ht.saturated).get? hu
  · refine pinned_subset_pinned rfl ?_ (by simpa [hown] using hmentions name hname)
    rw [hget, if_pos hown]

omit h in
theorem arrayMethod? (ht : t.Settled r) (hfound : Ty.arrayMethod? t name = some found) :
    found.signature.Usable r ∧ found.signature.Determined r := by
  have harray : (Ty.array t).Settled r := Ty.sound_array.2 ht
  have hpredicate : ∀ p ∈ [(⟨"predicate", Ty.predicateOn t, false⟩ : Param Ty)],
      p.ty.Settled r := by
    refine List.forall_mem_singleton.2 (Ty.sound_function.2 ⟨.inr rfl, ?_, Ty.settled_bool⟩)
    exact List.forall_mem_singleton.2 ht
  unfold Ty.arrayMethod? at hfound
  dsimp only at hfound
  split_ifs at hfound
  all_goals obtain rfl := Option.some.inj hfound
  · exact Signature.usable_mapper ht (Ty.sound_array.2 (sound_placeholder (by simp)))
  · exact Signature.usable_plain hpredicate harray
  · exact Signature.usable_plain hpredicate Ty.settled_bool
  · exact Signature.usable_plain hpredicate (Ty.sound_option.2 ht)
  · exact Signature.usable_plain nofun harray
  · exact Signature.usable_plain (by simp [Ty.settled_int]) harray
  · exact Signature.usable_plain nofun Ty.settled_string

omit h in
theorem optionMethod? (ht : t.Settled r) (hfound : Ty.optionMethod? t name = some found) :
    found.signature.Usable r ∧ found.signature.Determined r := by
  unfold Ty.optionMethod? at hfound
  split_ifs at hfound
  all_goals obtain rfl := Option.some.inj hfound
  · exact Signature.usable_mapper ht (Ty.sound_option.2 (sound_placeholder (by simp)))
  · exact Signature.usable_plain (List.forall_mem_singleton.2 ht) ht
  · have hresult : (Ty.result t (.placeholder "E")).Sound r (.only ["E"]) :=
      Ty.sound_result.2 ⟨ht.loosen, sound_placeholder (by simp)⟩
    exact ⟨⟨List.forall_mem_singleton.2 (saturated_placeholder _), hresult⟩, hresult⟩

omit h in
theorem resultMethod? {err : Ty} (ht : t.Settled r) (herr : err.Settled r)
    (hfound : Ty.resultMethod? t err name = some found) :
    found.signature.Usable r ∧ found.signature.Determined r := by
  unfold Ty.resultMethod? at hfound
  split_ifs at hfound
  all_goals obtain rfl := Option.some.inj hfound
  · exact Signature.usable_mapper ht
      (Ty.sound_result.2 ⟨sound_placeholder (by simp), herr.loosen⟩)
  · exact Signature.usable_mapper herr
      (Ty.sound_result.2 ⟨ht.loosen, sound_placeholder (by simp)⟩)

/-- A method of a settled type can be called, and the call determines the result. -/
theorem method? (ht : t.Settled s.registry) (hfound : s.method? t name = some found) :
    found.signature.Usable s.registry ∧ found.signature.Determined s.registry := by
  cases t with
  | unknown | tuple | function | placeholder => cases hfound
  | array => exact arrayMethod? (Ty.sound_array.1 ht) hfound
  | option => exact optionMethod? (Ty.sound_option.1 ht) hfound
  | result =>
    obtain ⟨hok, herr⟩ := Ty.sound_result.1 ht
    exact resultMethod? hok herr hfound
  | named | applied => exact h.libraryMethod? ht hfound
  | record =>
    obtain ⟨info, value, hinfo, hvalue, hty, -⟩ := exists_of_recordMethod hfound
    exact Signature.usable_of_settled (hty ▸ (h.structOf? hinfo).methods.get? hvalue)

/-- An operator, in either of the tables. -/
theorem pick? (ht : t.Settled s.registry) {own : StructInfo → Table Operator (List Overload)}
    (hown : ∀ info : StructInfo, info.Settled s.registry →
      (own info).All fun _ os => ∀ o ∈ os, o.result.Settled s.registry)
    {library : TypeInfo → Table String (List OverloadInfo)}
    (hlibrary : ∀ info : TypeInfo, info.Complete s.registry →
      (library info).All fun _ os => ∀ o ∈ os, o.result.settles s.registry info.generics = true)
    {op : Operator} {other : Ty} {found : Overload}
    (hfound : s.pick? (s.overloadsIn own library t op) other = some found) :
    found.result.Settled s.registry := by
  cases operatorSource hfound with
  | struct hinfo hos hmem => exact (hown _ (h.structOf? hinfo)).get? hos _ hmem
  | library hinfo hos ho hresult =>
    have hcomplete := Registry.complete_infoOf? h.registry hinfo
    exact hresult ▸ sound_member ht hinfo ((hlibrary _ hcomplete).get? hos _ ho)

theorem suffixOperator? (ht : t.Settled s.registry) {op : Operator} {right : Ty} {found : Overload}
    (hfound : s.suffixOperator? t op right = some found) : found.result.Settled s.registry :=
  h.pick? ht (fun _ hinfo => hinfo.suffixOperators) (fun _ hinfo => hinfo.suffixOperators)
    hfound

theorem prefixOperator? (ht : t.Settled s.registry) {op : Operator} {left : Ty} {found : Overload}
    (hfound : s.prefixOperator? t op left = some found) : found.result.Settled s.registry :=
  h.pick? ht (fun _ hinfo => hinfo.prefixOperators) (fun _ hinfo => hinfo.prefixOperators)
    hfound

/-- The type of the elements, for loops or for index access. -/
theorem elementIn? (ht : t.Settled s.registry) {source : TypeInfo → Option TypeRef}
    (hsource : ∀ info : TypeInfo, info.Complete s.registry →
      ∀ ref ∈ source info, ref.settles s.registry info.generics = true)
    {found : Ty} (hfound : s.elementIn? source t = some found) : found.Settled s.registry := by
  obtain rfl | ⟨info, ref, hinfo, href, rfl⟩ := elementSource hfound
  · exact Ty.sound_array.1 ht
  · exact sound_member ht hinfo
      (hsource info (Registry.complete_infoOf? h.registry hinfo) ref href)

theorem iterated? (ht : t.Settled s.registry) {found : Ty} (hfound : s.iterated? t = some found) :
    found.Settled s.registry :=
  h.elementIn? ht (fun _ hinfo => hinfo.forInSource) hfound

theorem indexed? (ht : t.Settled s.registry) {found : Ty} (hfound : s.indexed? t = some found) :
    found.Settled s.registry :=
  h.elementIn? ht (fun _ hinfo => hinfo.indexAccess) hfound

/-! ### Plain names -/

/-- A plain name stands for something of a settled type, or for a function as it is without a
hint. -/
theorem resolve? {scopes : Scopes} (hscopes : scopes.All fun _ value => value.ty.Settled s.registry)
    {id : Nat} (hname : knows name) {hint : Option Ty}
    (hhint : ∀ u ∈ (hint.bind Ty.signature?).map Signature.result, u.Settled s.registry)
    {found : Resolved} (hfound : scopes.resolve? s id name hint = some found) :
    found.ty.Settled s.registry ∨
      ∃ value, s.function? none name none = some value ∧ value.ty = found.ty := by
  unfold Scopes.resolve? at hfound
  split at hfound
  · rename_i value hvalue
    obtain rfl := Option.some.inj hfound
    exact .inl (hscopes.local? hvalue)
  · split at hfound
    · rename_i value hvalue
      obtain rfl := Option.some.inj hfound
      exact .inl (h.constants name value hname hvalue)
    · obtain ⟨value, hvalue, rfl⟩ := Option.map_eq_some_iff.1 hfound
      simp only [Symbols.function?, Option.bind_none, Option.map_none] at hvalue ⊢
      split at hvalue
      · rename_i u hu
        obtain rfl := Option.some.inj hvalue
        refine (constructor?_cases hhint hu).imp_right fun hplain => ⟨{ ty := u }, ?_, rfl⟩
        rw [hplain]
      · rename_i hnone
        rw [← Option.not_isSome_iff_eq_none, isSome_constructor?, ← isSome_constructor? name none,
          Option.not_isSome_iff_eq_none] at hnone
        exact .inr ⟨value, by rw [hnone]; exact hvalue, rfl⟩

end Symbols.Settled

/-! ## Annotations -/

/-- The library of a view. -/
abbrev View.registry (v : View) : Registry := v.symbols.registry

/-- Type names stand for tame types, or for library types that may be generic. -/
def View.Tame (v : View) : Prop :=
  ∀ name t, v.type? none name = some t → t.Tame v.symbols.registry ∨ ∃ q, t = .named q

theorem View.Tame.type? {v : View} (hv : v.Tame) {scope : Option String} {name : String} {t : Ty}
    (h : v.type? scope name = some t) : t.Tame v.registry ∨ ∃ q, t = .named q :=
  (View.type?_or_named h).elim (hv name t) .inr

namespace TypeSpec

mutual
/-- Whether every type name that is generic has arguments. -/
def saturated (v : View) : TypeSpec → Bool
  | .named _ scope name args =>
    saturatedList v args && (!args.isEmpty || (v.arity? scope name).all (· == 0))
  | .array _ element => element.saturated v
  | .option _ inner => inner.saturated v
  | .result _ ok err => ok.saturated v && err.saturated v
  | .tuple _ items => saturatedList v items
  | .record _ items => saturatedItems v items
  | .function _ _ params ret => saturatedList v params && ret.saturated v

/-- Whether all annotations of a list are saturated. -/
def saturatedList (v : View) : List TypeSpec → Bool
  | [] => true
  | spec :: rest => spec.saturated v && saturatedList v rest

/-- Whether the annotations of all record items are saturated. -/
def saturatedItems (v : View) : List (String × TypeSpec) → Bool
  | [] => true
  | (_, spec) :: rest => spec.saturated v && saturatedItems v rest
end

variable {v : View}

theorem saturatedList_eq (v : View) (specs : List TypeSpec) :
    saturatedList v specs = specs.all (saturated v) := by
  induction specs with
  | nil => rfl
  | cons spec rest ih => rw [saturatedList, ih, List.all_cons]

theorem saturatedItems_eq (v : View) (items : List (String × TypeSpec)) :
    saturatedItems v items = (items.map Prod.snd).all (saturated v) := by
  induction items with
  | nil => rfl
  | cons item rest ih => rw [saturatedItems, ih, List.map_cons, List.all_cons]

theorem saturated_of_composite {spec : TypeSpec} (h : spec.isComposite = true) (v : View) :
    spec.saturated v = spec.children.all (saturated v) := by
  cases spec with
  | named => cases h
  | _ => simp [saturated, children, saturatedList_eq, saturatedItems_eq]

/-- A saturated annotation stands for a tame type. -/
theorem tame_resolve (hv : v.Tame) (spec : TypeSpec) (h : spec.saturated v = true) :
    (spec.resolve v).Tame v.registry := by
  induction spec using names_induction with
  | named range scope name args ih =>
    simp only [saturated, saturatedList_eq, Bool.and_eq_true, Bool.or_eq_true, Bool.not_eq_true',
      List.all_eq_true] at h
    have hargs : ∀ t ∈ args.map (resolve v), t.Tame v.registry :=
      List.forall_mem_map.2 fun arg harg => ih arg harg (h.1 arg harg)
    have hunknown : Ty.unknown.Tame v.registry := Ty.sound_iff.2 ⟨rfl, nofun⟩
    rw [resolve, resolveList_eq_map]
    split
    · exact hunknown
    · rename_i base hbase
      split_ifs with hempty hlength
      · have hnames : base.genericNames v.registry = [] := by
          have harity := h.2.resolve_left (by simp [hempty])
          simpa [View.arity?, hbase] using harity
        obtain hbase | ⟨q, rfl⟩ := hv.type? hbase
        · exact hbase
        · exact (Ty.settled_named hnames).loosen
      · exact hunknown
      · refine Ty.sound_fillPositional rfl hargs (hv.type? hbase) ?_
        rw [List.length_map]
        exact not_not.1 hlength
  | composite spec hspec ih =>
    rw [saturated_of_composite hspec, List.all_eq_true] at h
    refine Ty.sound_iff.2 ⟨?_, ?_⟩
    · cases spec with
      | named => cases hspec
      | _ => rfl
    · rw [children_resolve hspec]
      exact List.forall_mem_map.2 fun c hc => ih c hc (h c hc)

end TypeSpec

/-- Settled symbols, and a settled type for `Self`. -/
structure View.Settled (knows : String → Prop) (v : View) : Prop where
  symbols : v.symbols.Settled knows
  self : ∀ self ∈ v.self, self.ty.Settled v.symbols.registry

namespace View.Settled

variable {knows : String → Prop} {v : View}

theorem type? (hv : v.Settled knows) {name : String} {t : Ty} (h : v.type? none name = some t) :
    t.Settled v.registry ∨ ∃ q, t = .named q := by
  obtain ⟨self, hself, rfl⟩ | ⟨found, hfound, rfl⟩ | hnamed := View.type?_none h
  · exact .inl (hv.self self hself)
  · exact (hv.symbols.types.get? hfound).imp_right And.right
  · exact .inr hnamed

theorem tame (hv : v.Settled knows) : v.Tame :=
  fun _ _ h => (hv.type? h).imp_left Ty.Sound.loosen

theorem known (hv : v.Settled knows) : v.Known := by
  intro name t h
  obtain h | ⟨q, rfl⟩ := hv.type? h
  · exact h.known
  · exact Ty.known_named q

/-- A saturated annotation without faults stands for a settled type. -/
theorem resolve (hv : v.Settled knows) {spec : TypeSpec} (hsaturated : spec.saturated v = true)
    (hfaults : spec.faults v = []) : (spec.resolve v).Settled v.registry :=
  (spec.tame_resolve hv.tame hsaturated).settled_of_known (spec.known_resolve hv.known hfaults)

end View.Settled

end ScriptCheck
