import ScriptCheck.Proofs.Annotations
import ScriptCheck.Proofs.DeclareSteps

/-!
# Closed types

A placeholder is bound by a function type around it that lists it among its generic parameters, and
free otherwise. A type without free placeholders is closed. One that has neither placeholders nor
generic parameters is rigid: erasing leaves it as it is.

Annotations resolve to rigid types and references of library descriptions to closed ones, so that
every lookup in closed symbols finds closed types. What a hint contributes to the type of an
expression is concrete and therefore rigid, whatever else is in the hint.
-/

namespace ScriptCheck

namespace Ty

/-! ## Free placeholders -/

mutual
/-- The placeholders of a type that no function type around them binds. -/
def free : Ty → List String
  | .unknown | .named _ => []
  | .placeholder name => [name]
  | .applied _ args => freeOfList args
  | .array element => element.free
  | .tuple items => freeOfList items
  | .record _ items => freeOfItems items
  | .option inner => inner.free
  | .result ok err => ok.free ++ err.free
  | .function s => (freeOfParams s.params ++ s.result.free).filter fun name => name ∉ s.generics

/-- The free placeholders of the types of a list. -/
def freeOfList : List Ty → List String
  | [] => []
  | t :: rest => t.free ++ freeOfList rest

/-- The free placeholders of record items. -/
def freeOfItems : List (String × Ty) → List String
  | [] => []
  | (_, t) :: rest => t.free ++ freeOfItems rest

/-- The free placeholders of parameters. -/
def freeOfParams : List (Param Ty) → List String
  | [] => []
  | p :: rest => p.ty.free ++ freeOfParams rest
end

/-- Every placeholder of the type is bound. -/
def Closed (t : Ty) : Prop := t.free = []

instance (t : Ty) : Decidable t.Closed := inferInstanceAs (Decidable (_ = _))

theorem freeOfList_eq (ts : List Ty) : freeOfList ts = ts.flatMap free := by
  induction ts with
  | nil => rfl
  | cons t rest ih => simp [freeOfList, ih]

theorem freeOfItems_eq (items : List (String × Ty)) :
    freeOfItems items = (items.map Prod.snd).flatMap free := by
  induction items with
  | nil => rfl
  | cons item rest ih => simp [freeOfItems, ih]

theorem freeOfParams_eq (params : List (Param Ty)) :
    freeOfParams params = (params.map Param.ty).flatMap free := by
  induction params with
  | nil => rfl
  | cons p rest ih => simp [freeOfParams, ih]

/-- Only a function type binds placeholders. -/
theorem free_eq_flatMap {t : Ty} (hplaceholder : ∀ name, t ≠ .placeholder name)
    (hfunction : t.isFunction = false) : t.free = t.children.flatMap free := by
  cases t with
  | placeholder name => exact absurd rfl (hplaceholder name)
  | function => cases hfunction
  | unknown | named | array | option => simp [free, children]
  | applied | tuple => simp [free, children, freeOfList_eq]
  | record => simp [free, children, freeOfItems_eq]
  | result => simp [free, children]

theorem free_function (s : Signature Ty) :
    (Ty.function s).free =
      ((Ty.function s).children.flatMap free).filter fun name => name ∉ s.generics := by
  simp [free, children, freeOfParams_eq]

/-- What is free in a type is free in one of its children. -/
theorem free_subset {t : Ty} (hplaceholder : ∀ name, t ≠ .placeholder name) :
    t.free ⊆ t.children.flatMap free := by
  cases t with
  | function s =>
    rw [free_function]
    exact List.filter_subset_self _
  | _ => rw [free_eq_flatMap hplaceholder rfl]; exact List.Subset.refl _

theorem closed_of_children {t : Ty} (hplaceholder : ∀ name, t ≠ .placeholder name)
    (h : ∀ c ∈ t.children, c.Closed) : t.Closed :=
  List.eq_nil_of_subset_nil fun name hname => by
    obtain ⟨c, hc, hfree⟩ := List.mem_flatMap.1 (free_subset hplaceholder hname)
    rwa [h c hc] at hfree

theorem Closed.child {t : Ty} (h : t.Closed) (hfunction : t.isFunction = false) {c : Ty}
    (hc : c ∈ t.children) : c.Closed := by
  have hplaceholder : ∀ name, t ≠ .placeholder name := by
    rintro name rfl
    cases hc
  rw [Closed, free_eq_flatMap hplaceholder hfunction] at h
  exact List.flatMap_eq_nil_iff.1 h c hc

/-! ## Rigid types -/

/-- Nothing in the type is open or generic. -/
def Rigid (t : Ty) : Prop := t.erase = t

theorem rigid_iff {t : Ty} :
    t.Rigid ↔ (∀ name, t ≠ .placeholder name) ∧ (∀ s, t = .function s → s.generics = []) ∧
      ∀ c ∈ t.children, c.Rigid := by
  have hmap {ts : List Ty} : ts.map erase = ts ↔ ∀ c ∈ ts, c.Rigid := by
    induction ts with
    | nil => simp
    | cons t rest ih => simp [ih, Rigid]
  have hitems {items : List (String × Ty)} :
      (items.map fun item => (item.1, item.2.erase)) = items ↔
        ∀ c ∈ items.map Prod.snd, c.Rigid := by
    induction items with
    | nil => simp
    | cons item rest ih => simp [ih, Rigid, Prod.ext_iff]
  have hparams {params : List (Param Ty)} :
      (params.map fun p => (⟨p.name, p.ty.erase, p.hasDefault⟩ : Param Ty)) = params ↔
        ∀ c ∈ params.map Param.ty, c.Rigid := by
    induction params with
    | nil => simp
    | cons p rest ih =>
      obtain ⟨name, ty, hasDefault⟩ := p
      simp [ih, Rigid]
  cases t with
  | unknown | named => simp [Rigid, erase, children]
  | placeholder name => simp [Rigid, erase]
  | array | option | result => simp [Rigid, erase, children]
  | applied base args | tuple args => simp [Rigid, erase, children, eraseList_eq_map, hmap]
  | record name items =>
    rw [Rigid, erase, eraseItems_eq_map, Ty.record.injEq, hitems]
    simp [children]
  | function s =>
    obtain ⟨isAsync, generics, params, result⟩ := s
    rw [Rigid, erase, eraseParams_eq_map, Ty.function.injEq, Signature.mk.injEq, hparams]
    simp [children, or_imp, forall_and, Rigid, eq_comm (a := [])]

theorem rigid_erase (t : Ty) : t.erase.Rigid := by
  induction t using children_induction with
  | h t ih =>
    refine rigid_iff.2 ⟨(ground_iff.1 (ground_erase t)).1, fun s hs => ?_, fun c hc => ?_⟩
    · cases t <;> simp [erase] at hs
      rw [← hs]
    · rw [children_erase] at hc
      obtain ⟨child, hchild, rfl⟩ := List.mem_map.1 hc
      exact ih child hchild

theorem Rigid.closed {t : Ty} (h : t.Rigid) : t.Closed := by
  induction t using children_induction with
  | h t ih =>
    obtain ⟨hplaceholder, -, hchildren⟩ := rigid_iff.1 h
    exact closed_of_children hplaceholder fun c hc => ih c hc (hchildren c hc)

/-- A rigid type that takes arguments is a name. -/
theorem Rigid.exists_named {t : Ty} (h : t.Rigid) {r : Registry} (hnames : t.genericNames r ≠ []) :
    ∃ q, t = .named q := by
  cases t with
  | named q => exact ⟨q, rfl⟩
  | function s => exact absurd ((rigid_iff.1 h).2.1 s rfl) hnames
  | _ => exact absurd rfl hnames

theorem isConcreteList_eq (ts : List Ty) : isConcreteList ts = ts.all isConcrete := by
  induction ts with
  | nil => rfl
  | cons t rest ih => simp [isConcreteList, ih]

theorem isConcreteItems_eq (items : List (String × Ty)) :
    isConcreteItems items = (items.map Prod.snd).all isConcrete := by
  induction items with
  | nil => rfl
  | cons item rest ih => simp [isConcreteItems, ih]

theorem isConcreteParams_eq (params : List (Param Ty)) :
    isConcreteParams params = (params.map Param.ty).all isConcrete := by
  induction params with
  | nil => rfl
  | cons p rest ih => simp [isConcreteParams, ih]

theorem isConcrete_of_mem_children {t c : Ty} (h : t.isConcrete = true) (hc : c ∈ t.children) :
    c.isConcrete = true := by
  cases t with
  | unknown | named | placeholder => cases hc
  | applied | tuple =>
    rw [isConcrete, isConcreteList_eq, List.all_eq_true] at h
    exact h c hc
  | record =>
    rw [isConcrete, isConcreteItems_eq, List.all_eq_true] at h
    exact h c hc
  | array | option => exact List.mem_singleton.1 hc ▸ h
  | result =>
    rw [isConcrete, Bool.and_eq_true] at h
    simp only [children, List.mem_cons, List.not_mem_nil, or_false] at hc
    rcases hc with rfl | rfl
    · exact h.1
    · exact h.2
  | function s =>
    rw [isConcrete, isConcreteParams_eq, Bool.and_eq_true, Bool.and_eq_true,
      List.all_eq_true] at h
    rcases List.mem_append.1 hc with hc | hc
    · exact h.1.2 c hc
    · exact List.mem_singleton.1 hc ▸ h.2

/-- A concrete type is rigid. -/
theorem rigid_of_isConcrete {t : Ty} (h : t.isConcrete = true) : t.Rigid := by
  induction t using children_induction with
  | h t ih =>
    refine rigid_iff.2 ⟨?_, ?_, fun c hc => ih c hc (isConcrete_of_mem_children h hc)⟩
    · rintro name rfl
      cases h
    · rintro s rfl
      simp only [isConcrete, Bool.and_eq_true, List.isEmpty_iff] at h
      exact h.1.1

end Ty

/-! ## References and annotations -/

namespace TypeRef

/-- The references directly below a reference. -/
def children : TypeRef → List TypeRef
  | .builtin _ | .generic _ => []
  | .standard _ _ args => args
  | .array param | .option param => [param]
  | .result ok err => [ok, err]
  | .tuple params | .record _ params => params
  | .function _ params ret => params ++ [ret]

/-- Whether a reference is built from others, and is not a name with its arguments. -/
def isComposite : TypeRef → Bool
  | .builtin _ | .generic _ | .standard .. => false
  | .array _ | .option _ | .result .. | .tuple _ | .record .. | .function .. => true

theorem sizeOf_lt_of_mem_children {ref c : TypeRef} (h : c ∈ ref.children) :
    sizeOf c < sizeOf ref := by
  cases ref with
  | builtin | generic => cases h
  | standard | tuple | record =>
    have := List.sizeOf_lt_of_mem h
    simp only [children, standard.sizeOf_spec, tuple.sizeOf_spec, record.sizeOf_spec] at *
    omega
  | function isAsync params ret =>
    rcases List.mem_append.1 h with h | h
    · have := List.sizeOf_lt_of_mem h
      simp only [function.sizeOf_spec]
      omega
    · rw [List.mem_singleton.1 h, function.sizeOf_spec]
      omega
  | array | option | result =>
    simp only [children, List.mem_cons, List.not_mem_nil, or_false] at h
    rcases h with rfl | rfl <;> simp <;> omega

/-- Induction on references, with names apart from everything else. -/
theorem names_induction {P : TypeRef → Prop} (builtin : ∀ name, P (.builtin name))
    (generic : ∀ name, P (.generic name))
    (standard : ∀ module name args, (∀ arg ∈ args, P arg) → P (.standard module name args))
    (composite : ∀ ref, ref.isComposite = true → (∀ c ∈ ref.children, P c) → P ref)
    (ref : TypeRef) : P ref := by
  have ih (c : TypeRef) (hc : c ∈ ref.children) : P c :=
    have := sizeOf_lt_of_mem_children hc
    names_induction builtin generic standard composite c
  cases ref with
  | builtin name => exact builtin name
  | generic name => exact generic name
  | standard module name args => exact standard module name args ih
  | array | option | result | tuple | record | function => exact composite _ rfl ih
termination_by sizeOf ref

theorem resolveList_eq_map (r : Registry) (bound : Bindings) (refs : List TypeRef) :
    resolveList r bound refs = refs.map (resolve r bound) := by
  induction refs with
  | nil => rfl
  | cons ref rest ih => rw [resolveList, ih, List.map_cons]

/-- What is below the type of a reference comes from below the reference. -/
theorem forall_children_resolve {r : Registry} {bound : Bindings} {P : Ty → Prop} {ref : TypeRef}
    (href : ref.isComposite = true) (h : ∀ c ∈ ref.children, P (c.resolve r bound)) :
    ∀ t ∈ (ref.resolve r bound).children, P t := by
  have hmap := List.forall_mem_map.2 h
  cases ref with
  | builtin | generic | standard => cases href
  | record names params =>
    rw [resolve, resolveList_eq_map]
    exact List.forall_mem_map.2 fun item hitem => hmap _ (List.of_mem_zip hitem).2
  | _ => simpa [resolve, children, Ty.children, resolveList_eq_map] using hmap

theorem resolve_eq_of_children {r r' : Registry} {bound bound' : Bindings} {ref : TypeRef}
    (href : ref.isComposite = true)
    (h : ∀ c ∈ ref.children, c.resolve r bound = c.resolve r' bound') :
    ref.resolve r bound = ref.resolve r' bound' := by
  cases ref with
  | builtin | generic | standard => cases href
  | tuple params | record _ params =>
    have hparams : params.map (resolve r bound) = params.map (resolve r' bound') :=
      List.map_congr_left h
    rw [resolve, resolve, resolveList_eq_map, resolveList_eq_map, hparams]
  | function _ params ret =>
    obtain ⟨hparams, hret⟩ := List.forall_mem_append.1 h
    rw [resolve, resolve, resolveList_eq_map, resolveList_eq_map, List.map_congr_left hparams,
      hret ret List.mem_cons_self]
  | array | option | result => simp_all [resolve, children]

/-- What is free in a reference comes from the types of its generic parameters. -/
theorem free_resolve_subset {r : Registry} {bound : Bindings} {names : List String}
    (hbound : bound.All fun _ t => t.free ⊆ names) (ref : TypeRef) :
    (ref.resolve r bound).free ⊆ names := by
  induction ref using names_induction with
  | builtin name =>
    rw [resolve]
    split <;> exact List.nil_subset _
  | generic name =>
    rw [resolve]
    cases hname : bound.get? name with
    | none => exact List.nil_subset _
    | some t => exact hbound.get? hname
  | standard module name args ih =>
    rw [resolve]
    split
    · exact List.nil_subset _
    · split
      · exact List.nil_subset _
      · rw [Ty.free, Ty.freeOfList_eq, resolveList_eq_map, List.flatMap_map]
        intro free hfree
        obtain ⟨arg, harg, hfree⟩ := List.mem_flatMap.1 hfree
        exact ih arg harg hfree
  | composite ref href ih =>
    have hplaceholder : ∀ name, ref.resolve r bound ≠ .placeholder name := by
      cases ref with
      | builtin | generic | standard => cases href
      | _ => simp [resolve]
    intro free hfree
    obtain ⟨t, ht, hfree⟩ := List.mem_flatMap.1 (Ty.free_subset hplaceholder hfree)
    exact forall_children_resolve (P := fun t => t.free ⊆ names) href ih t ht hfree

/-- A reference under closed types is closed. -/
theorem closed_resolve {r : Registry} {bound : Bindings} (hbound : bound.All fun _ t => t.Closed)
    (ref : TypeRef) : (ref.resolve r bound).Closed :=
  List.eq_nil_of_subset_nil
    (free_resolve_subset (fun entry hentry => List.subset_nil.2 (hbound entry hentry)) ref)

end TypeRef

/-- The generic parameters of a library function are bound in its type. -/
theorem Registry.closed_functionType (r : Registry) (f : Library.FunctionInfo) :
    (r.functionType f).Closed := by
  have hbound : (selfBindings f.generics).All fun _ t => t.free ⊆ f.generics := by
    refine .ofList fun p hp => ?_
    obtain ⟨g, hg, rfl⟩ := List.mem_map.1 hp
    exact List.cons_subset.2 ⟨hg, List.nil_subset _⟩
  rw [functionType, Ty.Closed, Ty.free_function, List.filter_eq_nil_iff]
  intro name hname
  obtain ⟨t, ht, hfree⟩ := List.mem_flatMap.1 hname
  simp only [Ty.children, paramTypes, List.map_map, List.mem_append, List.mem_map,
    List.mem_singleton] at ht
  have hmem : name ∈ f.generics := by
    rcases ht with ⟨p, -, rfl⟩ | rfl
    · exact TypeRef.free_resolve_subset hbound p.type hfree
    · exact TypeRef.free_resolve_subset hbound f.result hfree
  simp [hmem]

/-- Every type name of the view stands for a rigid type. -/
def View.Rigid (v : View) : Prop := ∀ name t, v.type? none name = some t → t.Rigid

theorem View.Rigid.type? {v : View} (hv : v.Rigid) {scope : Option String} {name : String} {t : Ty}
    (h : v.type? scope name = some t) : t.Rigid := by
  obtain h | ⟨q, rfl⟩ := View.type?_or_named h
  · exact hv name t h
  · rfl

theorem Table.isSome_get?_ofList {κ α : Type} [DecidableEq κ] {key : κ} {pairs : List (κ × α)}
    (h : key ∈ pairs.map Prod.fst) : ((ofList pairs).get? key).isSome := by
  suffices hfold : ∀ (pairs : List (κ × α)) (t : Table κ α),
      key ∈ pairs.map Prod.fst ∨ (t.get? key).isSome →
      ((pairs.foldl (fun t p => t.insert p.1 p.2) t).get? key).isSome from
    hfold pairs _ (Or.inl h)
  intro pairs
  induction pairs with
  | nil => exact fun _ h => h.resolve_left List.not_mem_nil
  | cons p rest ih =>
    intro t h
    refine ih _ ?_
    rw [get?_insert]
    split
    · exact Or.inr rfl
    · rename_i hp
      exact h.imp_left fun h => (List.mem_cons.1 h).resolve_left hp

/-- A name with as many arguments as it takes leaves nothing open. -/
theorem Ty.rigid_fillPositional {r : Registry} {args : List Ty} (hargs : ∀ t ∈ args, t.Rigid)
    {t : Ty} (ht : t.Rigid) (hlength : (t.genericNames r).length = args.length) :
    (t.fillPositional r args).Rigid := by
  rw [fillPositional]
  split
  · exact ht
  · rename_i hnames
    obtain ⟨q, rfl⟩ := ht.exists_named (by simpa using hnames)
    simp only [fill]
    split
    · refine rigid_iff.2 ⟨by simp, by simp, fun c hc => ?_⟩
      obtain ⟨name, hname, rfl⟩ := List.mem_map.1 hc
      have hbound : (Table.ofList (((named q).genericNames r).zip args)).All fun _ t => t.Rigid :=
        .ofList fun p hp => hargs _ (List.of_mem_zip hp).2
      have hkey : name ∈ (((named q).genericNames r).zip args).map Prod.fst := by
        rwa [List.map_fst_zip hlength.le]
      obtain ⟨arg, harg⟩ := Option.isSome_iff_exists.1 (Table.isSome_get?_ofList hkey)
      rw [harg]
      exact hbound.get? harg
    · exact ht

namespace TypeSpec

variable {v : View}

/-- An annotation resolves to a rigid type. -/
theorem rigid_resolve (hv : v.Rigid) (spec : TypeSpec) : (spec.resolve v).Rigid := by
  induction spec using names_induction with
  | named range scope name args ih =>
    have hargs : ∀ t ∈ resolveList v args, t.Rigid := by
      rw [resolveList_eq_map]
      exact List.forall_mem_map.2 ih
    rw [resolve]
    cases hbase : v.type? scope name with
    | none => rfl
    | some base =>
      dsimp only
      split
      · exact hv.type? hbase
      · split
        · rfl
        · rename_i hlength
          refine Ty.rigid_fillPositional hargs (hv.type? hbase) ?_
          rw [resolveList_eq_map, List.length_map]
          exact not_not.1 hlength
  | composite spec hspec ih =>
    refine Ty.rigid_iff.2 ⟨?_, ?_, ?_⟩
    · cases spec with
      | named => cases hspec
      | _ => simp [resolve]
    · cases spec with
      | named => cases hspec
      | _ => simp +contextual [resolve]
    · rw [children_resolve hspec]
      exact List.forall_mem_map.2 ih

end TypeSpec

end ScriptCheck
