import ScriptCheck.Proofs.ClosedTypes

/-!
# Lookup in closed symbols

Symbols are closed if all their constants and functions have closed types and all their type names
and fields rigid ones. What a lookup finds in closed symbols is closed, provided that the type it
starts from is.
-/

namespace ScriptCheck

/-- Fields of rigid types and operators with closed results. Methods do not matter: what is open in
the result of a call becomes unknown. -/
structure StructInfo.Closed (info : StructInfo) : Prop where
  fields : ∀ item ∈ info.fields, item.2.Rigid
  prefixOperators : info.prefixOperators.All fun _ overloads => ∀ o ∈ overloads, o.result.Closed
  suffixOperators : info.suffixOperators.All fun _ overloads => ∀ o ∈ overloads, o.result.Closed

theorem StructInfo.Closed.empty : StructInfo.Closed {} := ⟨nofun, .empty, .empty⟩

/-- Constants and functions of closed types, type names and structs of rigid ones. -/
structure Symbols.Closed (s : Symbols) : Prop where
  constants : s.constants.All fun _ value => value.ty.Closed
  functions : s.functions.All fun _ value => value.ty.Closed
  types : s.types.All fun _ found => found.ty.Rigid
  structs : s.structs.All fun _ info => info.Closed

/-! ## Constructor functions -/

/-- Without a hint, the generic parameters of a constructor function are bound in its type. -/
theorem closed_constructor? {name : String} {t : Ty} (h : constructor? name none = some t) :
    t.Closed := by
  unfold constructor? at h
  dsimp only at h
  split_ifs at h
  all_goals
    obtain rfl := Option.some.inj h
    decide

namespace Symbols.Closed

variable {s : Symbols} {t : Ty}

/-! ## Names -/

theorem info (h : s.Closed) (name : String) : ((s.structs.get? name).getD {}).Closed :=
  h.structs.getD .empty name

theorem structOf? (h : s.Closed) {info : StructInfo} (hinfo : s.structOf? t = some info) :
    info.Closed :=
  all_structOf? h.structs hinfo

/-- Every type name in a view of closed symbols stands for a rigid type. -/
theorem view (h : s.Closed) {self : Option SelfType} (hself : ∀ t ∈ self, t.ty.Rigid) :
    View.Rigid { symbols := s, self } := by
  intro name t ht
  obtain ⟨t, hmem, rfl⟩ | ⟨found, hfound, rfl⟩ | ⟨q, rfl⟩ := View.type?_none ht
  · exact hself t hmem
  · exact h.types.get? hfound
  · rfl

theorem root (h : s.Closed) : View.Rigid { symbols := s } := h.view nofun

theorem selfOf? (h : s.Closed) (name : String) : ∀ t ∈ Symbols.selfOf? s name, t.ty.Rigid := by
  intro t ht
  obtain ⟨found, hfound, -, rfl⟩ := Declare.exists_of_selfOf? ht
  exact h.types.get? hfound

theorem constant? (h : s.Closed) {scope : Option String} {name : String} {value : Value}
    (hvalue : s.constant? scope name = some value) : value.ty.Closed := by
  cases scope with
  | none => exact h.constants.get? hvalue
  | some module =>
    simp only [Symbols.constant?, Option.bind_eq_bind, Option.bind_eq_some_iff, pure,
      Option.some.injEq] at hvalue
    obtain ⟨_, _, info, _, rfl⟩ := hvalue
    exact TypeRef.closed_resolve .empty info.type

theorem function? (h : s.Closed) {scope : Option String} {name : String} {value : Value}
    (hvalue : s.function? scope name none = some value) : value.ty.Closed := by
  cases scope with
  | none =>
    simp only [Symbols.function?, Option.bind_none, Option.map_none] at hvalue
    split at hvalue
    · rename_i t ht
      obtain rfl := Option.some.inj hvalue
      exact closed_constructor? ht
    · exact h.functions.get? hvalue
  | some module =>
    simp only [Symbols.function?, Option.bind_eq_bind, Option.bind_eq_some_iff, pure,
      Option.some.injEq] at hvalue
    obtain ⟨_, _, info, _, rfl⟩ := hvalue
    exact s.registry.closed_functionType info

/-! ## Members and operators -/

theorem typeBindings (ht : t.Closed) : (s.typeBindings t).All fun _ t => t.Closed := by
  unfold Symbols.typeBindings
  split
  · split
    · exact .ofList fun p hp => ht.child rfl (List.of_mem_zip hp).2
    · exact .empty
  · exact .empty

theorem field? (h : s.Closed) (ht : t.Closed) {name : String} {found : FieldType}
    (hfound : s.field? t name = some found) : found.ty.Closed := by
  cases fieldSource hfound with
  | fixed hty => obtain hty | hty := hty <;> rw [hty] <;> rfl
  | part hfunction hty => exact ht.child hfunction hty
  | struct hinfo hty => exact ((h.structOf? hinfo).fields _ hty).closed
  | library _ _ hty => exact hty ▸ TypeRef.closed_resolve (typeBindings ht) _

theorem pick? (h : s.Closed) (ht : t.Closed)
    {own : StructInfo → Table Operator (List Overload)}
    (hown : ∀ info : StructInfo, info.Closed →
      (own info).All fun _ overloads => ∀ o ∈ overloads, o.result.Closed)
    {library : Library.TypeInfo → Table String (List Library.OverloadInfo)} {op : Operator}
    {other : Ty} {found : Overload}
    (hfound : s.pick? (s.overloadsIn own library t op) other = some found) :
    found.result.Closed := by
  cases operatorSource hfound with
  | struct hinfo hos hmem => exact (hown _ (h.structOf? hinfo)).get? hos _ hmem
  | library _ _ _ hresult => exact hresult ▸ TypeRef.closed_resolve (typeBindings ht) _

theorem suffixOperator? (h : s.Closed) (ht : t.Closed) {op : Operator} {right : Ty}
    {found : Overload} (hfound : s.suffixOperator? t op right = some found) :
    found.result.Closed :=
  h.pick? ht (fun _ hinfo => hinfo.suffixOperators) hfound

theorem prefixOperator? (h : s.Closed) (ht : t.Closed) {op : Operator} {left : Ty}
    {found : Overload} (hfound : s.prefixOperator? t op left = some found) :
    found.result.Closed :=
  h.pick? ht (fun _ hinfo => hinfo.prefixOperators) hfound

/-- The type of the elements, for loops or for index access. -/
theorem elementIn? (ht : t.Closed) {source : Library.TypeInfo → Option TypeRef} {found : Ty}
    (h : s.elementIn? source t = some found) : found.Closed := by
  obtain rfl | ⟨_, ref, _, _, rfl⟩ := elementSource h
  · exact ht.child rfl (by simp [Ty.children])
  · exact TypeRef.closed_resolve (typeBindings ht) ref

end Symbols.Closed

/-! ## Plain names -/

/-- All local variables have closed types. -/
def Scopes.Closed (s : Scopes) : Prop :=
  ∀ scope ∈ s.scopes, scope.locals.All fun _ value => value.ty.Closed

instance (s : Scopes) : Decidable s.Closed :=
  inferInstanceAs (Decidable (∀ scope ∈ s.scopes, ∀ entry ∈ scope.locals.entries, _ = []))

end ScriptCheck
