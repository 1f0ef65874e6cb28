import ScriptCheck.Proofs.Tables
import ScriptCheck.Proofs.TypeParts
import ScriptCheck.Ty.Members

/-!
# Where members come from

A field is looked up in one of three places: in the type itself, in the struct that it stands for,
or in its description in the library (`Symbols.FieldSource`). What holds of everything that can be
found in these places holds of what is found. The operators of either side and the elements of loops
and of index access are looked up alike (`Symbols.operatorSource`, `Symbols.elementSource`).
-/

namespace ScriptCheck.Symbols

theorem item_mem_of_findItem? {name : String} {t : Ty} :
    {items : List (String × Ty)} → findItem? name items = some t → (name, t) ∈ items
  | [], h => by simp [findItem?] at h
  | (n, u) :: rest, h => by
    rw [findItem?] at h
    split at h
    · rename_i hname
      rw [← hname, Option.some.inj h]
      exact List.mem_cons_self
    · exact List.mem_cons_of_mem _ (item_mem_of_findItem? h)

theorem mem_of_findItem? {name : String} {t : Ty} {items : List (String × Ty)}
    (h : findItem? name items = some t) : t ∈ items.map Prod.snd :=
  List.mem_map_of_mem (item_mem_of_findItem? h)

theorem isSome_findItem? {name : String} : {items : List (String × Ty)} →
    ((findItem? name items).isSome = true ↔ name ∈ items.map Prod.fst)
  | [] => by simp [findItem?]
  | (n, t) :: rest => by
    rw [findItem?, List.map_cons, List.mem_cons, ← isSome_findItem?]
    by_cases h : n = name
    · simp [h]
    · simp [h, Ne.symm h]

variable {s : Symbols} {t : Ty}

/-- A struct that a type stands for is one of the structs. -/
theorem all_structOf? {P : StructInfo → Prop} (h : s.structs.All fun _ info => P info)
    {info : StructInfo} (hinfo : s.structOf? t = some info) : P info := by
  unfold structOf? struct? at hinfo
  split at hinfo
  · split at hinfo
    · exact h.get? hinfo
    · cases hinfo
  · cases hinfo

/-- Where a field of a type comes from. Only the fields of structs have definitions. -/
inductive FieldSource (s : Symbols) (t : Ty) (name : String) (found : FieldType) : Prop
  | fixed (hty : found.ty = .int ∨ found.ty = .bool) (hnone : found.definition = none)
  | part (hfunction : t.isFunction = false) (hty : found.ty ∈ t.children)
      (hnone : found.definition = none)
  | struct {info : StructInfo} (hinfo : s.structOf? t = some info)
      (hty : (name, found.ty) ∈ info.fields)
      (hdefinition : found.definition = info.fieldDefinitions.get? name)
  | library {info : Library.TypeInfo} {field : Library.FieldInfo}
      (hinfo : s.registry.infoOf? t = some info) (hfield : info.fields.get? name = some field)
      (hty : found.ty = field.type.resolve s.registry (s.typeBindings t))
      (hnone : found.definition = none)

theorem fieldSource {name : String} {found : FieldType} (h : s.field? t name = some found) :
    FieldSource s t name found := by
  cases t with
  | unknown | function | placeholder => cases h
  | array =>
    simp only [field?, Ty.arrayField?] at h
    split_ifs at h <;> cases h
    · exact .fixed (.inl rfl) rfl
    · exact .fixed (.inr rfl) rfl
  | option | result =>
    simp only [field?, Ty.optionField?, Ty.resultField?] at h
    split_ifs at h <;> cases h
    · exact .fixed (.inr rfl) rfl
    all_goals exact .part rfl (by simp [Ty.children]) rfl
  | tuple items =>
    obtain ⟨item, hitem, rfl⟩ := Option.map_eq_some_iff.1 h
    unfold Ty.tupleItem? at hitem
    split at hitem
    · split at hitem
      · exact .part rfl (List.mem_of_getElem? hitem) rfl
      · cases hitem
    · cases hitem
  | record structName items =>
    simp only [field?] at h
    split at h
    · rename_i info hinfo
      obtain ⟨ty, hty, rfl⟩ := Option.map_eq_some_iff.1 h
      exact .struct hinfo (item_mem_of_findItem? hty) rfl
    · obtain ⟨ty, hty, rfl⟩ := Option.map_eq_some_iff.1 h
      exact .part rfl (mem_of_findItem? hty) rfl
  | named | applied =>
    simp only [field?, libraryField?, Option.bind_eq_bind, Option.bind_eq_some_iff, pure,
      Option.some.injEq] at h
    obtain ⟨info, hinfo, field, hfield, rfl⟩ := h
    exact .library hinfo hfield rfl rfl

/-- A method of a record is a function of the struct that the record is. -/
theorem exists_of_recordMethod {struct : Option QName} {items : List (String × Ty)} {name : String}
    {found : MethodType} (h : s.method? (.record struct items) name = some found) :
    ∃ info value, s.structOf? (.record struct items) = some info ∧
      info.methods.get? name = some value ∧ value.ty = .function found.signature ∧
      value.definition = found.definition := by
  obtain ⟨info, hinfo, hmethod⟩ := Option.bind_eq_some_iff.1 h
  simp only [structMethod?, Option.bind_eq_bind, Option.bind_eq_some_iff, pure,
    Option.some.injEq] at hmethod
  obtain ⟨value, hvalue, signature, hsignature, rfl⟩ := hmethod
  refine ⟨info, value, hinfo, hvalue, ?_, rfl⟩
  generalize value.ty = ty at hsignature ⊢
  cases ty with
  | function => rw [← Option.some.inj hsignature]
  | _ => cases hsignature

/-! ## Operators and elements -/

variable {own : StructInfo → Table Operator (List Overload)}
  {library : Library.TypeInfo → Table String (List Library.OverloadInfo)}

theorem pick?_eq_find? (overloads : List Overload) (other : Ty) :
    s.pick? overloads other = overloads.find? fun o =>
      o.other.isUnit == other.isUnit && s.accepts o.other other := by
  induction overloads with
  | nil => rfl
  | cons o rest ih =>
    rw [List.find?_cons, ← ih, pick?, Overload.pickWith, Overload.takenWith]
    cases o.other.isUnit == other.isUnit with
    | false => rfl
    | true => cases s.accepts o.other other <;> rfl

/-- Where an operator of a type comes from. -/
inductive OperatorSource (own : StructInfo → Table Operator (List Overload))
    (library : Library.TypeInfo → Table String (List Library.OverloadInfo)) (s : Symbols) (t : Ty)
    (op : Operator) (found : Overload) : Prop
  | struct {info : StructInfo} {os : List Overload} (hinfo : s.structOf? t = some info)
      (hos : (own info).get? op = some os) (hfound : found ∈ os)
  | library {info : Library.TypeInfo} {os : List Library.OverloadInfo} {o : Library.OverloadInfo}
      (hinfo : s.registry.infoOf? t = some info) (hos : (library info).get? op.symbol = some os)
      (ho : o ∈ os) (hresult : found.result = o.result.resolve s.registry (s.typeBindings t))

theorem operatorSource {op : Operator} {other : Ty} {found : Overload}
    (h : s.pick? (s.overloadsIn own library t op) other = some found) :
    OperatorSource own library s t op found := by
  rw [pick?_eq_find?] at h
  have hmem := List.mem_of_find?_eq_some h
  unfold overloadsIn at hmem
  split at hmem
  · rename_i info hinfo
    cases hos : (own info).get? op with
    | none => simp [hos] at hmem
    | some os => exact .struct hinfo hos (by simpa [hos] using hmem)
  · split at hmem
    · rename_i info hinfo
      cases hos : (library info).get? op.symbol with
      | none => simp [hos, libraryOverloads] at hmem
      | some os =>
        rw [hos] at hmem
        obtain ⟨o, ho, rfl⟩ := List.mem_map.1 hmem
        exact .library hinfo hos ho rfl
    · cases hmem

theorem elementSource {source : Library.TypeInfo → Option TypeRef} {found : Ty}
    (h : s.elementIn? source t = some found) : t = .array found ∨ ∃ info ref,
      s.registry.infoOf? t = some info ∧ source info = some ref ∧
        found = ref.resolve s.registry (s.typeBindings t) := by
  unfold elementIn? at h
  split at h
  · exact .inl (by rw [Option.some.inj h])
  · simp only [Option.bind_eq_bind, Option.bind_eq_some_iff, pure, Option.some.injEq] at h
    obtain ⟨info, hinfo, ref, href, rfl⟩ := h
    exact .inr ⟨info, ref, hinfo, href, rfl⟩

end ScriptCheck.Symbols
