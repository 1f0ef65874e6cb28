import Mathlib.Data.Nat.Digits.Lemmas
import ScriptCheck.Proofs.DeclareSteps

/-!
# Lists of members and lookup of members

The names that `fieldNames` and `methodNames` list are those that `field?` and `method?` answer to,
with one exception. A tuple reads the number in the name of an item, so that `_01` and `_+1` are
further spellings of `_1`; the list has only the spelling that `toString` writes
(`members_listed_iff_found`).

That a method of a struct is found at all rests on the first pass, which stores functions under the
names of methods and nothing else (`Symbols.Methodical`).
-/

namespace ScriptCheck

theorem mem_sortNames {name : String} {names : List String} :
    name ∈ sortNames names ↔ name ∈ names :=
  List.mem_mergeSort

theorem Table.isSome_get?_iff_mem_keys {κ α : Type} [DecidableEq κ] {t : Table κ α} {key : κ} :
    (t.get? key).isSome = true ↔ key ∈ t.keys :=
  contains_iff_mem_keys

/-! ## Items of tuples -/

theorem index?_eq_of_isDigit {text : List Char} (hne : text ≠ [])
    (hdigits : ∀ c ∈ text, c.isDigit = true) :
    index? text = some (Nat.ofDigitChars 10 text 0) := by
  have hall : text.all Char.isDigit = true := List.all_eq_true.2 hdigits
  have hnonempty : text.isEmpty = false := List.isEmpty_eq_false_iff.2 hne
  have hvalue : text.foldl (fun n c => n * 10 + (c.toNat - '0'.toNat)) 0 =
      Nat.ofDigitChars 10 text 0 := by
    simp only [Nat.ofDigitChars, Nat.mul_comm]
  have hsign : ∀ rest, text ≠ '+' :: rest := by
    rintro rest rfl
    exact absurd (hdigits '+' List.mem_cons_self) (by decide)
  rw [index?, hall, hnonempty, hvalue]
  · rfl
  · exact hsign

/-- Reading a number gives back the number that was written. -/
theorem index?_toString (n : Nat) : index? (toString n).toList = some n := by
  rw [Nat.toString_eq_repr, Nat.toList_repr, index?_eq_of_isDigit (Nat.toDigits_ne_nil)
    fun c hc => Nat.isDigit_of_mem_toDigits (by decide) (by decide) hc,
    Nat.ofDigitChars_toDigits (by decide) (by decide)]

namespace Ty

/-- The name that a list of fields has for the item at a position of a tuple. -/
def itemName (i : Nat) : String := "_" ++ toString (i + 1)

theorem tupleItem?_itemName (items : List Ty) (i : Nat) :
    tupleItem? items (itemName i) = items[i]? := by
  have htext : (itemName i).toList = '_' :: (toString (i + 1)).toList := by
    rw [itemName, String.toList_append]
    rfl
  rw [tupleItem?, htext]
  simp only [index?_toString]

theorem exists_item_of_tupleItem? {items : List Ty} {name : String} {t : Ty}
    (h : tupleItem? items name = some t) : ∃ i : Nat, items[i]? = some t := by
  unfold tupleItem? at h
  split at h
  · split at h
    · exact ⟨_, h⟩
    · cases h
  · cases h

end Ty

/-! ## Methods of structs -/

/-- The methods of all structs are functions. -/
def Symbols.Methodical (s : Symbols) : Prop :=
  s.structs.All fun _ info => info.methods.All fun _ value => value.ty.signature?.isSome = true

theorem Symbols.Methodical.methods {s : Symbols} (h : s.Methodical) (name : String) :
    ((s.structs.get? name).getD {}).methods.All fun _ v => v.ty.signature?.isSome = true :=
  Table.All.getD h .empty name

namespace Declare

theorem methodical_entry {xs : List Item} {phase : Phase} {s s' : Symbols}
    (hentry : Entry xs s phase s') (h : s.Methodical) : s'.Methodical := by
  cases hentry with
  | importedConstant | importedFunction | importedType | module | typeAlias | function
  | constant => exact h
  | struct => exact h.insert .empty
  | fields decl => exact h.insert (h.methods decl.name.name)
  | method block _ self _ decl => exact h.insert ((h.methods self.name).insert rfl)
  | operator _ _ self _ _ _ _ side =>
    refine h.insert ?_
    cases side <;> exact h.methods self.name

end Declare

theorem Script.methodical_declarations (registry : Registry) (script : Script) :
    (script.declarations registry).symbols.Methodical :=
  symbols_induction (I := Symbols.Methodical) .empty Declare.methodical_entry

namespace Symbols

variable {s : Symbols} {t : Ty} {name : String}

theorem Methodical.isSome_structMethod?_iff (h : s.Methodical) {struct : QName} {info : StructInfo}
    (hinfo : s.struct? struct = some info) :
    (structMethod? info name).isSome = true ↔ name ∈ info.methods.keys := by
  rw [← Table.isSome_get?_iff_mem_keys]
  have hstored : s.structs.get? struct.name = some info := by
    rw [struct?] at hinfo
    split at hinfo
    · exact hinfo
    · cases hinfo
  have hmethods := h.get? hstored
  cases hget : info.methods.get? name with
  | none => simp [structMethod?, hget]
  | some value =>
    obtain ⟨sig, hsig⟩ := Option.isSome_iff_exists.1 (hmethods.get? hget)
    simp [structMethod?, hget, hsig]

theorem isSome_libraryField?_iff : (s.libraryField? t name).isSome = true ↔
    name ∈ ((s.registry.infoOf? t).map fun info => info.fields.keys).getD [] := by
  cases hinfo : s.registry.infoOf? t with
  | none => simp [libraryField?, hinfo]
  | some info =>
    simp [libraryField?, hinfo, ← Table.isSome_get?_iff_mem_keys, Option.isSome_bind]

theorem isSome_libraryMethod?_iff : (s.libraryMethod? t name).isSome = true ↔
    name ∈ ((s.registry.infoOf? t).map fun info => info.methods.keys).getD [] := by
  cases hinfo : s.registry.infoOf? t with
  | none => simp [libraryMethod?, hinfo]
  | some info =>
    simp [libraryMethod?, hinfo, ← Table.isSome_get?_iff_mem_keys, Option.isSome_bind]

/-! ## Lists and lookup -/

theorem mem_fieldNames_tuple_iff {items : List Ty} :
    name ∈ s.fieldNames (.tuple items) ↔ ∃ i < items.length, name = Ty.itemName i := by
  simp [fieldNames, mem_sortNames, Ty.itemName, eq_comm]

/-- Except for the items of tuples, a field is listed if and only if it is found. -/
theorem mem_fieldNames_iff_of_not_tuple (ht : ∀ items, t ≠ .tuple items) :
    name ∈ s.fieldNames t ↔ (s.field? t name).isSome = true := by
  rw [fieldNames.eq_def, mem_sortNames]
  cases t with
  | array element => simp only [field?, Ty.arrayField?]; grind
  | option inner => simp only [field?, Ty.optionField?]; grind
  | result ok err => simp only [field?, Ty.resultField?]; grind
  | tuple items => exact absurd rfl (ht items)
  | record struct items =>
    simp only [field?]
    cases hinfo : s.structOf? (.record struct items) with
    | none => simp only [Option.isSome_map, Symbols.isSome_findItem?]
    | some info => simp only [structField?, Option.isSome_map, Symbols.isSome_findItem?]
  | named | applied => exact isSome_libraryField?_iff.symm
  | unknown | function | placeholder => simp [field?]

theorem Methodical.mem_methodNames_iff (h : s.Methodical) :
    name ∈ s.methodNames t ↔ (s.method? t name).isSome = true := by
  rw [methodNames.eq_def, mem_sortNames]
  cases t with
  | array element => simp only [method?, Ty.arrayMethod?]; grind
  | option inner => simp only [method?, Ty.optionMethod?]; grind
  | result ok err => simp only [method?, Ty.resultMethod?]; grind
  | record struct items =>
    simp only [method?]
    cases struct with
    | none => simp [structOf?]
    | some struct =>
      rw [structOf?]
      cases hinfo : s.struct? struct with
      | none => simp
      | some info => simp [h.isSome_structMethod?_iff hinfo]
  | named | applied => exact isSome_libraryMethod?_iff.symm
  | unknown | tuple | function | placeholder => simp [method?]

theorem isSome_field?_itemName {items : List Ty} {i : Nat} :
    (s.field? (.tuple items) (Ty.itemName i)).isSome = true ↔ i < items.length := by
  simp [field?, Ty.tupleItem?_itemName]

/-- Whatever field is found is also found under a name of the list. -/
theorem exists_listed_of_field? {f : FieldType} (hf : s.field? t name = some f) :
    ∃ listed ∈ s.fieldNames t, s.field? t listed = some f := by
  by_cases ht : ∃ items, t = .tuple items
  · obtain ⟨items, rfl⟩ := ht
    obtain ⟨ty, hty, rfl⟩ := Option.map_eq_some_iff.1 hf
    obtain ⟨i, hi⟩ := Ty.exists_item_of_tupleItem? hty
    have hlt : i < items.length := (List.getElem?_eq_some_iff.1 hi).1
    refine ⟨Ty.itemName i, mem_fieldNames_tuple_iff.2 ⟨i, hlt, rfl⟩, ?_⟩
    rw [field?, Ty.tupleItem?_itemName, hi, Option.map_some]
  · have hlisted : name ∈ s.fieldNames t ↔ (s.field? t name).isSome = true :=
      mem_fieldNames_iff_of_not_tuple fun items h => ht ⟨items, h⟩
    exact ⟨name, hlisted.2 (by rw [hf, Option.isSome_some]), hf⟩

end Symbols

/-- With the symbols of a script, a method is listed if and only if it is found. So is a field,
except that a tuple lists each item under one spelling of its number and finds it under others; what
is found under any name is found under a listed one. -/
theorem members_listed_iff_found (registry : Registry) (script : Script) (t : Ty) (n : String) :
    let s := (script.declarations registry).symbols
    (n ∈ s.fieldNames t ↔ (s.field? t n).isSome = true ∧
      ∀ items, t = .tuple items → ∃ i, n = Ty.itemName i) ∧
    (∀ f, s.field? t n = some f → ∃ listed ∈ s.fieldNames t, s.field? t listed = some f) ∧
    (n ∈ s.methodNames t ↔ (s.method? t n).isSome = true) := by
  intro s
  refine ⟨?_, fun f hf => Symbols.exists_listed_of_field? hf,
    (script.methodical_declarations registry).mem_methodNames_iff⟩
  by_cases ht : ∃ items, t = .tuple items
  · obtain ⟨items, rfl⟩ := ht
    rw [Symbols.mem_fieldNames_tuple_iff]
    constructor
    · rintro ⟨i, hi, rfl⟩
      exact ⟨Symbols.isSome_field?_itemName.2 hi, fun _ _ => ⟨i, rfl⟩⟩
    · rintro ⟨hfound, hname⟩
      obtain ⟨i, rfl⟩ := hname items rfl
      exact ⟨i, Symbols.isSome_field?_itemName.1 hfound, rfl⟩
  · rw [Symbols.mem_fieldNames_iff_of_not_tuple fun items h => ht ⟨items, h⟩]
    exact ⟨fun hfound => ⟨hfound, fun items h => absurd ⟨items, h⟩ ht⟩, And.left⟩

/-- A tuple has an item under the name `_01` that its list of fields does not have. -/
theorem tuple_item_found_unlisted :
    let s := (Script.declarations {} { name := "probe", items := [] }).symbols
    let t := Ty.tuple [.int, .string]
    (s.field? t "_01").isSome = true ∧ "_01" ∉ s.fieldNames t := by
  refine ⟨rfl, fun hlisted => ?_⟩
  obtain ⟨i, hi, hname⟩ := Symbols.mem_fieldNames_tuple_iff.1 hlisted
  have hother : ∀ i < 2, "_01" ≠ Ty.itemName i := by decide
  exact hother i hi hname

end ScriptCheck
