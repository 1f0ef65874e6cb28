import ScriptCheck.Library.Decode
import ScriptCheck.Library.Encode
import ScriptCheck.Proofs.Decoders
import ScriptCheck.Proofs.JsonTexts
import ScriptCheck.Proofs.Tables

/-!
# Reading written library descriptions

The description of a module is read back from the value that it is written as, provided that its
member and operator tables are in the order of their names, as tables that were read are. There are
no numbers in such a value, so that its text is read back too as long as it does not nest too deep.
-/

namespace ScriptCheck

open Decoder

/-! ## Tables in order -/

/-- The keys of a table are in strictly ascending order. -/
def Table.Ordered {α : Type} (t : Table String α) : Prop :=
  (t.entries.map Prod.fst).Pairwise (· < ·)

instance {α : Type} (t : Table String α) : Decidable t.Ordered :=
  inferInstanceAs (Decidable (List.Pairwise _ _))

theorem Table.put_of_not_mem {κ α : Type} [DecidableEq κ] {key : κ} {value : α} :
    {entries : List (κ × α)} → key ∉ entries.map Prod.fst →
      put key value entries = entries ++ [(key, value)]
  | [], _ => rfl
  | (k, v) :: rest, h => by
    obtain ⟨hk, hrest⟩ := not_or.1 (mt List.mem_cons.2 h)
    rw [put, if_neg (Ne.symm hk), put_of_not_mem hrest, List.cons_append]

theorem Table.entries_ofList {κ α : Type} [DecidableEq κ] {pairs : List (κ × α)}
    (h : (pairs.map Prod.fst).Nodup) : (Table.ofList pairs).entries = pairs := by
  suffices hfold : ∀ (pairs : List (κ × α)) (t : Table κ α),
      ((t.entries ++ pairs).map Prod.fst).Nodup →
      (pairs.foldl (fun t p => t.insert p.1 p.2) t).entries = t.entries ++ pairs from
    hfold pairs Table.empty h
  intro pairs
  induction pairs with
  | nil => exact fun t _ => (List.append_nil _).symm
  | cons p rest ih =>
    intro t hnodup
    have hp : p.1 ∉ t.entries.map Prod.fst := by
      rw [List.map_append, List.map_cons, List.nodup_append] at hnodup
      exact fun hmem => hnodup.2.2 _ hmem _ List.mem_cons_self rfl
    have hinsert : (t.insert p.1 p.2).entries = t.entries ++ [p] := put_of_not_mem hp
    rw [List.foldl_cons, ih _ (by rw [hinsert]; simpa using hnodup), hinsert, List.append_assoc]
    rfl

theorem Table.Ordered.nodup {α : Type} {t : Table String α} (h : t.Ordered) :
    (t.entries.map Prod.fst).Nodup := by
  refine List.Pairwise.imp ?_ h
  rintro key _ hlt rfl
  exact String.lt_irrefl key hlt

theorem allMembers_map {α β : Type} {decode : Decoder α} {key : β → String} {write : β → Json}
    {read : β → α} {bs : List β} (h : ∀ b ∈ bs, decode (write b) = some (read b)) :
    allMembers decode (bs.map fun b => (key b, write b)) =
      some (bs.map fun b => (key b, read b)) := by
  induction bs with
  | nil => rfl
  | cons b bs ih =>
    obtain ⟨hb, hbs⟩ := List.forall_mem_cons.1 h
    rw [List.map_cons, allMembers, hb, ih hbs]
    rfl

theorem Table.Ordered.sorted_eq {α : Type} {t : Table String α} (h : t.Ordered) :
    t.sorted = t.entries := by
  refine List.mergeSort_of_pairwise ((List.pairwise_map.1 h).imp fun hlt => ?_)
  exact decide_eq_true (String.not_lt.1 (String.lt_asymm hlt))

/-- A table in order is read back. -/
theorem table_tableToJson {α : Type} {decode : Decoder α} {write : α → Json} {t : Table String α}
    (ht : t.Ordered) (h : ∀ entry ∈ t.entries, decode (write entry.2) = some entry.2) :
    table decode (Library.tableToJson write t) = some t := by
  have hentries : Table.ofList t.entries = t := congrArg Table.mk (Table.entries_ofList ht.nodup)
  rw [Library.tableToJson, table, allMembers_map h, Option.bind_eq_bind, Option.bind_some,
    List.map_id', hentries, ht.sorted_eq]
  rfl

/-! ## Type references -/

namespace TypeRef

mutual
theorem nested_toJson : ∀ (ref : TypeRef) (depth : Nat), ref.toJson.depth ≤ depth →
    nested ofJsonLevel depth ref.toJson = some ref
  | ref, 0, h => by cases ref <;> simp [toJson, Json.depth] at h
  | .builtin name, depth + 1, _ => by simp [toJson, nested, ofJsonLevel, kinds, ofJsonKind]
  | .generic name, depth + 1, _ => by simp [toJson, nested, ofJsonLevel, kinds, ofJsonKind]
  | .standard module name args, depth + 1, h => by
    cases args with
    | nil => simp [toJson, nested, ofJsonLevel, kinds, ofJsonKind]
    | cons arg args =>
      have hargs := nested_toJsonList (arg :: args) depth (by
        simp only [toJson, List.isEmpty_cons, Bool.false_eq_true, if_false, List.cons_append,
          List.nil_append, Json.depth, Json.depthMembers] at h
        omega)
      simp [toJson, nested, ofJsonLevel, kinds, ofJsonKind, hargs]
  | .array param, depth + 1, h | .option param, depth + 1, h => by
    have hparam := nested_toJson param depth (by
      simp only [toJson, Json.depth, Json.depthMembers] at h
      omega)
    simp [toJson, nested, ofJsonLevel, kinds, ofJsonKind, hparam]
  | .result ok err, depth + 1, h => by
    simp only [toJson, Json.depth, Json.depthMembers] at h
    have hok := nested_toJson ok depth (by omega)
    have herr := nested_toJson err depth (by omega)
    simp [toJson, nested, ofJsonLevel, kinds, ofJsonKind, hok, herr]
  | .tuple params, depth + 1, h => by
    have hparams := nested_toJsonList params depth (by
      simp only [toJson, Json.depth, Json.depthMembers] at h
      omega)
    simp [toJson, nested, ofJsonLevel, kinds, ofJsonKind, hparams]
  | .record names params, depth + 1, h => by
    have hnames : list Decoder.string (.strs names) = some names := list_map fun _ _ => rfl
    have hparams := nested_toJsonList params depth (by
      simp only [toJson, Json.depth, Json.depthMembers] at h
      omega)
    simp [toJson, nested, ofJsonLevel, kinds, ofJsonKind, hnames, hparams]
  | .function isAsync params ret, depth + 1, h => by
    simp only [toJson, Json.depth, Json.depthMembers] at h
    have hparams := nested_toJsonList params depth (by omega)
    have hret := nested_toJson ret depth (by omega)
    simp [toJson, nested, ofJsonLevel, kinds, ofJsonKind, hparams, hret]

theorem nested_toJsonList : ∀ (refs : List TypeRef) (depth : Nat),
    Json.depthItems (toJsonList refs) ≤ depth →
    list (nested ofJsonLevel depth) (.arr (toJsonList refs)) = some refs
  | [], _, _ => rfl
  | ref :: refs, depth, h => by
    rw [toJsonList, Json.depthItems] at h
    have href := nested_toJson ref depth (by omega)
    have hrefs : all (nested ofJsonLevel depth) (toJsonList refs) = some refs :=
      nested_toJsonList refs depth (by omega)
    rw [toJsonList, list, all, href, hrefs]
    rfl
end

theorem ofJson?_toJson (ref : TypeRef) : ofJson? ref.toJson = some ref :=
  nested_toJson ref _ (Nat.le_refl _)

end TypeRef

/-! ## Modules -/

namespace Library

/-- The tables of a type are in the order of their names. -/
structure TypeInfo.Ordered (t : TypeInfo) : Prop where
  fields : t.fields.Ordered
  methods : t.methods.Ordered
  prefixes : t.prefixOperators.Ordered
  suffixes : t.suffixOperators.Ordered

/-- The tables of all types of a module are in the order of their names. -/
def ModuleInfo.Ordered (m : ModuleInfo) : Prop := ∀ t ∈ m.types, t.Ordered

theorem list_strs (texts : List String) : list Decoder.string (.strs texts) = some texts :=
  list_map fun _ _ => rfl

theorem nullable_typeRef (ref? : Option TypeRef) :
    nullable TypeRef.ofJson? (.opt TypeRef.toJson ref?) = some ref? :=
  nullable_opt (fun ref _ => ref.ofJson?_toJson) fun ref _ => by cases ref <;> simp [TypeRef.toJson]

theorem ConstantInfo.ofJson?_toJson (c : ConstantInfo) : ofJson? c.toJson = some c := by
  simp [ofJson?, toJson, TypeRef.ofJson?_toJson]

theorem ParameterInfo.ofJson?_toJson (p : ParameterInfo) : ofJson? p.toJson = some p := by
  simp [ofJson?, toJson, TypeRef.ofJson?_toJson]

theorem list_parameter (params : List ParameterInfo) :
    list ParameterInfo.ofJson? (.arr (params.map ParameterInfo.toJson)) = some params :=
  list_map fun p _ => p.ofJson?_toJson

theorem FunctionInfo.ofJson?_toJson (f : FunctionInfo) : ofJson? f.toJson = some f := by
  simp [ofJson?, toJson, TypeRef.ofJson?_toJson, list_strs, list_parameter]

theorem FieldInfo.ofJson?_toJson (f : FieldInfo) : ofJson? f.toJson = some f := by
  simp [ofJson?, toJson, TypeRef.ofJson?_toJson]

theorem MethodInfo.ofJson?_toJson (m : MethodInfo) : ofJson? m.toJson = some m := by
  simp [ofJson?, toJson, TypeRef.ofJson?_toJson, list_strs, list_parameter]

theorem OverloadInfo.ofJson?_toJson (o : OverloadInfo) : ofJson? o.toJson = some o := by
  simp [ofJson?, toJson, TypeRef.ofJson?_toJson]

theorem overloadsOfJson?_overloadsToJson {t : Table String (List OverloadInfo)} (h : t.Ordered) :
    overloadsOfJson? (overloadsToJson t) = some t :=
  table_tableToJson h fun _ _ => list_map fun o _ => o.ofJson?_toJson

theorem TypeInfo.ofJson?_toJson {t : TypeInfo} (h : t.Ordered) : ofJson? t.toJson = some t := by
  -- Member by member, so that the object stays folded.
  have hname : member "name" string t.toJson = some t.name := by simp [toJson]
  have hdescription : memberD "description" string "" t.toJson = some t.description := by
    simp [toJson]
  have hgenerics : memberD "genericParameters" (list string) [] t.toJson = some t.generics := by
    simp [toJson, list_strs]
  have hfields : memberD "fields" (table FieldInfo.ofJson?) {} t.toJson = some t.fields := by
    simp [toJson, table_tableToJson h.fields fun entry _ => entry.2.ofJson?_toJson]
  have hmethods : memberD "methods" (table MethodInfo.ofJson?) {} t.toJson = some t.methods := by
    simp [toJson, table_tableToJson h.methods fun entry _ => entry.2.ofJson?_toJson]
  have hprefixes : memberD "prefixOperators" overloadsOfJson? {} t.toJson =
      some t.prefixOperators := by
    simp [toJson, overloadsOfJson?_overloadsToJson h.prefixes]
  have hsuffixes : memberD "suffixOperators" overloadsOfJson? {} t.toJson =
      some t.suffixOperators := by
    simp [toJson, overloadsOfJson?_overloadsToJson h.suffixes]
  have hsource : member? "forInSource" TypeRef.ofJson? t.toJson = some t.forInSource := by
    simp [toJson, nullable_typeRef]
  have hindex : member? "indexAccess" TypeRef.ofJson? t.toJson = some t.indexAccess := by
    simp [toJson, nullable_typeRef]
  have hassignable : memberD "assignableFrom" (list TypeRef.ofJson?) [] t.toJson =
      some t.assignableFrom := by
    simp [toJson, list_map fun ref _ => TypeRef.ofJson?_toJson ref]
  have hany : memberD "assignableFromAny" bool false t.toJson = some t.assignableFromAny := by
    simp [toJson]
  have hobject (keys : List String) (decode : Decoder TypeInfo) :
      keyed keys decode t.toJson = decode t.toJson := rfl
  rw [ofJson?, hobject, hname, hdescription, hgenerics, hfields, hmethods, hprefixes, hsuffixes,
    hsource, hindex, hassignable, hany]
  rfl

/-- How the name of a module is written inside its description. -/
inductive InnerName where
  | kept
  | empty
  | missing

/-- The description of a module with its name kept, left empty or left out. -/
def ModuleInfo.toJsonWith (m : ModuleInfo) : InnerName → Json
  | .kept => m.toJson
  | .empty => { m with name := "" }.toJson
  | .missing =>
    .obj
      [("description", .str m.description),
        ("constants", .arr (m.constants.map ConstantInfo.toJson)),
        ("functions", .arr (m.functions.map FunctionInfo.toJson)),
        ("types", .arr (m.types.map TypeInfo.toJson))]

/-- The name that is left of the name of a module. -/
def InnerName.of (name : String) : InnerName → String
  | .kept => name
  | .empty | .missing => ""

theorem ModuleInfo.ofJson?_toJsonWith {m : ModuleInfo} (h : m.Ordered) (inner : InnerName) :
    ofJson? (m.toJsonWith inner) = some { m with name := inner.of m.name } := by
  have hconstants : list ConstantInfo.ofJson? (.arr (m.constants.map ConstantInfo.toJson)) =
      some m.constants := list_map fun c _ => c.ofJson?_toJson
  have hfunctions : list FunctionInfo.ofJson? (.arr (m.functions.map FunctionInfo.toJson)) =
      some m.functions := list_map fun f _ => f.ofJson?_toJson
  have htypes : list TypeInfo.ofJson? (.arr (m.types.map TypeInfo.toJson)) = some m.types :=
    list_map fun t ht => TypeInfo.ofJson?_toJson (h t ht)
  cases inner <;>
    simp [ofJson?, toJsonWith, toJson, InnerName.of, hconstants, hfunctions, htypes]

end Library

/-! ## No numbers -/

theorem Json.numberlessItems_map {α : Type} {write : α → Json} {as : List α}
    (h : ∀ a ∈ as, (write a).numberless) : numberlessItems (as.map write) := by
  induction as with
  | nil => rfl
  | cons a as ih =>
    obtain ⟨ha, has⟩ := List.forall_mem_cons.1 h
    simp [numberlessItems, ha, ih has]

theorem Json.numberlessMembers_map {α : Type} {key : α → String} {write : α → Json} {as : List α}
    (h : ∀ a ∈ as, (write a).numberless) :
    numberlessMembers (as.map fun a => (key a, write a)) := by
  induction as with
  | nil => rfl
  | cons a as ih =>
    obtain ⟨ha, has⟩ := List.forall_mem_cons.1 h
    simp [numberlessMembers, ha, ih has]

theorem Json.numberless_strs (texts : List String) : (strs texts).numberless :=
  numberlessItems_map fun _ _ => rfl

theorem Json.numberless_opt {α : Type} {write : α → Json} {a? : Option α}
    (h : ∀ a ∈ a?, (write a).numberless) : (opt write a?).numberless := by
  cases a? with
  | none => rfl
  | some a => exact h a rfl

open Json

mutual
theorem TypeRef.numberless_toJson : ∀ ref : TypeRef, ref.toJson.numberless
  | .builtin _ | .generic _ => rfl
  | .standard module name args => by
    have hargs := numberless_toJsonList args
    cases args <;> simp [toJson, numberless, numberlessMembers, hargs]
  | .array param | .option param => by
    simp [toJson, numberless, numberlessMembers, numberless_toJson param]
  | .result ok err => by
    simp [toJson, numberless, numberlessMembers, numberless_toJson ok, numberless_toJson err]
  | .tuple params => by
    simp [toJson, numberless, numberlessMembers, numberless_toJsonList params]
  | .record names params => by
    simp [toJson, numberless, numberlessMembers, numberless_toJsonList params, numberless_strs]
  | .function isAsync params ret => by
    simp [toJson, numberless, numberlessMembers, numberless_toJsonList params,
      numberless_toJson ret]

theorem TypeRef.numberless_toJsonList : ∀ refs : List TypeRef, numberlessItems (toJsonList refs)
  | [] => rfl
  | ref :: refs => by
    simp [toJsonList, numberlessItems, numberless_toJson ref, numberless_toJsonList refs]
end

namespace Library

theorem numberless_tableToJson {α : Type} {write : α → Json} (t : Table String α)
    (h : ∀ a, (write a).numberless) : (tableToJson write t).numberless := by
  exact numberlessMembers_map fun entry _ => h entry.2

theorem ParameterInfo.numberless_toJson (p : ParameterInfo) : p.toJson.numberless := by
  simp [toJson, numberless, numberlessMembers, TypeRef.numberless_toJson]

theorem OverloadInfo.numberless_toJson (o : OverloadInfo) : o.toJson.numberless := by
  simp [toJson, numberless, numberlessMembers, TypeRef.numberless_toJson]

theorem numberless_params (params : List ParameterInfo) :
    numberlessItems (params.map ParameterInfo.toJson) :=
  numberlessItems_map fun p _ => p.numberless_toJson

theorem numberless_overloads (t : Table String (List OverloadInfo)) :
    (overloadsToJson t).numberless :=
  numberless_tableToJson t fun _ => numberlessItems_map fun o _ => o.numberless_toJson

theorem TypeInfo.numberless_toJson (t : TypeInfo) : t.toJson.numberless := by
  have hfields : (tableToJson FieldInfo.toJson t.fields).numberless :=
    numberless_tableToJson _ fun f => by
      simp [FieldInfo.toJson, numberless, numberlessMembers, TypeRef.numberless_toJson]
  have hmethods : (tableToJson MethodInfo.toJson t.methods).numberless :=
    numberless_tableToJson _ fun m => by
      simp [MethodInfo.toJson, numberless, numberlessMembers, TypeRef.numberless_toJson,
        numberless_params, numberless_strs]
  have hassignable : numberlessItems (t.assignableFrom.map TypeRef.toJson) :=
    numberlessItems_map fun ref _ => ref.numberless_toJson
  simp [toJson, numberless, numberlessMembers, numberless_strs, hfields, hmethods, hassignable,
    numberless_overloads, numberless_opt fun ref _ => TypeRef.numberless_toJson ref]

theorem ModuleInfo.numberless_toJsonWith (m : ModuleInfo) (inner : InnerName) :
    (m.toJsonWith inner).numberless := by
  have hconstants : numberlessItems (m.constants.map ConstantInfo.toJson) :=
    numberlessItems_map fun c _ => by
      simp [ConstantInfo.toJson, numberless, numberlessMembers, TypeRef.numberless_toJson]
  have hfunctions : numberlessItems (m.functions.map FunctionInfo.toJson) :=
    numberlessItems_map fun f _ => by
      simp [FunctionInfo.toJson, numberless, numberlessMembers, TypeRef.numberless_toJson,
        numberless_params, numberless_strs]
  have htypes : numberlessItems (m.types.map TypeInfo.toJson) :=
    numberlessItems_map fun t _ => t.numberless_toJson
  cases inner <;>
    simp [toJsonWith, toJson, numberless, numberlessMembers, hconstants, hfunctions, htypes]

end Library

end ScriptCheck
