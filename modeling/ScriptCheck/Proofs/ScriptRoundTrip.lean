import ScriptCheck.Proofs.ScriptCodec

/-!
# Scripts survive writing and reading

`script_read_back` is the round trip for whole scripts: a script whose numbers fit is read back from
the value that it is written as, and so is every script that was read from some value.
-/

namespace ScriptCheck

open Decoder

/-! ## Items whose numbers fit -/

/-- The ranges in an import fit. -/
def Import.Fits : Import → Prop
  | .module shortName => ∀ name ∈ shortName, name.Fits
  | .names idents => ∀ name ∈ idents, name.Fits
  | .all => True

/-- All numbers in an import fit. -/
structure UseDecl.Fits (d : UseDecl) : Prop where
  module : d.module.Fits
  imports : d.imports.Fits
  range : d.range.Fits

/-- All numbers in a constant fit. -/
structure ConstDecl.Fits (d : ConstDecl) : Prop where
  name : d.name.Fits
  type : ∀ spec ∈ d.type, spec.Fits
  value : d.value.Fits
  range : d.range.Fits

/-- All numbers in a parameter fit. -/
structure ParamDecl.Fits (d : ParamDecl) : Prop where
  name : d.name.Fits
  type : ∀ spec ∈ d.type, spec.Fits
  default : ∀ value ∈ d.default, value.Fits

/-- All numbers in a function fit. -/
structure FunctionDecl.Fits (d : FunctionDecl) : Prop where
  name : d.name.Fits
  params : ∀ p ∈ d.params, p.Fits
  result : d.result.Fits
  body : d.body.Fits
  range : d.range.Fits

/-- All numbers in a field fit. -/
structure FieldDecl.Fits (d : FieldDecl) : Prop where
  name : d.name.Fits
  type : d.type.Fits
  default : ∀ value ∈ d.default, value.Fits

/-- All numbers in a struct fit. -/
structure StructDecl.Fits (d : StructDecl) : Prop where
  name : d.name.Fits
  fields : ∀ field ∈ d.fields, field.Fits
  range : d.range.Fits

/-- All numbers in a type alias fit. -/
structure AliasDecl.Fits (d : AliasDecl) : Prop where
  name : d.name.Fits
  type : d.type.Fits
  range : d.range.Fits

/-- All numbers in a block of functions fit. -/
structure ImplDecl.Fits (d : ImplDecl) : Prop where
  name : d.name.Fits
  functions : ∀ f ∈ d.functions, f.Fits
  range : d.range.Fits

/-- All numbers in an item fit. -/
def Item.Fits : Item → Prop
  | .use d => d.Fits
  | .const d => d.Fits
  | .function d => d.Fits
  | .struct d => d.Fits
  | .typeAlias d => d.Fits
  | .methods d | .operators d => d.Fits

/-- The numbers of all positions in a script have 32 bits and its integer literals 64 bits. -/
def Script.Fits (s : Script) : Prop := ∀ item ∈ s.items, item.Fits

/-! ## Reading back -/

theorem list_ident {names : List Ident} (h : ∀ name ∈ names, name.Fits) :
    list Ident.ofJson? (.arr (names.map Ident.toJson)) = some names :=
  list_map fun name hname => Ident.ofJson?_toJson (h name hname)

theorem nullable_expr {e? : Option Expr} (h : ∀ e ∈ e?, e.Fits) :
    nullable Expr.ofJson? (.opt Expr.toJson e?) = some e? :=
  nullable_opt (fun e he => Expr.ofJson?_toJson (h e he)) fun e _ => e.toJson_ne_null

theorem Import.ofJson?_toJson {i : Import} (h : i.Fits) : ofJson? i.toJson = some i := by
  cases i with
  | module shortName =>
    rw [ofJson?, toJson, node_kind (by decide) rfl, Option.bind_eq_bind, Option.bind_some]
    simp [nullable_ident h]
  | names names =>
    rw [ofJson?, toJson, node_kind (by decide) rfl, Option.bind_eq_bind, Option.bind_some]
    simp [list_ident h]
  | all => rfl

theorem ParamDecl.ofJson?_toJson {d : ParamDecl} (h : d.Fits) : ofJson? d.toJson = some d := by
  simp [ofJson?, toJson, Ident.ofJson?_toJson h.name, nullable_typeSpec h.type,
    nullable_expr h.default]

theorem FieldDecl.ofJson?_toJson {d : FieldDecl} (h : d.Fits) : ofJson? d.toJson = some d := by
  simp [ofJson?, toJson, Ident.ofJson?_toJson h.name, TypeSpec.ofJson?_toJson h.type,
    nullable_expr h.default]

/-- A function is read back with or without its form in front of its members. -/
theorem FunctionDecl.ofJson?_members {d : FunctionDecl} (h : d.Fits) {front : List (String × Json)}
    (hfront : front = [] ∨ front = [("kind", .str "Function")]) :
    ofJson? (.obj (front ++ d.members ++ [("range", d.range.toJson)])) = some d := by
  have hparams : list ParamDecl.ofJson? (.arr (d.params.map ParamDecl.toJson)) = some d.params :=
    list_map fun p hp => ParamDecl.ofJson?_toJson (h.params p hp)
  obtain rfl | rfl := hfront <;>
    simp [ofJson?, members, Ident.ofJson?_toJson h.name, hparams, TypeSpec.ofJson?_toJson h.result,
      Expr.ofJson?_toJson h.body, Range.ofJson?_toJson h.range]

theorem FunctionDecl.ofJson?_toJson {d : FunctionDecl} (h : d.Fits) :
    ofJson? d.toJson = some d := by
  rw [toJson, ← List.nil_append d.members]
  exact ofJson?_members h (.inl rfl)

theorem list_function {functions : List FunctionDecl} (h : ∀ f ∈ functions, f.Fits) :
    list FunctionDecl.ofJson? (.arr (functions.map FunctionDecl.toJson)) = some functions :=
  list_map fun f hf => FunctionDecl.ofJson?_toJson (h f hf)

theorem node_form {kinds : List String} {kind : String} {r : Range}
    {members : List (String × Json)} (hkind : kind ∈ kinds)
    (hmembers : Json.find? "kind" (members ++ [("range", r.toJson)]) = none) :
    node (formName kinds) (.node kind r members) = some (kind, .node kind r members) := by
  simp [Json.node, hkind, hmembers]

theorem Item.ofJson?_toJson {item : Item} (h : item.Fits) : ofJson? item.toJson = some item := by
  cases item with
  | use d =>
    rw [ofJson?, toJson, node_form (by decide) (by simp), Option.bind_eq_bind, Option.bind_some]
    simp [UseDecl.ofJson?, Json.node, Ident.ofJson?_toJson h.module,
      Import.ofJson?_toJson h.imports, Range.ofJson?_toJson h.range]
  | const d =>
    rw [ofJson?, toJson, node_form (by decide) (by simp), Option.bind_eq_bind, Option.bind_some]
    simp [ConstDecl.ofJson?, Json.node, Ident.ofJson?_toJson h.name, nullable_typeSpec h.type,
      Expr.ofJson?_toJson h.value, Range.ofJson?_toJson h.range]
  | function d =>
    have hnode : FunctionDecl.ofJson? (.node "Function" d.range d.members) = some d := by
      rw [Json.node, ← List.singleton_append]
      exact FunctionDecl.ofJson?_members h (.inr rfl)
    rw [ofJson?, toJson, node_form (by decide) (by simp [FunctionDecl.members]),
      Option.bind_eq_bind, Option.bind_some]
    simp [hnode]
  | struct d =>
    have hfields : list FieldDecl.ofJson? (.arr (d.fields.map FieldDecl.toJson)) = some d.fields :=
      list_map fun field hfield => FieldDecl.ofJson?_toJson (h.fields field hfield)
    rw [ofJson?, toJson, node_form (by decide) (by simp), Option.bind_eq_bind, Option.bind_some]
    simp [StructDecl.ofJson?, Json.node, Ident.ofJson?_toJson h.name, hfields,
      Range.ofJson?_toJson h.range]
  | typeAlias d =>
    rw [ofJson?, toJson, node_form (by decide) (by simp), Option.bind_eq_bind, Option.bind_some]
    simp [AliasDecl.ofJson?, Json.node, Ident.ofJson?_toJson h.name,
      TypeSpec.ofJson?_toJson h.type, Range.ofJson?_toJson h.range]
  | methods d | operators d =>
    rw [ofJson?, toJson, node_form (by decide) (by simp), Option.bind_eq_bind, Option.bind_some]
    simp [ImplDecl.ofJson?, Json.node, Ident.ofJson?_toJson h.name, list_function h.functions,
      Range.ofJson?_toJson h.range]

theorem Script.ofJson?_toJson {s : Script} (h : s.Fits) : ofJson? s.toJson = some s := by
  have hitems : list Item.ofJson? (.arr (s.items.map Item.toJson)) = some s.items :=
    list_map fun item hitem => Item.ofJson?_toJson (h item hitem)
  simp [ofJson?, toJson, hitems]

/-! ## What is read fits -/

theorem Import.yields_ofJson? : Yields ofJson? Fits := by
  refine fun json => .skip fun form => ?_
  split
  · refine Gives.bind (Yields.keyed (Ident.yields_ofJson?.member? _) _ _) fun _ hname => ?_
    exact .pure hname
  · refine Gives.bind (Yields.keyed (Ident.yields_ofJson?.list.member _) _ _) fun _ hnames => ?_
    exact .pure hnames
  · exact Yields.keyed (fun _ => .pure trivial) _ _
  · exact .none

theorem UseDecl.yields_ofJson? : Yields ofJson? Fits := by
  refine .keyed (fun json => ?_) _
  exact (Ident.yields_ofJson?.member _ json).bind fun _ hmodule =>
    (Import.yields_ofJson?.member _ json).bind fun _ himports =>
    (Range.yields_ofJson?.member _ json).bind fun _ hrange => .pure ⟨hmodule, himports, hrange⟩

theorem ConstDecl.yields_ofJson? : Yields ofJson? Fits := by
  refine .keyed (fun json => ?_) _
  exact (Ident.yields_ofJson?.member _ json).bind fun _ hname => .skip fun _ => .skip fun _ =>
    (TypeSpec.yields_ofJson?.member? _ json).bind fun _ htype =>
    (Expr.yields_ofJson?.member _ json).bind fun _ hvalue =>
    (Range.yields_ofJson?.member _ json).bind fun _ hrange => .pure ⟨hname, htype, hvalue, hrange⟩

theorem ParamDecl.yields_ofJson? : Yields ofJson? Fits := by
  refine .keyed (fun json => ?_) _
  exact (Ident.yields_ofJson?.member _ json).bind fun _ hname =>
    (TypeSpec.yields_ofJson?.member? _ json).bind fun _ htype =>
    (Expr.yields_ofJson?.member? _ json).bind fun _ hdefault => .pure ⟨hname, htype, hdefault⟩

theorem FunctionDecl.yields_ofJson? : Yields ofJson? Fits := by
  refine .keyed (fun json => ?_) _
  exact (Ident.yields_ofJson?.member _ json).bind fun _ hname =>
    .skip fun _ => .skip fun _ => .skip fun _ =>
    (ParamDecl.yields_ofJson?.list.member _ json).bind fun _ hparams =>
    (TypeSpec.yields_ofJson?.member _ json).bind fun _ hresult =>
    (Expr.yields_ofJson?.member _ json).bind fun _ hbody =>
    (Range.yields_ofJson?.member _ json).bind fun _ hrange =>
    .pure ⟨hname, hparams, hresult, hbody, hrange⟩

theorem FieldDecl.yields_ofJson? : Yields ofJson? Fits := by
  refine .keyed (fun json => ?_) _
  exact (Ident.yields_ofJson?.member _ json).bind fun _ hname =>
    (TypeSpec.yields_ofJson?.member _ json).bind fun _ htype => .skip fun _ =>
    (Expr.yields_ofJson?.member? _ json).bind fun _ hdefault => .pure ⟨hname, htype, hdefault⟩

theorem StructDecl.yields_ofJson? : Yields ofJson? Fits := by
  refine .keyed (fun json => ?_) _
  exact (Ident.yields_ofJson?.member _ json).bind fun _ hname => .skip fun _ => .skip fun _ =>
    (FieldDecl.yields_ofJson?.list.member _ json).bind fun _ hfields =>
    (Range.yields_ofJson?.member _ json).bind fun _ hrange => .pure ⟨hname, hfields, hrange⟩

theorem AliasDecl.yields_ofJson? : Yields ofJson? Fits := by
  refine .keyed (fun json => ?_) _
  exact (Ident.yields_ofJson?.member _ json).bind fun _ hname => .skip fun _ => .skip fun _ =>
    (TypeSpec.yields_ofJson?.member _ json).bind fun _ htype =>
    (Range.yields_ofJson?.member _ json).bind fun _ hrange => .pure ⟨hname, htype, hrange⟩

theorem ImplDecl.yields_ofJson? (functions : String) : Yields (ofJson? functions) Fits := by
  refine .keyed (fun json => ?_) _
  exact (Ident.yields_ofJson?.member _ json).bind fun _ hname =>
    (FunctionDecl.yields_ofJson?.list.member _ json).bind fun _ hfunctions =>
    (Range.yields_ofJson?.member _ json).bind fun _ hrange => .pure ⟨hname, hfunctions, hrange⟩

theorem Item.yields_ofJson? : Yields ofJson? Fits := by
  refine fun json => .skip fun form => ?_
  split
  · exact (UseDecl.yields_ofJson? _).bind fun _ h => .pure h
  · exact (ConstDecl.yields_ofJson? _).bind fun _ h => .pure h
  · exact (FunctionDecl.yields_ofJson? _).bind fun _ h => .pure h
  · exact (StructDecl.yields_ofJson? _).bind fun _ h => .pure h
  · exact (AliasDecl.yields_ofJson? _).bind fun _ h => .pure h
  · exact (ImplDecl.yields_ofJson? _ _).bind fun _ h => .pure h
  · exact (ImplDecl.yields_ofJson? _ _).bind fun _ h => .pure h
  · exact .none

theorem Script.yields_ofJson? : Yields ofJson? Fits := by
  refine .keyed (fun json => ?_) _
  exact .skip fun _ => .skip fun _ =>
    (Item.yields_ofJson?.list.member _ json).bind fun _ hitems => .pure hitems

/-! ## The round trip -/

/-- A script whose numbers fit is read back from the value it is written as. What is read from any
value fits, and is read back as well. -/
theorem script_read_back :
    (∀ s : Script, s.Fits → Script.ofJson? s.toJson = some s) ∧
      ∀ (json : Json) (s : Script), Script.ofJson? json = some s →
        s.Fits ∧ Script.ofJson? s.toJson = some s := by
  refine ⟨fun s => Script.ofJson?_toJson, fun json s hread => ?_⟩
  have hfits := Script.yields_ofJson? json s hread
  exact ⟨hfits, Script.ofJson?_toJson hfits⟩

/-- The script `fn half(x : Float = 1) -> Float = x.low(-9223372036854775808)`. -/
def halfScript : Script :=
  let range : Range := ⟨⟨4294967295, 0, 4294967295⟩, ⟨7, 1, 0⟩⟩
  let ident (name : String) : Ident := ⟨name, range⟩
  let float : TypeSpec := .named range none "Float" []
  { name := "half"
    items := [.function
      { name := ident "half"
        params := [⟨ident "x", some float, some (.float range (Float.ofInt 1))⟩]
        result := float
        body := .methodCall range (.var range none (ident "x")) (ident "low")
          [.int range (-9223372036854775808)]
        range }] }

/-- The same script in another form than it is written in: ranges and names are arrays, expressions
have the numbers of their forms, members stand in another order or are left out, the default is an
integer, and there is a member that nobody asks for. -/
def halfValue : Json :=
  let range : Json := .arr [.arr [.int 4294967295, .int 0, .int 4294967295],
    .arr [.int 7, .int 1, .int 0]]
  let ident (name : String) : Json := .arr [.str name, range]
  let float : Json := .obj [("name", .str "Float"), ("kind", .int 0), ("range", range)]
  let target : Json := .obj [("kind", .int 4), ("name", ident "x"), ("range", range)]
  let argument : Json :=
    .obj [("range", range), ("value", .int (-9223372036854775808)), ("kind", .int 0)]
  let default : Json := .obj [("range", range), ("value", .int 1), ("kind", .int 1)]
  let body : Json := .obj [("args", .arr [argument]), ("kind", .int 6), ("name", ident "low"),
    ("target", target), ("range", range)]
  .obj [("remark", .null), ("name", .str "half"), ("items", .arr [
    .obj [("kind", .str "Function"), ("range", range), ("body", body), ("returnType", float),
      ("parameters", .arr [.arr [ident "x", float, default]]), ("name", ident "half")]])]

theorem script_read_back_half :
    Script.ofJson? halfValue = some halfScript ∧ halfScript.Fits ∧
      Script.ofJson? halfScript.toJson = some halfScript := by
  have hread : Script.ofJson? halfValue = some halfScript := by rfl
  have hfits := (script_read_back.2 halfValue halfScript hread).1
  exact ⟨hread, hfits, script_read_back.1 halfScript hfits⟩

end ScriptCheck
