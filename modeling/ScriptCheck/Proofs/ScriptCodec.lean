import ScriptCheck.Proofs.Decoders
import ScriptCheck.Proofs.Resolver
import ScriptCheck.Proofs.ScriptNodes
import ScriptCheck.Script.Decode
import ScriptCheck.Script.Encode

/-!
# Reading written scripts

Writing a script and reading the value again gives the script, for every script whose numbers fit
their words: 32 bits for the numbers of a position, 64 bits for an integer literal. Whatever is
read fits, so that reading settles on one script in one step, also where it accepts several ways of
writing.
-/

namespace ScriptCheck

open Decoder

/-! ## Numbers that fit -/

/-- The numbers of a position have 32 bits. -/
def Position.Fits (p : Position) : Prop :=
  p.offset < 4294967296 ∧ p.line < 4294967296 ∧ p.character < 4294967296

/-- Both ends of a range fit. -/
def Range.Fits (r : Range) : Prop := r.start.Fits ∧ r.stop.Fits

/-- The range of a name fits. -/
def Ident.Fits (i : Ident) : Prop := i.range.Fits

/-- All ranges in an annotation fit. -/
def TypeSpec.Fits (spec : TypeSpec) : Prop := ∀ node ∈ spec.nodes, node.range.Fits

/-- The names of a binding fit. -/
def Binding.Fits (b : Binding) : Prop := ∀ name ∈ b.names, name.Fits

/-- The ranges in a lambda parameter fit. -/
def LambdaParam.Fits (p : LambdaParam) : Prop := p.name.Fits ∧ ∀ spec ∈ p.type, spec.Fits

namespace Expr

/-- What stands in an expression besides its children fits: ranges, and an integer literal. -/
def FitsHere : Expr → Prop
  | .int r value => r.Fits ∧ -9223372036854775808 ≤ value ∧ value < 9223372036854775808
  | .float r _ | .bool r _ | .string r _ | .index r _ _ | .unary r _ _ | .binary r _ _ _
  | .block r _ | .ifThen r _ _ _ | .whileLoop r _ _ | .breakLoop r | .continueLoop r
  | .returnValue r _ | .array r _ | .tuple r _ | .interval r _ _ _ | .bracket r _ => r.Fits
  | .var r scope name => r.Fits ∧ (∀ module ∈ scope, module.Fits) ∧ name.Fits
  | .call r scope name typeArgs _ =>
    r.Fits ∧ (∀ module ∈ scope, module.Fits) ∧ name.Fits ∧ ∀ spec ∈ typeArgs, spec.Fits
  | .methodCall r _ name _ | .field r _ name | .assign r name _ _ | .fieldAssign r _ name _ _ =>
    r.Fits ∧ name.Fits
  | .declare r _ binding type _ => r.Fits ∧ binding.Fits ∧ ∀ spec ∈ type, spec.Fits
  | .forLoop r binding _ _ => r.Fits ∧ binding.Fits
  | .lambda r params _ => r.Fits ∧ ∀ p ∈ params, p.Fits
  | .record r items => r.Fits ∧ ∀ item ∈ items, item.1.Fits

theorem FitsHere.range {e : Expr} (h : e.FitsHere) : e.range.Fits := by
  cases e with
  | int | var | call | methodCall | field | assign | fieldAssign | declare | forLoop | lambda
  | record => exact h.1
  | _ => exact h

/-- All ranges and integer literals in an expression fit. -/
def Fits (e : Expr) : Prop := ∀ node ∈ e.nodes, node.FitsHere

end Expr

theorem TypeSpec.fits_iff (spec : TypeSpec) :
    spec.Fits ↔ spec.range.Fits ∧ ∀ child ∈ spec.children, child.Fits := by
  simp only [Fits, nodes_eq spec, List.forall_mem_cons, List.mem_flatMap]
  grind

theorem Expr.fits_iff (e : Expr) : e.Fits ↔ e.FitsHere ∧ ∀ child ∈ e.children, child.Fits := by
  simp only [Fits, nodes_eq e, List.forall_mem_cons, List.mem_flatMap]
  grind

/-! ## Names and annotations -/

theorem word_nat {n : Nat} (h : n < 4294967296) : word (.nat n) = some n := by
  simp [word, Json.nat]
  omega

theorem Position.ofJson?_toJson {p : Position} (h : p.Fits) : ofJson? p.toJson = some p := by
  obtain ⟨hoffset, hline, hcharacter⟩ := h
  simp [ofJson?, toJson, word_nat, hoffset, hline, hcharacter]

theorem Range.ofJson?_toJson {r : Range} (h : r.Fits) : ofJson? r.toJson = some r := by
  simp [ofJson?, toJson, Position.ofJson?_toJson h.1, Position.ofJson?_toJson h.2]

theorem Ident.ofJson?_toJson {i : Ident} (h : i.Fits) : ofJson? i.toJson = some i := by
  simp [ofJson?, toJson, Range.ofJson?_toJson h]

namespace TypeSpec

theorem toJsonList_eq (specs : List TypeSpec) : toJsonList specs = specs.map toJson := by
  induction specs with
  | nil => rfl
  | cons spec rest ih => rw [toJsonList, ih, List.map_cons]

/-- The item of a record annotation as an object. -/
def itemToJson (item : String × TypeSpec) : Json :=
  .obj [("name", .str item.1), ("typeSpec", item.2.toJson)]

theorem toJsonItems_eq (items : List (String × TypeSpec)) :
    toJsonItems items = items.map itemToJson := by
  induction items with
  | nil => rfl
  | cons item rest ih => rw [toJsonItems, ih, List.map_cons, itemToJson]

theorem toJson_ne_null (spec : TypeSpec) : spec.toJson ≠ .null := by
  cases spec <;> simp [toJson, Json.node]

/-- The children of an annotation nest less deep. -/
theorem depth_toJson_lt {spec child : TypeSpec} (h : child ∈ spec.children) :
    child.toJson.depth < spec.toJson.depth := by
  have hlist (specs) (h : child ∈ specs) :
      child.toJson.depth ≤ Json.depthItems (toJsonList specs) := by
    rw [toJsonList_eq]
    exact Json.depth_le_depthItems (List.mem_map_of_mem h)
  have hitems (items) (h : child ∈ items.map Prod.snd) :
      child.toJson.depth ≤ Json.depthItems (toJsonItems items) := by
    obtain ⟨item, hitem, rfl⟩ := List.mem_map.1 h
    have hvalue : item.2.toJson.depth < (itemToJson item).depth :=
      Json.depth_lt_of_mem (List.mem_cons_of_mem _ List.mem_cons_self)
    rw [toJsonItems_eq]
    exact Nat.le_trans (Nat.le_of_lt hvalue) (Json.depth_le_depthItems (List.mem_map_of_mem hitem))
  cases spec <;>
    simp only [children, List.mem_cons, List.mem_append, List.not_mem_nil, or_false] at h <;>
    simp only [toJson, Json.node, Json.depth, Json.depthMembers, List.cons_append,
      List.nil_append] <;>
    grind

/-- An annotation is read back if its children are. -/
theorem ofJsonLevel_toJson {decode : Decoder TypeSpec} {spec : TypeSpec} (hrange : spec.range.Fits)
    (h : ∀ child ∈ spec.children, decode child.toJson = some child) :
    ofJsonLevel decode spec.toJson = some spec := by
  have hscope (scope) : nullable Decoder.string (.opt .str scope) = some scope :=
    nullable_opt (fun _ _ => rfl) nofun
  have hrange : member "range" Range.ofJson? spec.toJson = some spec.range := by
    have := Range.ofJson?_toJson hrange
    cases spec <;> simpa [toJson, Json.node, range] using this
  rw [ofJsonLevel, hrange, Option.bind_eq_bind, Option.bind_some]
  cases spec with
  | named r scope name args =>
    have hargs : list decode (.arr (args.map toJson)) = some args := list_map h
    simp [toJson, Json.node, kinds, range, hscope, hargs, toJsonList_eq]
  | tuple r items =>
    have hitems : list decode (.arr (items.map toJson)) = some items := list_map h
    simp [toJson, Json.node, kinds, range, hitems, toJsonList_eq]
  | record r items =>
    have hitems : list (itemOfJson? decode) (.arr (items.map itemToJson)) = some items := by
      refine list_map fun item hitem => ?_
      simp [itemOfJson?, itemToJson, h item.2 (List.mem_map_of_mem hitem)]
    simp [toJson, Json.node, kinds, range, hitems, toJsonItems_eq]
  | function r isAsync params result =>
    obtain ⟨hparams, hresult⟩ := List.forall_mem_append.1 h
    have hparams : list decode (.arr (params.map toJson)) = some params := list_map hparams
    simp [toJson, Json.node, kinds, range, hparams, hresult, toJsonList_eq]
  | _ =>
    simp only [children, List.forall_mem_cons] at h
    simp [toJson, Json.node, kinds, range, h]

theorem nested_toJson (spec : TypeSpec) (h : spec.Fits) (depth : Nat)
    (hdepth : spec.toJson.depth ≤ depth) :
    nested ofJsonLevel depth spec.toJson = some spec := by
  induction spec using children_induction generalizing depth with
  | h spec ih =>
    obtain ⟨hrange, hchildren⟩ := (fits_iff spec).1 h
    cases depth with
    | zero => cases spec <;> simp [toJson, Json.node, Json.depth] at hdepth
    | succ depth =>
      refine ofJsonLevel_toJson hrange fun child hchild => ?_
      have := depth_toJson_lt hchild
      exact ih child hchild (hchildren child hchild) depth (by omega)

theorem ofJson?_toJson {spec : TypeSpec} (h : spec.Fits) : ofJson? spec.toJson = some spec :=
  nested_toJson spec h _ (Nat.le_refl _)

end TypeSpec

/-! ## Expressions -/

theorem Operator.ofJson?_toJson (op : Operator) : ofJson? op.toJson = some op := by
  simp [ofJson?, toJson]

theorem node_kind {kinds : List String} {kind : String} {rest : List (String × Json)}
    (hkind : kind ∈ kinds) (hrest : Json.find? "kind" rest = none) :
    node (formIndex kinds) (.obj (("kind", .str kind) :: rest)) =
      some (kind, .obj (("kind", .str kind) :: rest)) := by
  simp [hkind, hrest]

theorem Binding.ofJson?_toJson {b : Binding} (h : b.Fits) : ofJson? b.toJson = some b := by
  cases b with
  | single name =>
    have hname := Ident.ofJson?_toJson (h name List.mem_cons_self)
    rw [ofJson?, toJson, node_kind (by decide) rfl, Option.bind_eq_bind, Option.bind_some]
    simp [hname]
  | tuple names =>
    have hnames : list Ident.ofJson? (.arr (names.map Ident.toJson)) = some names :=
      list_map fun name hname => Ident.ofJson?_toJson (h name hname)
    rw [ofJson?, toJson, node_kind (by decide) rfl, Option.bind_eq_bind, Option.bind_some]
    simp [hnames]

theorem nullable_ident {name? : Option Ident} (h : ∀ name ∈ name?, name.Fits) :
    nullable Ident.ofJson? (.opt Ident.toJson name?) = some name? :=
  nullable_opt (fun name hname => Ident.ofJson?_toJson (h name hname)) nofun

theorem nullable_typeSpec {spec? : Option TypeSpec} (h : ∀ spec ∈ spec?, spec.Fits) :
    nullable TypeSpec.ofJson? (.opt TypeSpec.toJson spec?) = some spec? :=
  nullable_opt (fun spec hspec => TypeSpec.ofJson?_toJson (h spec hspec))
    fun spec _ => spec.toJson_ne_null

theorem LambdaParam.ofJson?_toJson {p : LambdaParam} (h : p.Fits) :
    ofJson? p.toJson = some p := by
  simp [ofJson?, toJson, Ident.ofJson?_toJson h.1, nullable_typeSpec h.2]

namespace Expr

theorem toJsonList_eq (es : List Expr) : toJsonList es = es.map toJson := by
  induction es with
  | nil => rfl
  | cons e rest ih => rw [toJsonList, ih, List.map_cons]

/-- The item of a record as an object. -/
def itemToJson (item : Ident × Expr) : Json :=
  .obj [("name", item.1.toJson), ("value", item.2.toJson)]

theorem toJsonItems_eq (items : List (Ident × Expr)) :
    toJsonItems items = items.map itemToJson := by
  induction items with
  | nil => rfl
  | cons item rest ih => rw [toJsonItems, ih, List.map_cons, itemToJson]

theorem toJsonOpt_eq (e? : Option Expr) : toJsonOpt e? = .opt toJson e? := by
  cases e? <;> rfl

theorem toJson_ne_null (e : Expr) : e.toJson ≠ .null := by
  cases e <;> simp [toJson, Json.node]

/-- The children of an expression nest less deep. -/
theorem depth_toJson_lt {e child : Expr} (h : child ∈ e.children) :
    child.toJson.depth < e.toJson.depth := by
  have hlist (es) (h : child ∈ es) : child.toJson.depth ≤ Json.depthItems (toJsonList es) := by
    rw [toJsonList_eq]
    exact Json.depth_le_depthItems (List.mem_map_of_mem h)
  have hitems (items) (h : child ∈ items.map Prod.snd) :
      child.toJson.depth ≤ Json.depthItems (toJsonItems items) := by
    obtain ⟨item, hitem, rfl⟩ := List.mem_map.1 h
    have hvalue : item.2.toJson.depth < (itemToJson item).depth :=
      Json.depth_lt_of_mem (List.mem_cons_of_mem _ List.mem_cons_self)
    rw [toJsonItems_eq]
    exact Nat.le_trans (Nat.le_of_lt hvalue) (Json.depth_le_depthItems (List.mem_map_of_mem hitem))
  have hopt (e?) (h : child ∈ e?) : child.toJson.depth ≤ (toJsonOpt e?).depth := by
    obtain rfl := Option.mem_def.1 h
    exact Nat.le_refl _
  cases e <;>
    simp only [children, List.mem_cons, Option.mem_toList, List.not_mem_nil, or_false] at h <;>
    simp only [toJson, Json.node, Json.depth, Json.depthMembers, List.cons_append,
      List.nil_append] <;>
    grind

/-- The name of the form of an expression. -/
def kind : Expr → String
  | .int .. => "Int"
  | .float .. => "Float"
  | .bool .. => "Bool"
  | .string .. => "String"
  | .var .. => "Variable"
  | .call .. => "Call"
  | .methodCall .. => "MethodCall"
  | .field .. => "Field"
  | .index .. => "Index"
  | .unary .. => "Unary"
  | .binary .. => "Binary"
  | .block .. => "Block"
  | .declare .. => "Let"
  | .assign .. => "Assign"
  | .fieldAssign .. => "FieldAssign"
  | .ifThen .. => "If"
  | .whileLoop .. => "While"
  | .forLoop .. => "For"
  | .breakLoop .. => "Break"
  | .continueLoop .. => "Continue"
  | .returnValue .. => "Return"
  | .lambda .. => "Lambda"
  | .array .. => "Array"
  | .tuple .. => "Tuple"
  | .record .. => "Record"
  | .interval .. => "Range"
  | .bracket .. => "Bracket"

/-- The form and the range of an expression are read first. -/
theorem ofJsonLevel_eq (decode : Decoder Expr) {e : Expr} (hrange : e.range.Fits) :
    ofJsonLevel decode e.toJson = ofJsonKind decode e.range e.kind e.toJson := by
  have hkind : member "kind" (formIndex kinds) e.toJson = some e.kind := by
    cases e <;> simp [toJson, Json.node, kind, kinds]
  have hrange : member "range" Range.ofJson? e.toJson = some e.range := by
    have := Range.ofJson?_toJson hrange
    cases e <;> simpa [toJson, Json.node, range] using this
  rw [ofJsonLevel, hkind, hrange]
  rfl

/-- An expression is read back if its children are. -/
theorem ofJsonLevel_toJson {decode : Decoder Expr} {e : Expr} (here : e.FitsHere)
    (h : ∀ child ∈ e.children, decode child.toJson = some child) :
    ofJsonLevel decode e.toJson = some e := by
  have hop (op : Option Operator) : nullable Operator.ofJson? (.opt Operator.toJson op) = some op :=
    nullable_opt (fun op _ => op.ofJson?_toJson) nofun
  have hexpr (e? : Option Expr) (h : ∀ child ∈ e?.toList, decode child.toJson = some child) :
      nullable decode (.opt toJson e?) = some e? :=
    nullable_opt (fun child hchild => h child (Option.mem_toList.2 hchild))
      fun child _ => child.toJson_ne_null
  rw [ofJsonLevel_eq decode here.range]
  cases e with
  | int r value =>
    have hvalue : integer (.int value) = some value := if_pos here.2
    simp [ofJsonKind, kind, toJson, Json.node, range, hvalue]
  | var r scope name =>
    obtain ⟨-, hscope, hname⟩ := here
    simp [ofJsonKind, kind, toJson, Json.node, range, nullable_ident hscope,
      Ident.ofJson?_toJson hname]
  | call r scope name typeArgs args =>
    obtain ⟨-, hscope, hname, htypeArgs⟩ := here
    have htypeArgs : list TypeSpec.ofJson? (.arr (typeArgs.map TypeSpec.toJson)) = some typeArgs :=
      list_map fun spec hspec => TypeSpec.ofJson?_toJson (htypeArgs spec hspec)
    have hargs : list decode (.arr (args.map toJson)) = some args := list_map h
    simp [ofJsonKind, kind, toJson, Json.node, range, nullable_ident hscope,
      Ident.ofJson?_toJson hname, htypeArgs, hargs, toJsonList_eq]
  | methodCall r target name args =>
    obtain ⟨htarget, hargs⟩ := List.forall_mem_cons.1 h
    have hargs : list decode (.arr (args.map toJson)) = some args := list_map hargs
    simp [ofJsonKind, kind, toJson, Json.node, range, htarget, Ident.ofJson?_toJson here.2, hargs,
      toJsonList_eq]
  | field | assign | fieldAssign =>
    simp only [children, List.forall_mem_cons] at h
    simp [ofJsonKind, kind, toJson, Json.node, range, h, hop, Ident.ofJson?_toJson here.2]
  | declare r isConst binding type value =>
    obtain ⟨-, hbinding, htype⟩ := here
    simp [ofJsonKind, kind, toJson, Json.node, range, Binding.ofJson?_toJson hbinding,
      nullable_typeSpec htype, h value List.mem_cons_self]
  | forLoop r binding source body =>
    simp only [children, List.forall_mem_cons] at h
    simp [ofJsonKind, kind, toJson, Json.node, range, Binding.ofJson?_toJson here.2, h]
  | lambda r params body =>
    have hparams : list LambdaParam.ofJson? (.arr (params.map LambdaParam.toJson)) = some params :=
      list_map fun p hp => LambdaParam.ofJson?_toJson (here.2 p hp)
    simp [ofJsonKind, kind, toJson, Json.node, range, hparams, h body List.mem_cons_self]
  | record r items =>
    have hitems : list (itemOfJson? decode) (.arr (items.map itemToJson)) = some items := by
      refine list_map fun item hitem => ?_
      simp [itemOfJson?, itemToJson, Ident.ofJson?_toJson (here.2 item hitem),
        h item.2 (List.mem_map_of_mem hitem)]
    simp [ofJsonKind, kind, toJson, Json.node, range, hitems, toJsonItems_eq]
  | ifThen r condition thenBranch elseBranch =>
    simp only [children, List.forall_mem_cons] at h
    simp [ofJsonKind, kind, toJson, Json.node, range, h, hexpr elseBranch h.2.2, toJsonOpt_eq]
  | returnValue r value =>
    simp [ofJsonKind, kind, toJson, Json.node, range, hexpr value h, toJsonOpt_eq]
  | block r es | array r es | tuple r es =>
    have hes : list decode (.arr (es.map toJson)) = some es := list_map h
    simp [ofJsonKind, kind, toJson, Json.node, range, hes, toJsonList_eq]
  | _ =>
    simp only [children, List.forall_mem_cons] at h
    simp [ofJsonKind, kind, toJson, Json.node, range, h, Operator.ofJson?_toJson, real]

theorem nested_toJson (e : Expr) (h : e.Fits) (depth : Nat) (hdepth : e.toJson.depth ≤ depth) :
    nested ofJsonLevel depth e.toJson = some e := by
  induction e using children_induction generalizing depth with
  | h e ih =>
    obtain ⟨here, hchildren⟩ := (fits_iff e).1 h
    cases depth with
    | zero => cases e <;> simp [toJson, Json.node, Json.depth] at hdepth
    | succ depth =>
      refine ofJsonLevel_toJson here fun child hchild => ?_
      have := depth_toJson_lt hchild
      exact ih child hchild (hchildren child hchild) depth (by omega)

theorem ofJson?_toJson {e : Expr} (h : e.Fits) : ofJson? e.toJson = some e :=
  nested_toJson e h _ (Nat.le_refl _)

end Expr

/-! ## What is read fits -/

theorem yields_word : Yields word fun n => n < 4294967296
  | .int n => by
    rintro _ hn
    rw [word] at hn
    split at hn
    · obtain rfl := Option.some.inj hn
      omega
    · cases hn
  | .null | .bool _ | .real _ | .str _ | .arr _ | .obj _ => .none

theorem Position.yields_ofJson? : Yields ofJson? Fits := by
  refine .keyed (fun json => ?_) _
  exact (yields_word.member _ json).bind fun _ hoffset =>
    (yields_word.member _ json).bind fun _ hline =>
    (yields_word.member _ json).bind fun _ hcharacter => .pure ⟨hoffset, hline, hcharacter⟩

theorem Range.yields_ofJson? : Yields ofJson? Fits := by
  refine .keyed (fun json => ?_) _
  exact (Position.yields_ofJson?.member _ json).bind fun _ hstart =>
    (Position.yields_ofJson?.member _ json).bind fun _ hstop => .pure ⟨hstart, hstop⟩

theorem Ident.yields_ofJson? : Yields ofJson? Fits := by
  refine .keyed (fun json => ?_) _
  exact .skip fun _ => (Range.yields_ofJson?.member _ json).bind fun _ hrange => .pure hrange

theorem TypeSpec.yields_ofJsonLevel {decode : Decoder TypeSpec} (h : Yields decode Fits) :
    Yields (ofJsonLevel decode) Fits := by
  have hitem : Yields (itemOfJson? decode) fun item => item.2.Fits := by
    refine .keyed (fun json => ?_) _
    exact .skip fun _ => (h.member _ json).bind fun _ hspec => .pure hspec
  intro json
  refine (Range.yields_ofJson?.member _ json).bind fun r hr => .skip fun kind => ?_
  split
  · exact .skip fun _ => .skip fun _ =>
      (h.list.memberD _ (List.forall_mem_nil _) json).bind fun _ hargs =>
      .pure ((fits_iff _).2 ⟨hr, hargs⟩)
  · exact (h.member _ json).bind fun _ helement =>
      .pure ((fits_iff _).2 ⟨hr, List.forall_mem_singleton.2 helement⟩)
  · exact (h.member _ json).bind fun _ hinner =>
      .pure ((fits_iff _).2 ⟨hr, List.forall_mem_singleton.2 hinner⟩)
  · exact (h.member _ json).bind fun _ hok => (h.member _ json).bind fun _ herr =>
      .pure ((fits_iff _).2 ⟨hr, List.forall_mem_cons.2 ⟨hok, List.forall_mem_singleton.2 herr⟩⟩)
  · exact (h.list.member _ json).bind fun _ hitems => .pure ((fits_iff _).2 ⟨hr, hitems⟩)
  · exact (hitem.list.member _ json).bind fun _ hitems =>
      .pure ((fits_iff _).2 ⟨hr, List.forall_mem_map.2 hitems⟩)
  · exact .skip fun _ => (h.list.member _ json).bind fun _ hparams =>
      (h.member _ json).bind fun _ hret =>
      .pure ((fits_iff _).2
        ⟨hr, List.forall_mem_append.2 ⟨hparams, List.forall_mem_singleton.2 hret⟩⟩)
  · exact .none

theorem TypeSpec.yields_ofJson? : Yields ofJson? Fits := .tree fun _ => yields_ofJsonLevel

theorem yields_integer :
    Yields integer fun n => -9223372036854775808 ≤ n ∧ n < 9223372036854775808
  | .int n => by
    rintro _ hn
    rw [integer] at hn
    split at hn
    · rename_i hfits
      exact Option.some.inj hn ▸ hfits
    · cases hn
  | .null | .bool _ | .real _ | .str _ | .arr _ | .obj _ => .none

theorem Binding.yields_ofJson? : Yields ofJson? Fits := by
  refine fun json => .skip fun form => ?_
  split
  · refine Gives.bind (Yields.keyed (Ident.yields_ofJson?.member _) _ _) fun _ hname => ?_
    exact .pure (List.forall_mem_singleton.2 hname)
  · refine Gives.bind (Yields.keyed (Ident.yields_ofJson?.list.member _) _ _) fun _ hnames => ?_
    exact .pure hnames
  · exact .none

theorem LambdaParam.yields_ofJson? : Yields ofJson? Fits := by
  refine .keyed (fun json => ?_) _
  exact (Ident.yields_ofJson?.member _ json).bind fun _ hname =>
    (TypeSpec.yields_ofJson?.member? _ json).bind fun _ htype => .pure ⟨hname, htype⟩

namespace Expr

theorem yields_ofJsonKind {decode : Decoder Expr} (h : Yields decode Fits) {r : Range}
    (hr : r.Fits) (kind : String) : Yields (ofJsonKind decode r kind) Fits := by
  intro json
  have hident (key) : Gives (member key Ident.ofJson? json) _ :=
    Ident.yields_ofJson?.member key json
  have hchild (key) : Gives (member key decode json) _ := h.member key json
  have hlist (key) : Gives (member key (list decode) json) _ := h.list.member key json
  have hitem : Yields (itemOfJson? decode) fun item => item.1.Fits ∧ item.2.Fits := by
    refine .keyed (fun json => ?_) _
    exact (Ident.yields_ofJson?.member _ json).bind fun _ hname =>
      (h.member _ json).bind fun _ hvalue => .pure ⟨hname, hvalue⟩
  have fits {e : Expr} (here : e.FitsHere) (hchildren : ∀ child ∈ e.children, child.Fits) :
      Gives (pure e) Fits := .pure ((fits_iff e).2 ⟨here, hchildren⟩)
  have one {a : Expr} (ha : a.Fits) : ∀ child ∈ [a], child.Fits := List.forall_mem_singleton.2 ha
  have two {a b : Expr} (ha : a.Fits) (hb : b.Fits) : ∀ child ∈ [a, b], child.Fits :=
    List.forall_mem_cons.2 ⟨ha, one hb⟩
  unfold ofJsonKind
  simp only
  split
  · exact (yields_integer.member _ json).bind fun _ hvalue => fits ⟨hr, hvalue⟩ nofun
  · exact .skip fun _ => fits hr nofun
  · exact .skip fun _ => fits hr nofun
  · exact .skip fun _ => fits hr nofun
  · exact (Ident.yields_ofJson?.member? _ json).bind fun _ hscope =>
      (hident _).bind fun _ hname => fits ⟨hr, hscope, hname⟩ nofun
  · exact (Ident.yields_ofJson?.member? _ json).bind fun _ hscope => (hident _).bind fun _ hname =>
      (TypeSpec.yields_ofJson?.list.memberD _ (List.forall_mem_nil _) json).bind fun _ htypeArgs =>
      (hlist _).bind fun _ hargs => fits ⟨hr, hscope, hname, htypeArgs⟩ hargs
  · exact (hchild _).bind fun _ htarget => (hident _).bind fun _ hname =>
      (hlist _).bind fun _ hargs =>
      fits ⟨hr, hname⟩ (List.forall_mem_cons.2 ⟨htarget, hargs⟩)
  · exact (hchild _).bind fun _ htarget => (hident _).bind fun _ hname =>
      fits ⟨hr, hname⟩ (one htarget)
  · exact (hchild _).bind fun _ htarget => (hchild _).bind fun _ hposition =>
      fits hr (two htarget hposition)
  · exact .skip fun _ => (hchild _).bind fun _ hoperand => fits hr (one hoperand)
  · exact (hchild _).bind fun _ hleft => .skip fun _ => (hchild _).bind fun _ hright =>
      fits hr (two hleft hright)
  · exact (hlist _).bind fun _ hes => fits hr hes
  · exact .skip fun _ => (Binding.yields_ofJson?.member _ json).bind fun _ hbinding =>
      (TypeSpec.yields_ofJson?.member? _ json).bind fun _ htype =>
      (hchild _).bind fun _ hvalue => fits ⟨hr, hbinding, htype⟩ (one hvalue)
  · exact (hident _).bind fun _ hname => .skip fun _ => (hchild _).bind fun _ hvalue =>
      fits ⟨hr, hname⟩ (one hvalue)
  · exact (hchild _).bind fun _ htarget => (hident _).bind fun _ hname => .skip fun _ =>
      (hchild _).bind fun _ hvalue => fits ⟨hr, hname⟩ (two htarget hvalue)
  · exact (hchild _).bind fun _ hcondition => (hchild _).bind fun _ hthen =>
      (h.member? _ json).bind fun _ helse => fits hr (List.forall_mem_cons.2
        ⟨hcondition, List.forall_mem_cons.2 ⟨hthen, fun e he => helse e (Option.mem_toList.1 he)⟩⟩)
  · exact (hchild _).bind fun _ hcondition => (hchild _).bind fun _ hbody =>
      fits hr (two hcondition hbody)
  · exact (Binding.yields_ofJson?.member _ json).bind fun _ hbinding =>
      (hchild _).bind fun _ hsource => (hchild _).bind fun _ hbody =>
      fits ⟨hr, hbinding⟩ (two hsource hbody)
  · exact fits hr nofun
  · exact fits hr nofun
  · exact (h.member? _ json).bind fun _ hvalue =>
      fits hr fun e he => hvalue e (Option.mem_toList.1 he)
  · exact (LambdaParam.yields_ofJson?.list.member _ json).bind fun _ hparams =>
      (hchild _).bind fun _ hbody => fits ⟨hr, hparams⟩ (one hbody)
  · exact (hlist _).bind fun _ hes => fits hr hes
  · exact (hlist _).bind fun _ hes => fits hr hes
  · exact (hitem.list.member _ json).bind fun _ hitems =>
      fits ⟨hr, fun item hitem => (hitems item hitem).1⟩
        (List.forall_mem_map.2 fun item hitem => (hitems item hitem).2)
  · exact (hchild _).bind fun _ hlow => (hchild _).bind fun _ hhigh => .skip fun _ =>
      fits hr (two hlow hhigh)
  · exact (hchild _).bind fun _ hinner => fits hr (one hinner)
  · exact .none

theorem yields_ofJson? : Yields ofJson? Fits := by
  refine .tree fun decode h json => ?_
  exact (Range.yields_ofJson?.member _ json).bind fun r hr => .skip fun kind =>
    yields_ofJsonKind h hr kind json

end Expr

end ScriptCheck
