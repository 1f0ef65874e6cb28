import ScriptCheck.Proofs.Grades
import ScriptCheck.Proofs.Instances

/-!
# Laws of acceptance

A type accepts another for one of few reasons (`Symbols.accepts_iff_reason`): one of them is open,
the library says so, both are built from one library type or struct, or the parts of the second fit
those of the first (`Ty.Subsumes`).

Acceptance is reflexive whatever the library says (`Symbols.accepts_self`). In general it is not
transitive, because an unknown type goes with everything and a library type without arguments with
all of its instances. It is transitive among the types that scripts without imports and structs
write out in full (`Symbols.accepts_trans`). Types that become less precise keep what they accept
and what accepts them, as long as there is only the prelude (`Symbols.accepts_of_less_precise`).
-/

namespace ScriptCheck

/-! ## Reasons -/

namespace Inquiry

variable {R : Ty → Ty → Prop}

/-- Lists of the same length are compared pair by pair. -/
theorem affirmed_pairs_iff {as bs : List Ty} (hlength : as.length = bs.length) :
    Affirmed R ⟨as.zip bs, true⟩ ↔ List.Forall₂ R as bs :=
  ⟨fun h => List.forall₂_iff_zip.2 ⟨hlength, fun hq => h.questions _ hq⟩, .pairs⟩

/-- Each field is compared with the first item of the same name. -/
theorem affirmed_covering_iff {items : List (String × Ty)} : {fields : List (String × Ty)} →
    (Affirmed R (covering items fields) ↔
      ∀ field ∈ fields, ∃ t, findItem? field.1 items = some t ∧ R field.2 t)
  | [] => ⟨fun _ => nofun, fun _ => .immediate⟩
  | (name, ty) :: rest => by
    refine ⟨fun h => ?_, .covering⟩
    rw [covering] at h
    cases hitem : findItem? name items with
    | none =>
      rw [hitem] at h
      cases h.verdict
    | some t =>
      rw [hitem] at h
      obtain ⟨ht, hrest⟩ := List.forall_mem_cons.1 h.questions
      exact List.forall_mem_cons.2 ⟨⟨t, hitem, ht⟩, affirmed_covering_iff.1 ⟨h.verdict, hrest⟩⟩

/-- Parameters are compared the other way round, and results unless the target asks for none. -/
theorem affirmed_function_iff {f g : Signature Ty} (hlength : f.params.length = g.params.length) :
    Affirmed R ⟨(g.params.map Param.ty).zip (f.params.map Param.ty) ++
        (if f.result.isUnit then [] else [(f.result, g.result)]), true⟩ ↔
      List.Forall₂ R (g.params.map Param.ty) (f.params.map Param.ty) ∧
        (f.result = Ty.unit ∨ R f.result g.result) := by
  have hparams : (g.params.map Param.ty).length = (f.params.map Param.ty).length := by
    simp [hlength]
  have hresult : (∀ q ∈ if f.result.isUnit then [] else [(f.result, g.result)], R q.1 q.2) ↔
      f.result = Ty.unit ∨ R f.result g.result := by
    by_cases hunit : f.result = Ty.unit <;> simp [hunit, Ty.isUnit]
  rw [← hresult, ← affirmed_pairs_iff hparams]
  constructor
  · intro h
    obtain ⟨hzip, hrest⟩ := List.forall_mem_append.1 h.questions
    exact ⟨⟨rfl, hzip⟩, hrest⟩
  · rintro ⟨hzip, hrest⟩
    exact ⟨rfl, List.forall_mem_append.2 ⟨hzip.questions, hrest⟩⟩

end Inquiry

namespace Ty

/-- The types are built in the same way, from parts that stand in the relation. The second record
may have more fields, the parameters of functions change sides, and a function whose result is
`Unit` may stand for one with any result. -/
inductive Subsumes (R : Ty → Ty → Prop) : Ty → Ty → Prop
  | named (q : QName) : Subsumes R (.named q) (.named q)
  | applied (q : QName) {as bs : List Ty} (h : List.Forall₂ R as bs) :
    Subsumes R (.applied q as) (.applied q bs)
  | array {a b : Ty} (h : R a b) : Subsumes R (.array a) (.array b)
  | option {a b : Ty} (h : R a b) : Subsumes R (.option a) (.option b)
  | result {a b c d : Ty} (hok : R a b) (herr : R c d) : Subsumes R (.result a c) (.result b d)
  | tuple {as bs : List Ty} (h : List.Forall₂ R as bs) : Subsumes R (.tuple as) (.tuple bs)
  | record {items others : List (String × Ty)} (name : Option QName)
    (h : ∀ field ∈ items, ∃ t, findItem? field.1 others = some t ∧ R field.2 t) :
    Subsumes R (.record none items) (.record name others)
  | function {f g : Signature Ty}
    (hparams : List.Forall₂ R (g.params.map Param.ty) (f.params.map Param.ty))
    (hresult : f.result = unit ∨ R f.result g.result) : Subsumes R (.function f) (.function g)

end Ty

namespace Symbols

open Ty Inquiry

/-- Why a type accepts another, if the relation says which of their parts accept each other. -/
inductive Reason (s : Symbols) (R : Ty → Ty → Prop) : Ty → Ty → Prop
  | vague {a b : Ty} (h : a.isOpen = true ∨ b.isOpen = true) : Reason s R a b
  | coercion {a b : Ty} (h : s.coerces a b = true) : Reason s R a b
  /-- A library type without arguments goes with all of its instances. -/
  | bareTarget (q : QName) (args : List Ty) : Reason s R (.named q) (.applied q args)
  | bareOther (q : QName) (args : List Ty) : Reason s R (.applied q args) (.named q)
  /-- Structs are compared by name. -/
  | struct (name : QName) (items others : List (String × Ty)) :
    Reason s R (.record (some name) items) (.record (some name) others)
  /-- A struct is made of an anonymous record that has its fields. -/
  | construction {name : QName} {items others : List (String × Ty)}
    (h : ∀ field ∈ s.fieldsOf name items, ∃ t, findItem? field.1 others = some t ∧ R field.2 t) :
    Reason s R (.record (some name) items) (.record none others)
  | parts {a b : Ty} (h : Subsumes R a b) : Reason s R a b

variable {s : Symbols} {R : Ty → Ty → Prop} {a b c : Ty}

theorem Reason.of_affirmed (h : Affirmed R (s.inquiry a b)) : s.Reason R a b := by
  unfold inquiry at h
  split at h
  case isTrue hyes =>
    rcases Bool.or_eq_true _ _ ▸ hyes with hopen | hcoerces
    · exact .vague (Bool.or_eq_true _ _ ▸ hopen)
    · exact .coercion hcoerces
  case isFalse hno =>
    clear hno
    split at h
    case h_1 p q => exact beq_iff_eq.1 h.verdict ▸ .parts (.named p)
    case h_2 p q args => exact beq_iff_eq.1 h.verdict ▸ .bareTarget p args
    case h_3 p args q => exact beq_iff_eq.1 h.verdict ▸ .bareOther p args
    case h_4 p as q bs =>
      split at h
      · rename_i heq
        exact heq.1 ▸ .parts (.applied p ((affirmed_pairs_iff heq.2).1 h))
      · exact absurd h.verdict Bool.false_ne_true
    case h_5 => exact .parts (.array (h.questions _ List.mem_cons_self))
    case h_6 => exact .parts (.option (h.questions _ List.mem_cons_self))
    case h_7 =>
      exact .parts (.result (h.questions _ List.mem_cons_self)
        (h.questions _ (List.mem_cons_of_mem _ List.mem_cons_self)))
    case h_8 =>
      split at h
      · rename_i hlength
        exact .parts (.tuple ((affirmed_pairs_iff hlength).1 h))
      · exact absurd h.verdict Bool.false_ne_true
    case h_9 p items q others => exact beq_iff_eq.1 h.verdict ▸ .struct p items others
    case h_10 => exact .construction (affirmed_covering_iff.1 h)
    case h_11 => exact .parts (.record _ (affirmed_covering_iff.1 h))
    case h_12 =>
      split at h
      · rename_i hlength
        obtain ⟨hparams, hresult⟩ := (affirmed_function_iff hlength).1 h
        exact .parts (.function hparams hresult)
      · exact absurd h.verdict Bool.false_ne_true
    case h_13 => exact absurd h.verdict Bool.false_ne_true

theorem Reason.affirmed (h : s.Reason R a b) : Affirmed R (s.inquiry a b) := by
  unfold inquiry
  split
  · exact .immediate
  · rename_i hno
    cases h with
    | vague h => exact absurd (by simpa using .inl h) hno
    | coercion h => exact absurd (by simp [h]) hno
    | bareTarget q | bareOther q | struct q => exact ⟨beq_self_eq_true q, nofun⟩
    | construction h => exact .covering h
    | parts h =>
      cases h with
      | named q => exact ⟨beq_self_eq_true q, nofun⟩
      | applied q h =>
        dsimp only
        rw [if_pos ⟨rfl, h.length_eq⟩]
        exact .pairs h
      | array h | option h => exact .pairs (.cons h .nil)
      | result hok herr => exact .pairs (.cons hok (.cons herr .nil))
      | tuple h =>
        dsimp only
        rw [if_pos h.length_eq]
        exact .pairs h
      | record name h => exact .covering h
      | @function f g hparams hresult =>
        have hlength : f.params.length = g.params.length := by simpa using hparams.length_eq.symm
        dsimp only
        rw [if_pos hlength]
        exact (affirmed_function_iff hlength).2 ⟨hparams, hresult⟩

/-- A type accepts another exactly if there is a reason, where parts are compared in the same
way. -/
theorem accepts_iff_reason :
    s.accepts a b = true ↔ s.Reason (fun c d => s.accepts c d = true) a b := by
  refine ⟨fun h => .of_affirmed ?_, fun h => ?_⟩
  · obtain ⟨n, hn⟩ := accepts_eq_true_iff.1 h
    cases n with
    | zero => cases hn
    | succ n =>
      rw [accepts?_succ, settle_eq_true_iff] at hn
      exact ⟨hn.1, fun q hq => accepts_eq_true_iff.2 ⟨n, hn.2 q hq⟩⟩
  · refine accepts_eq_true_iff.2 (.of_affirmed ⟨h.affirmed.verdict, fun q hq => ?_⟩)
    exact accepts_eq_true_iff.1 (h.affirmed.questions q hq)

/-! ## Reflexivity -/

/-- A type accepts itself, unless an anonymous record inside it lists a field name twice. -/
theorem accepts_self (s : Symbols) {t : Ty} (ht : t.Unambiguous) : s.accepts t t = true :=
  accepts_eq_true_iff.2 (interchange_of_fades ht (.refl isOpen t)).1

end Symbols

/-- A function of records and structs of which `selfCovering` cannot tell whether the structs accept
the records. -/
def selfCoveringFunction : Ty :=
  .fn [selfCoveringArgument, .array selfCoveringStruct] (.option selfCoveringStruct)

/-- The function accepts itself, since the same types of parameters are compared. -/
theorem accepts_self_selfCovering :
    selfCoveringFunction.Unambiguous ∧
      (selfCovering.declarations Registry.empty).symbols.accepts selfCoveringFunction
        selfCoveringFunction = true :=
  ⟨by decide, Symbols.accepts_self _ (by decide)⟩

-- If a name is listed twice, then the second field is compared with the first.
example : Symbols.accepts { registry := .empty, moduleName := "main" }
    (.anonymous [("x", .int), ("x", .string)]) (.anonymous [("x", .int), ("x", .string)]) =
      false := by
  decide +kernel

/-! ## Elementary types -/

/-- The types of the prelude without generic parameters. -/
def scalars : List QName := ["int", "float", "bool", "string", "Unit", "Range"].map (QName.mk "")

/-- The types of the prelude with a generic parameter. -/
def containers : List QName := ["Cell", "ArrayBuilder"].map (QName.mk "")

namespace Ty

/-- The type is neither open nor a struct, and if it is a type of the library then one of the
prelude with its argument. -/
def WrittenOut : Ty → Prop
  | .named q => q ∈ scalars
  | .applied q args => q ∈ containers ∧ args.length = 1
  | .record name _ => name = none
  | .array _ | .tuple _ | .option _ | .result _ _ | .function _ => True
  | .unknown | .placeholder _ => False

instance : DecidablePred WrittenOut
  | .named q => inferInstanceAs (Decidable (q ∈ scalars))
  | .applied q args => inferInstanceAs (Decidable (q ∈ containers ∧ args.length = 1))
  | .record name _ => inferInstanceAs (Decidable (name = none))
  | .array _ | .tuple _ | .option _ | .result _ _ | .function _ => inferInstanceAs (Decidable True)
  | .unknown | .placeholder _ => inferInstanceAs (Decidable False)

/-- The type is built from types of the prelude alone, and all of it is written out. -/
def Elementary (t : Ty) : Prop := ∀ part ∈ t.parts, part.WrittenOut

instance : DecidablePred Elementary :=
  fun t => inferInstanceAs (Decidable (∀ part ∈ t.parts, part.WrittenOut))

theorem elementary_iff {t : Ty} :
    t.Elementary ↔ t.WrittenOut ∧ ∀ c ∈ t.children, c.Elementary := by
  rw [Elementary, parts_eq, List.forall_mem_cons, List.forall_mem_flatMap]
  rfl

theorem WrittenOut.isOpen_eq {t : Ty} (h : t.WrittenOut) : t.isOpen = false := by
  cases t <;> first | rfl | cases h

end Ty

namespace Symbols

open Ty

variable {s : Symbols} {R : Ty → Ty → Prop} {a b c : Ty}

/-- Of the types of the prelude, `Unit` accepts every type by its description and `float` accepts
`int`. -/
theorem coerces_prelude_iff (hs : s.registry = Registry.empty) {q : QName}
    (hq : q ∈ scalars ++ containers) (ha : s.registry.infoOf? a = s.registry.type? q) :
    s.coerces a b = true ↔ .named q = Ty.unit ∨ (.named q = Ty.float ∧ b = Ty.int) := by
  have htable : ∀ q ∈ scalars ++ containers,
      (Registry.empty.type? q).map (fun info => (info.assignableFromAny,
        info.assignableFrom.map fun source => source.resolve Registry.empty {})) =
      some (decide (.named q = Ty.unit), if .named q = Ty.float then [Ty.int] else []) := by
    decide
  obtain ⟨info, hinfo, heq⟩ := Option.map_eq_some_iff.1 (htable q hq)
  obtain ⟨hany, hsources⟩ := Prod.mk.inj heq
  have hcoerces : s.coerces a b = (info.assignableFromAny ||
      (info.assignableFrom.map fun source => source.resolve Registry.empty {}).any (· == b)) := by
    unfold coerces
    rw [ha, hs, hinfo, List.any_map]
    rfl
  rw [hcoerces, hany, hsources]
  split_ifs with hfloat
  · simp [hfloat, eq_comm (a := b)]
  · simp [hfloat]

theorem coerces_iff_of_writtenOut (hs : s.registry = Registry.empty) (ha : a.WrittenOut) :
    s.coerces a b = true ↔ a = Ty.unit ∨ (a = Ty.float ∧ b = Ty.int) := by
  cases a with
  | named q => exact coerces_prelude_iff hs (List.mem_append_left _ ha) rfl
  | applied q args =>
    have hcontainers : ∀ q ∈ containers, .named q ≠ Ty.unit ∧ .named q ≠ Ty.float := by decide
    obtain ⟨hunit, hfloat⟩ := hcontainers q ha.1
    rw [coerces_prelude_iff hs (List.mem_append_right _ ha.1) rfl]
    exact iff_of_false (fun h => h.elim hunit fun h => hfloat h.1) nofun
  | _ => simp [coerces, Registry.infoOf?, Ty.unit, Ty.float, prelude]

/-- Among elementary types, three reasons are left. -/
theorem accepts_iff_of_writtenOut (hs : s.registry = Registry.empty) (ha : a.WrittenOut)
    (hb : b.WrittenOut) :
    s.accepts a b = true ↔ a = Ty.unit ∨ (a = Ty.float ∧ b = Ty.int) ∨
      Subsumes (fun c d => s.accepts c d = true) a b := by
  rw [accepts_iff_reason, ← or_assoc, ← coerces_iff_of_writtenOut hs ha]
  refine ⟨fun h => ?_, fun h => h.elim .coercion .parts⟩
  have hnames : ∀ q ∈ scalars, q ∉ containers := by decide
  cases h with
  | vague h => simp [ha.isOpen_eq, hb.isOpen_eq] at h
  | coercion h => exact .inl h
  | bareTarget q args => exact absurd hb.1 (hnames q ha)
  | bareOther q args => exact absurd ha.1 (hnames q hb)
  | struct | construction => cases ha
  | parts h => exact .inr h

end Symbols

/-! ## Transitivity -/

theorem forall₂_trans {α : Type} {R : α → α → Prop} {as bs cs : List α}
    (hab : List.Forall₂ R as bs) (hbc : List.Forall₂ R bs cs)
    (htrans : ∀ a ∈ as, ∀ b ∈ bs, ∀ c ∈ cs, R a b → R b c → R a c) : List.Forall₂ R as cs := by
  induction hab generalizing cs with
  | nil => exact hbc
  | @cons a b as bs hab _ ih =>
    cases hbc with
    | @cons _ c _ cs hbc hrest =>
      have hhead := htrans a List.mem_cons_self b List.mem_cons_self c List.mem_cons_self hab hbc
      refine .cons hhead (ih hrest fun x hx y hy z hz => ?_)
      exact htrans x (List.mem_cons_of_mem a hx) y (List.mem_cons_of_mem b hy) z
        (List.mem_cons_of_mem c hz)

namespace Ty

variable {R : Ty → Ty → Prop} {a b c : Ty}

/-- Two types that are built in the same way as a third one between them. Parameters are compared
from the last type to the first. If the function between them drops its result, then the first one
does as well. -/
theorem Subsumes.trans (hab : Subsumes R a b) (hbc : Subsumes R b c)
    (hunit : ∀ x ∈ a.children, R x unit → x = unit)
    (htrans : ∀ x ∈ a.children, ∀ y ∈ b.children, ∀ z ∈ c.children,
      (R x y → R y z → R x z) ∧ (R z y → R y x → R z x)) :
    Subsumes R a c := by
  have hfirst {x y z : Ty} (hx : x ∈ a.children) (hy : y ∈ b.children) (hz : z ∈ c.children) :
      R x y → R y z → R x z := (htrans x hx y hy z hz).1
  cases hab with
  | named q => exact hbc
  | applied q h =>
    cases hbc with
    | applied _ h' => exact .applied q (forall₂_trans h h' fun _ hx _ hy _ hz => hfirst hx hy hz)
  | array h =>
    cases hbc with
    | array h' =>
      exact .array (hfirst List.mem_cons_self List.mem_cons_self List.mem_cons_self h h')
  | option h =>
    cases hbc with
    | option h' =>
      exact .option (hfirst List.mem_cons_self List.mem_cons_self List.mem_cons_self h h')
  | result hok herr =>
    cases hbc with
    | result hok' herr' =>
      refine .result (hfirst ?_ ?_ ?_ hok hok') (hfirst ?_ ?_ ?_ herr herr') <;> simp [children]
  | tuple h =>
    cases hbc with
    | tuple h' => exact .tuple (forall₂_trans h h' fun _ hx _ hy _ hz => hfirst hx hy hz)
  | record name h =>
    cases hbc with
    | record name' h' =>
      refine .record name' fun field hfield => ?_
      obtain ⟨t, ht, hR⟩ := h field hfield
      obtain ⟨u, hu, hR'⟩ := h' _ (Symbols.item_mem_of_findItem? ht)
      refine ⟨u, hu, hfirst ?_ ?_ ?_ hR hR'⟩
      · exact List.mem_map_of_mem hfield
      · exact Symbols.mem_of_findItem? ht
      · exact Symbols.mem_of_findItem? hu
  | @function f g hparams hresult =>
    cases hbc with
    | @function _ k hparams' hresult' =>
      have hmem {f : Signature Ty} : f.result ∈ (Ty.function f).children := by simp [children]
      refine .function (forall₂_trans hparams' hparams fun z hz y hy x hx => ?_) ?_
      · exact (htrans x (List.mem_append_left _ hx) y (List.mem_append_left _ hy) z
          (List.mem_append_left _ hz)).2
      · rcases hresult with hresult | hresult
        · exact .inl hresult
        · rcases hresult' with hresult' | hresult'
          · exact .inl (hunit _ hmem (hresult' ▸ hresult))
          · exact .inr (hfirst hmem hmem hmem hresult hresult')

theorem Subsumes.eq_of_named_left {q : QName} (h : Subsumes R (.named q) b) : b = .named q := by
  cases h with
  | named => rfl

theorem Subsumes.eq_of_named_right {q : QName} (h : Subsumes R a (.named q)) : a = .named q := by
  cases h with
  | named => rfl

end Ty

namespace Symbols

open Ty

variable {s : Symbols} {a b c : Ty}

/-- Only `Unit` accepts `Unit`. -/
theorem eq_unit_of_accepts_unit (hs : s.registry = Registry.empty) (ha : a.WrittenOut)
    (h : s.accepts a Ty.unit = true) : a = Ty.unit := by
  rcases (accepts_iff_of_writtenOut hs ha (by decide)).1 h with h | ⟨-, h⟩ | h
  · exact h
  · exact absurd h (by decide)
  · exact h.eq_of_named_right

theorem accepts_trans (hs : s.registry = Registry.empty) (ha : a.Elementary) (hb : b.Elementary)
    (hc : c.Elementary) (hab : s.accepts a b = true) (hbc : s.accepts b c = true) :
    s.accepts a c = true := by
  -- Children of the second type lie between children of the other two, in either order.
  induction b using children_induction generalizing a c with
  | h b ih =>
    obtain ⟨ha, hparts⟩ := elementary_iff.1 ha
    obtain ⟨hb, hmiddle⟩ := elementary_iff.1 hb
    obtain ⟨hc, hothers⟩ := elementary_iff.1 hc
    rw [accepts_iff_of_writtenOut hs ha hc]
    rcases (accepts_iff_of_writtenOut hs ha hb).1 hab with hunit | ⟨hfloat, rfl⟩ | hab
    · exact .inl hunit
    · rcases (accepts_iff_of_writtenOut hs hb hc).1 hbc with h | ⟨h, -⟩ | hbc
      · exact absurd h (by decide)
      · exact absurd h (by decide)
      · exact .inr (.inl ⟨hfloat, hbc.eq_of_named_left⟩)
    · rcases (accepts_iff_of_writtenOut hs hb hc).1 hbc with rfl | ⟨rfl, hint⟩ | hbc
      · exact .inl hab.eq_of_named_right
      · exact .inr (.inl ⟨hab.eq_of_named_right, hint⟩)
      · refine .inr (.inr (hab.trans hbc (fun x hx h => ?_) fun x hx y hy z hz => ?_))
        · exact eq_unit_of_accepts_unit hs (elementary_iff.1 (hparts x hx)).1 h
        · exact ⟨ih y hy (hparts x hx) (hmiddle y hy) (hothers z hz),
            ih y hy (hothers z hz) (hmiddle y hy) (hparts x hx)⟩

end Symbols

namespace Reading

/-- The symbols of a script that declares and imports nothing. -/
def symbols : Symbols := { registry := .empty, moduleName := "main" }

/-- A function that reads a record. -/
def reader (fields : List (String × Ty)) (result : Ty) : Ty := .fn [.anonymous fields] result

def cell (content : Ty) : Ty := .applied ⟨"", "Cell"⟩ [content]

end Reading

open Reading in
/-- A reader may ignore fields and widen them, and whoever drops the result accepts any reader. -/
theorem accepts_trans_readers :
    (reader [("x", .int), ("y", .string)] .unit).Elementary ∧
      (reader [("x", .int)] (cell .float)).Elementary ∧
      (reader [("x", .float)] (cell .int)).Elementary ∧
      symbols.accepts (reader [("x", .int), ("y", .string)] .unit)
        (reader [("x", .int)] (cell .float)) = true ∧
      symbols.accepts (reader [("x", .int)] (cell .float))
        (reader [("x", .float)] (cell .int)) = true ∧
      symbols.accepts (reader [("x", .int), ("y", .string)] .unit)
        (reader [("x", .float)] (cell .int)) = true :=
  ⟨by decide, by decide, by decide, by decide +kernel, by decide +kernel,
    Symbols.accepts_trans (b := reader [("x", .int)] (cell .float)) rfl (by decide) (by decide)
      (by decide) (by decide +kernel) (by decide +kernel)⟩

-- A cell without an argument goes with all cells, which do not go with each other.
example :
    let s : Symbols := { registry := .empty, moduleName := "main" }
    let cell (content : Ty) : Ty := .applied ⟨"", "Cell"⟩ [content]
    s.accepts (cell .int) (.prelude "Cell") = true ∧
      s.accepts (.prelude "Cell") (cell .string) = true ∧
      s.accepts (cell .int) (cell .string) = false := by
  decide +kernel

/-! ## Loss of precision -/

/-- Types that accept each other do so after parts of both have become unknown, if there is only the
prelude, whatever structs the script has. -/
theorem Symbols.accepts_of_less_precise {s : Symbols} (hs : s.registry = Registry.empty)
    {a a' b b' : Ty} (ha : a.Fades Ty.isUnknown a') (hb : b.Fades Ty.isUnknown b')
    (h : s.accepts a b = true) : s.accepts a' b' = true := by
  have hflat : s.registry.Flat := hs ▸ Registry.flat_of_isFlat (by decide)
  exact accepts_of_fades (fun _ => Ty.isOpen_of_isUnknown) hflat ha hb h

namespace Probing

/-- A struct with a cell and with a function whose result is dropped. -/
def symbols : Symbols :=
  { registry := .empty
    moduleName := "main"
    structs := ⟨[("Probe",
      { fields := [("cell", Reading.cell .int), ("log", .fn [.int] .unit)] })]⟩ }

/-- The struct, with a copy of its fields. -/
def probe (fields : List (String × Ty)) : Ty := .record (some ⟨"main", "Probe"⟩) fields

/-- A record that can be made a probe. -/
def parts (content parameter : Ty) : Ty :=
  .anonymous [("id", .string), ("log", .fn [parameter] .string), ("cell", Reading.cell content)]

end Probing

open Probing in
/-- The fields of the struct stay as they are while those of the record become unknown. -/
theorem accepts_of_less_precise_probes :
    symbols.accepts (.option (probe [("cell", Reading.cell .int)]))
        (.option (parts .int .float)) = true ∧
      symbols.accepts (.option (probe [("cell", .unknown)]))
        (.option (parts .unknown .unknown)) = true :=
  ⟨by decide +kernel,
    Symbols.accepts_of_less_precise (a := .option (probe [("cell", Reading.cell .int)]))
      (b := .option (parts .int .float)) rfl (by decide) (by decide) (by decide +kernel)⟩

end ScriptCheck
