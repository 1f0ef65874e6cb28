import ScriptCheck.Proofs.AcceptanceLaws
import ScriptCheck.Proofs.Justification

/-!
# Texts of types

An annotation and the type that it stands for read the same, except that a function in front of
array brackets has parentheses only in the text of the type (`display_resolve_iff`): the text of the
type is longer by two characters for each such array.

Types are known by their texts (`equal_texts_equal_types`). A text starts with one of few openings,
none of which is the beginning of another, and goes on with the types inside, whose texts end where
a comma or a closing bracket follows. Array brackets belong to the type in front of them, which for
the result of a function is the result.
-/

namespace ScriptCheck

/-! ## Annotations and their types -/

/-- The name is that of a type of the prelude, which the script does not use for a type of its own,
and it has no arguments or all. -/
def TypeName.Common (s : Symbols) (n : TypeName) : Prop :=
  n.scope = none ∧ s.types.get? n.name = none ∧
    ∃ info ∈ Library.Prelude.type? n.name, n.count = 0 ∨ n.count = info.generics.length

instance (s : Symbols) : DecidablePred (TypeName.Common s) :=
  fun _ => inferInstanceAs (Decidable (_ ∧ _ ∧ _))

namespace Ty

/-- Whether a type is an array of functions. -/
def isFunctionArray : Ty → Bool
  | .array element => element.isFunction
  | _ => false

/-- The number of arrays of functions inside a type. -/
def functionArrays (t : Ty) : Nat := t.parts.countP isFunctionArray

theorem functionArrays_eq (t : Ty) :
    t.functionArrays = (if t.isFunctionArray then 1 else 0) +
      (t.children.map functionArrays).sum := by
  rw [functionArrays, parts_eq, List.countP_cons, List.countP_flatMap, Nat.add_comm]
  rfl

theorem displayParams_eq (params : List (Param Ty)) :
    displayParams params = displayList (params.map Param.ty) := by
  induction params with
  | nil => rfl
  | cons p rest ih =>
    cases rest with
    | nil => rfl
    | cons q rest => exact congrArg _ ih

end Ty

/-- The second text has `pairs` more pairs of characters than the first and is the same if there
are none. -/
structure Widened (pairs : Nat) (text other : String) : Prop where
  length : other.length = text.length + 2 * pairs
  eq : pairs = 0 → text = other

namespace Widened

variable {m n : Nat} {a b c d : String}

theorem refl (a : String) : Widened 0 a a := ⟨rfl, fun _ => rfl⟩

theorem append (h : Widened m a b) (k : Widened n c d) : Widened (m + n) (a ++ c) (b ++ d) where
  length := by
    rw [String.length_append, String.length_append, h.length, k.length]
    omega
  eq hzero := by rw [h.eq (by omega), k.eq (by omega)]

theorem frame (h : Widened n a b) (c d : String) : Widened n (c ++ a ++ d) (c ++ b ++ d) := by
  simpa using ((refl c).append h).append (refl d)

/-- Parentheses in front of brackets. -/
theorem parenthesised (h : Widened n a b) : Widened (1 + n) (a ++ "[]") ("(" ++ b ++ ")[]") where
  length := by
    simp only [String.length_append, h.length, show "(".length = 1 from rfl,
      show ")[]".length = 3 from rfl, show "[]".length = 2 from rfl]
    omega
  eq hzero := by omega

end Widened

namespace TypeSpec

variable {v : View}

theorem widened_displayList {specs : List TypeSpec}
    (h : ∀ c ∈ specs, Widened (c.resolve v).functionArrays c.display (c.resolve v).display) :
    Widened ((specs.map (resolve v)).map Ty.functionArrays).sum (displayList specs)
      (Ty.displayList (specs.map (resolve v))) := by
  induction specs with
  | nil => exact .refl _
  | cons spec rest ih =>
    obtain ⟨hspec, hrest⟩ := List.forall_mem_cons.1 h
    cases rest with
    | nil => exact hspec
    | cons next rest => exact (hspec.append (.refl ", ")).append (ih hrest)

theorem widened_displayItems {items : List (String × TypeSpec)}
    (h : ∀ x ∈ items, Widened (x.2.resolve v).functionArrays x.2.display (x.2.resolve v).display) :
    Widened ((items.map fun x => x.2.resolve v).map Ty.functionArrays).sum (displayItems items)
      (Ty.displayItems (items.map fun x => (x.1, x.2.resolve v))) := by
  induction items with
  | nil => exact .refl _
  | cons item rest ih =>
    obtain ⟨hitem, hrest⟩ := List.forall_mem_cons.1 h
    have hnamed : Widened (item.2.resolve v).functionArrays (item.1 ++ " : " ++ item.2.display)
        (item.1 ++ " : " ++ (item.2.resolve v).display) := by
      simpa using hitem.frame (item.1 ++ " : ") ""
    cases rest with
    | nil => exact hnamed
    | cons next rest => exact (hnamed.append (.refl ", ")).append (ih hrest)

variable {s : Symbols}

/-- A name of the prelude stands for itself, with its arguments if it has them. -/
theorem resolve_of_common {range : Range} {scope : Option String} {name : String}
    {args : List TypeSpec} (h : TypeName.Common s ⟨range, scope, name, args.length⟩) :
    scope = none ∧ resolve { symbols := s } (.named range scope name args) =
      if args.isEmpty then .named ⟨"", name⟩
      else .applied ⟨"", name⟩ (args.map (resolve { symbols := s })) := by
  obtain ⟨rfl, hlocal, info, hinfo, hcount⟩ := h
  replace hinfo : Library.Prelude.type? name = some info := hinfo
  have hgenerics : info.generics = [] ∨ info.generics = ["T"] := by
    have hall : ∀ info ∈ Library.Prelude.types, info.generics = [] ∨ info.generics = ["T"] := by
      decide
    exact hall info (List.mem_of_find?_eq_some hinfo)
  have hself : name ≠ "Self" := by
    rintro rfl
    cases hinfo
  have htype : View.type? { symbols := s } none name = some (.named ⟨"", name⟩) := by
    simp [View.type?, hself, Symbols.type?, hlocal, hinfo, Ty.prelude]
  have hnames : Ty.genericNames s.registry (.named ⟨"", name⟩) = info.generics := by
    simp [Ty.genericNames, Registry.type?, hinfo]
  refine ⟨rfl, ?_⟩
  rw [resolve, htype]
  dsimp only
  split_ifs with hempty hlength
  · rfl
  · rw [hnames] at hlength
    simp_all
  · rw [resolveList_eq_map, Ty.fillPositional, hnames]
    rcases hgenerics with h | h
    · simp_all
    · obtain ⟨arg, rfl⟩ := List.length_eq_one_iff.1 (show args.length = 1 by simp_all)
      simp [h, Ty.fill, hnames, Table.ofList, Table.contains]

/-- The text of the type is longer by the parentheses around functions in front of brackets. -/
theorem widened_display {spec : TypeSpec} (h : ∀ n ∈ spec.typeNames, n.Common s) :
    Widened (spec.resolve { symbols := s }).functionArrays spec.display
      (spec.resolve { symbols := s }).display := by
  induction spec using names_induction with
  | named range scope name args ih =>
    rw [typeNames, typeNamesOfList_eq, List.forall_mem_append, List.forall_mem_flatMap,
      List.forall_mem_singleton] at h
    obtain ⟨rfl, hresolve⟩ := resolve_of_common h.2
    rw [hresolve, Ty.functionArrays_eq]
    cases args with
    | nil => simpa [Ty.isFunctionArray, Ty.children, display, Ty.display, QName.display]
        using Widened.refl name
    | cons arg rest =>
      have hargs := widened_displayList fun c hc => ih c hc (h.1 c hc)
      simpa [Ty.isFunctionArray, Ty.children, display, Ty.display, QName.display,
        String.append_assoc] using hargs.frame (name ++ "<") ">"
  | composite spec hspec ih =>
    rw [typeNames_of_composite hspec, List.forall_mem_flatMap] at h
    have ih c hc := ih c hc (h c hc)
    rw [Ty.functionArrays_eq, children_resolve hspec]
    cases spec with
    | named => cases hspec
    | array _ element =>
      have helement := ih element List.mem_cons_self
      simp only [resolve, children, display, Ty.isFunctionArray, Ty.display]
      by_cases hfunction : (element.resolve { symbols := s }).isFunction = true
      · simpa [hfunction] using helement.parenthesised
      · simpa [hfunction] using helement.frame "" "[]"
    | option _ inner =>
      have hinner := (ih inner List.mem_cons_self).frame "Option<" ">"
      simpa [resolve, children, display, Ty.isFunctionArray, Ty.display] using hinner
    | result _ ok err =>
      have hparts := ((ih ok (by simp [children])).append (.refl ", ")).append
        (ih err (by simp [children]))
      simpa [resolve, children, display, Ty.isFunctionArray, Ty.display, String.append_assoc]
        using hparts.frame "Result<" ">"
    | tuple _ items =>
      have hitems := (widened_displayList ih).frame "(" ")"
      simpa [resolve, children, display, Ty.isFunctionArray, Ty.display, resolveList_eq_map]
        using hitems
    | record _ items =>
      have hitems := widened_displayItems fun x hx => ih x.2 (List.mem_map_of_mem hx)
      simpa [resolve, children, display, Ty.isFunctionArray, Ty.display, resolveItems_eq_map,
        Function.comp_def] using hitems.frame "(" ")"
    | function _ isAsync params ret =>
      obtain ⟨hparams, hret⟩ := List.forall_mem_append.1 ih
      have hparts := ((widened_displayList hparams).frame (if isAsync then "async fn(" else "fn(")
        ") -> ").append (hret ret (by simp))
      cases isAsync <;> simpa [resolve, children, display, Ty.isFunctionArray, Ty.display,
        resolveList_eq_map, Ty.displayFunction, Ty.displayParams_eq, String.append_assoc]
        using hparts

end TypeSpec

/-- An annotation whose names stand for types of the prelude reads like its type exactly if no part
of the type is an array of functions, which has parentheses only in the text of the type. -/
theorem display_resolve_iff {s : Symbols} {spec : TypeSpec}
    (h : ∀ n ∈ spec.typeNames, n.Common s) :
    spec.display = (spec.resolve { symbols := s }).display ↔
      ∀ part ∈ (spec.resolve { symbols := s }).parts, ¬part.isFunctionArray = true := by
  obtain ⟨hlength, heq⟩ := TypeSpec.widened_display h
  rw [← List.countP_eq_zero]
  refine ⟨fun hsame => ?_, heq⟩
  have hpairs : 2 * (spec.resolve { symbols := s }).functionArrays = 0 := by
    rw [hsame] at hlength
    omega
  exact (Nat.mul_eq_zero.1 hpairs).resolve_left (by decide)

namespace Readings

/-- The symbols of a script with a type of its own. -/
def symbols : Symbols :=
  { registry := .empty, moduleName := "main", types := ⟨[("Probe", { ty := .int })]⟩ }

/-- A record with a cell and with functions, one of which returns an array. -/
def probe : TypeSpec :=
  .record {} [("at", .named {} none "Cell" [.tuple {} [.plain "int", .plain "Range"]]),
    ("log", .array {} (.option {} (.function {} true [.plain "string", .plain "Cell"]
      (.array {} (.result {} (.plain "Unit") (.plain "float"))))))]

end Readings

open Readings in
/-- The record reads like its type. -/
theorem display_resolve_iff_probe :
    (∀ n ∈ probe.typeNames, n.Common symbols) ∧
      probe.display = (probe.resolve { symbols }).display :=
  ⟨by decide, (display_resolve_iff (by decide)).2 (by decide)⟩

/-- An array of functions reads like a function that returns an array. -/
theorem function_array_reads_differently :
    let s : Symbols := { registry := .empty, moduleName := "main" }
    let spec : TypeSpec := .array {} (.function {} false [] (.plain "Unit"))
    (∀ n ∈ spec.typeNames, n.Common s) ∧ spec.display = "fn() -> Unit[]" ∧
      (spec.resolve { symbols := s }).display = "(fn() -> Unit)[]" := by
  decide

/-! ## Reading types -/

namespace Ty

variable {t : Ty}

/-- A type without the types inside it and without the labels of its parameters. -/
def shape : Ty → Ty
  | .applied q _ => .applied q []
  | .array _ => .array .unknown
  | .tuple _ => .tuple []
  | .record name items => .record name (items.map fun item => (item.1, .unknown))
  | .option _ => .option .unknown
  | .result _ _ => .result .unknown .unknown
  | .function f => .function { f with params := [], result := .unknown }
  | t => t

/-- The types are equal up to names and defaults of parameters. -/
inductive SameUpToLabels : Ty → Ty → Prop
  | intro {t u : Ty} (hshape : t.shape = u.shape)
    (hchildren : List.Forall₂ SameUpToLabels t.children u.children) : SameUpToLabels t u

/-- The shapes of types, other than arrays, whose texts can be told apart. -/
def heads : List Ty :=
  [.unknown, .option .unknown, .result .unknown .unknown, .tuple []] ++
    [true, false].map (fun isAsync => .function { isAsync, params := [], result := .unknown }) ++
    scalars.map .named ++ containers.map (.applied · [])

/-- The type is built from unknown types, types of the prelude, arrays, options, results, functions
without generic parameters and tuples that have not just one item. -/
def Legible (t : Ty) : Prop :=
  ∀ part ∈ t.parts, part.shape ∈ .array .unknown :: heads ∧
    (part.shape = .tuple [] → part.children.length ≠ 1)

instance : DecidablePred Legible :=
  fun t => inferInstanceAs (Decidable (∀ part ∈ t.parts, _))

theorem legible_iff : t.Legible ↔
    (t.shape ∈ .array .unknown :: heads ∧ (t.shape = .tuple [] → t.children.length ≠ 1)) ∧
      ∀ c ∈ t.children, c.Legible := by
  rw [Legible, parts_eq, List.forall_mem_cons, List.forall_mem_flatMap]
  rfl

/-- How the text of a type of the given shape starts. -/
def opening : Ty → String
  | .unknown => "<unknown>"
  | .named q => q.name
  | .applied q _ => q.name ++ "<"
  | .option _ => "Option<"
  | .result _ _ => "Result<"
  | .function f => if f.isAsync then "async fn(" else "fn("
  | _ => "("

/-- What closes the types inside a type of the given shape. -/
def closing : Ty → List Char
  | .unknown | .named _ => []
  | .tuple _ | .function _ => [')']
  | _ => ['>']

/-- The types between the opening and the closing. -/
def inside : Ty → List Ty
  | .function f => f.params.map Param.ty
  | t => t.children

/-- What stands behind the closing. -/
def arrow : Ty → List Char
  | .function f => " -> ".toList ++ f.result.display.toList
  | _ => []

/-- Pairs of array brackets. -/
def brackets (n : Nat) : List Char := (List.replicate n ['[', ']']).flatten

theorem eq_of_opening_isPrefix : ∀ a ∈ heads, ∀ b ∈ heads,
    a.opening.toList <+: b.opening.toList → a = b := by
  decide +kernel

theorem head?_opening : ∀ a ∈ heads, a.opening.toList.head? ∉ [none, some '>', some ')'] := by
  decide +kernel

theorem display_eq (h : t.shape ∈ heads) :
    t.display.toList = t.shape.opening.toList ++
      ((displayList t.inside).toList ++ (t.shape.closing ++ t.arrow)) := by
  have hname : ∀ q ∈ scalars ++ containers, q.display = q.name := by decide
  cases t with
  | named q =>
    have hq : q ∈ scalars := by simpa [heads, shape] using h
    simp [display, shape, opening, inside, children, displayList, closing, arrow,
      hname q (List.mem_append_left _ hq)]
  | applied q args =>
    have hq : q ∈ containers := by simpa [heads, shape] using h
    simp [display, shape, opening, inside, children, closing, arrow,
      hname q (List.mem_append_right _ hq)]
  | function f =>
    have hgenerics : f.generics = [] := by
      simp only [heads, shape] at h
      grind
    cases hasync : f.isAsync <;> simp [display, displayFunction, shape, opening, inside, closing,
      arrow, hasync, hgenerics, displayParams_eq]
  | array | record | placeholder => simp [heads, shape] at h
  | unknown | tuple | option | result =>
    simp [display, shape, opening, inside, children, displayList, closing, arrow]

/-- The item of a tuple with one item, and any other type itself. -/
def unwrapped (t : Ty) : Ty :=
  if t.shape = .tuple [] ∧ t.children.length = 1 then t.children.headD t else t

theorem isFunction_shape (t : Ty) : t.shape.isFunction = t.isFunction := by
  cases t <;> rfl

/-- The text of a type is that of a type that is no array, followed by brackets. A function in front
of brackets is spelled like the only item of a tuple. -/
structure Spelling (t : Ty) (n : Nat) (w : Ty) : Prop where
  eq : t = array^[n] w.unwrapped
  text : t.display.toList = w.display.toList ++ brackets n
  function : w.isFunction = true → n = 0
  shape : w.shape ∈ heads
  children : ∀ c ∈ w.children, c.Legible ∧ c.size < t.size

theorem Legible.exists_spelling (h : t.Legible) : ∃ n w, Spelling t n w := by
  induction t using children_induction with
  | h t ih =>
    obtain ⟨⟨hshape, hwhole⟩, hchildren⟩ := legible_iff.1 h
    by_cases harray : ∃ e, t = .array e
    · obtain ⟨e, rfl⟩ := harray
      have he := hchildren e List.mem_cons_self
      cases hf : e.isFunction with
      | true =>
        refine ⟨1, .tuple [e], rfl, ?_, nofun, by simp [Ty.shape, heads], ?_⟩
        · simp [display, hf, displayList, brackets]
        · simp [children, he, size]
      | false =>
        obtain ⟨n, w, hw⟩ := ih e List.mem_cons_self he
        refine ⟨n + 1, w, ?_, ?_, ?_, hw.shape, fun c hc => ⟨(hw.children c hc).1, ?_⟩⟩
        · rw [Function.iterate_succ_apply', ← hw.eq]
        · simp [display, hf, hw.text, brackets, List.replicate_succ']
        · intro hfunction
          have heq : w.unwrapped = w := if_neg fun hw => by
            rw [← isFunction_shape, hw.1] at hfunction
            cases hfunction
          rw [hw.eq, hw.function hfunction, Function.iterate_zero_apply, heq, hfunction] at hf
          cases hf
        · have hsize := (hw.children c hc).2
          rw [size]
          omega
    · have hunwrapped : t.unwrapped = t := if_neg (not_and.2 hwhole)
      refine ⟨0, t, hunwrapped.symm, by simp [brackets], fun _ => rfl, ?_,
        fun c hc => ⟨hchildren c hc, size_lt_of_mem_children hc⟩⟩
      refine (List.mem_cons.1 hshape).resolve_left fun heq => harray ?_
      cases t <;> simp [Ty.shape] at heq
      exact ⟨_, rfl⟩

/-- The text of a type can be split off a longer text that does not go on with brackets. -/
def Cancels (t : Ty) : Prop :=
  ∀ u, u.Legible → ∀ rest rest' : List Char, rest.head? ≠ some '[' → rest'.head? ≠ some '[' →
    t.display.toList ++ rest = u.display.toList ++ rest' → SameUpToLabels t u ∧ rest = rest'

theorem displayList_cons (t : Ty) (ts : List Ty) :
    displayList (t :: ts) = t.display ++ if ts.isEmpty then "" else ", " ++ displayList ts := by
  cases ts with
  | nil => simp [displayList]
  | cons u us => simp [displayList, String.append_assoc]

/-- No text of a type starts like the end of a list. -/
theorem Legible.exists_cons (h : t.Legible) :
    ∃ c text, t.display.toList = c :: text ∧ c ≠ '>' ∧ c ≠ ')' := by
  obtain ⟨n, w, hw⟩ := h.exists_spelling
  have hhead := head?_opening _ hw.shape
  rw [hw.text, display_eq hw.shape]
  cases htext : w.shape.opening.toList with
  | nil => simp [htext] at hhead
  | cons c text => exact ⟨c, _, rfl, by simpa [htext] using hhead⟩

/-- Lists of types with the same texts up to the bracket that closes them have the same types. -/
theorem cancel_list {close : Char} (hclose : close = '>' ∨ close = ')') {ts us : List Ty}
    (hts : ∀ t ∈ ts, t.Legible ∧ t.Cancels) (hus : ∀ u ∈ us, u.Legible) {rest rest' : List Char}
    (h : (displayList ts).toList ++ close :: rest = (displayList us).toList ++ close :: rest') :
    List.Forall₂ SameUpToLabels ts us ∧ rest = rest' := by
  have hend {t : Ty} {ts : List Ty} {rest rest' : List Char} (ht : t.Legible) :
      close :: rest ≠ (displayList (t :: ts)).toList ++ rest' := by
    obtain ⟨c, text, htext, hc⟩ := ht.exists_cons
    rw [displayList_cons, String.toList_append, htext]
    rintro heq
    obtain rfl := (List.cons.inj heq).1
    exact hclose.elim hc.1 hc.2
  induction ts generalizing us with
  | nil =>
    cases us with
    | nil => exact ⟨.nil, (List.cons.inj h).2⟩
    | cons u us => exact absurd h (hend (hus u List.mem_cons_self))
  | cons t ts ih =>
    cases us with
    | nil => exact absurd h.symm (hend (hts t List.mem_cons_self).1)
    | cons u us =>
      obtain ⟨ht, hts⟩ := List.forall_mem_cons.1 hts
      obtain ⟨hu, hus⟩ := List.forall_mem_cons.1 hus
      have hstop (ts : List Ty) (rest : List Char) :
          ((if ts.isEmpty then "" else ", " ++ displayList ts).toList ++ close :: rest).head? ≠
            some '[' := by
        rcases hclose with rfl | rfl <;> split <;> simp
      rw [displayList_cons, displayList_cons, String.toList_append, String.toList_append,
        List.append_assoc, List.append_assoc] at h
      obtain ⟨htu, h⟩ := ht.2 u hu _ _ (hstop ts rest) (hstop us rest') h
      have hcomma : close ≠ ',' := by rcases hclose with rfl | rfl <;> decide
      cases ts <;> cases us <;> simp [hcomma, hcomma.symm] at h
      · exact ⟨.cons htu .nil, h⟩
      · obtain ⟨hrest, h⟩ := ih hts hus h
        exact ⟨.cons htu hrest, h⟩

theorem brackets_cancel {m n : Nat} {rest rest' : List Char} (hrest : rest.head? ≠ some '[')
    (hrest' : rest'.head? ≠ some '[') (h : brackets m ++ rest = brackets n ++ rest') :
    m = n ∧ rest = rest' := by
  induction m generalizing n with
  | zero =>
    cases n with
    | zero => exact ⟨rfl, h⟩
    | succ n => exact absurd (congrArg List.head? h) hrest
  | succ m ih =>
    cases n with
    | zero => exact absurd (congrArg List.head? h).symm hrest'
    | succ n =>
      obtain ⟨rfl, heq⟩ := ih (n := n) (by simpa [brackets, List.replicate_succ] using h)
      exact ⟨rfl, heq⟩

theorem SameUpToLabels.arrays {t u : Ty} (h : SameUpToLabels t u) :
    (n : Nat) → SameUpToLabels (array^[n] t) (array^[n] u)
  | 0 => h
  | n + 1 => arrays (t := .array t) (u := .array u) ⟨rfl, .cons h .nil⟩ n

theorem SameUpToLabels.unwrapped {t u : Ty} (h : SameUpToLabels t u) :
    SameUpToLabels t.unwrapped u.unwrapped := by
  obtain ⟨hshape, hchildren⟩ := id h
  unfold Ty.unwrapped
  rw [hshape, hchildren.length_eq]
  split
  · generalize t.children = ts, u.children = us at hchildren ⊢
    cases hchildren with
    | nil => exact h
    | cons hitem => exact hitem
  · exact h

theorem closing_cases (t : Ty) :
    t.shape.closing = [] ∧ t.inside = [] ∨
      ∃ c, t.shape.closing = [c] ∧ (c = '>' ∨ c = ')') := by
  cases t <;> simp [shape, closing, inside, children]

theorem inside_subset {t c : Ty} (h : c ∈ t.inside) : c ∈ t.children := by
  cases t with
  | function f => exact List.mem_append_left _ h
  | _ => exact h

theorem exists_of_isFunction (h : t.isFunction = true) : ∃ f, t = .function f := by
  cases t with
  | function f => exact ⟨f, rfl⟩
  | _ => cases h

theorem inside_eq (h : t.isFunction = false) : t.inside = t.children := by
  cases t with
  | function => cases h
  | _ => rfl

theorem arrow_eq (h : t.isFunction = false) : t.arrow = [] := by
  cases t with
  | function => cases h
  | _ => rfl

theorem Legible.cancels (ht : t.Legible) : Cancels t := by
  induction hsize : t.size using Nat.strong_induction_on generalizing t with
  | h size ih =>
    subst hsize
    intro u hu rest rest' hrest hrest' h
    obtain ⟨m, w, hw⟩ := ht.exists_spelling
    obtain ⟨n, w', hw'⟩ := hu.exists_spelling
    rw [hw.text, hw'.text, display_eq hw.shape, display_eq hw'.shape] at h
    simp only [List.append_assoc] at h
    have hshape : w.shape = w'.shape := by
      rcases List.prefix_or_prefix_of_prefix (List.prefix_append _ _)
        (h ▸ List.prefix_append w'.shape.opening.toList _) with hle | hle
      · exact eq_of_opening_isPrefix _ hw.shape _ hw'.shape hle
      · exact (eq_of_opening_isPrefix _ hw'.shape _ hw.shape hle).symm
    rw [hshape, List.append_cancel_left_eq] at h
    have hchild : ∀ c ∈ w.children, c.Legible ∧ Cancels c := fun c hc =>
      ⟨(hw.children c hc).1, ih c.size (hw.children c hc).2 (hw.children c hc).1 rfl⟩
    have hinside : List.Forall₂ SameUpToLabels w.inside w'.inside ∧
        w.arrow ++ (brackets m ++ rest) = w'.arrow ++ (brackets n ++ rest') := by
      have hcases := hshape ▸ closing_cases w
      rcases closing_cases w' with ⟨hc, hi⟩ | ⟨c, hc, hclose⟩
      · have hi' : w.inside = [] := by simpa [hc] using hcases
        rw [hc, hi', hi] at h
        rw [hi', hi]
        exact ⟨.nil, by simpa using h⟩
      · rw [hc] at h
        exact cancel_list hclose (fun c hc => hchild c (inside_subset hc))
          (fun c hc => (hw'.children c (inside_subset hc)).1) h
    obtain ⟨hinside, h⟩ := hinside
    cases hfunction : w.isFunction with
    | true =>
      have hfunction' : w'.isFunction = true := by
        rw [← isFunction_shape, ← hshape, isFunction_shape, hfunction]
      obtain ⟨f, rfl⟩ := exists_of_isFunction hfunction
      obtain ⟨g, rfl⟩ := exists_of_isFunction hfunction'
      obtain rfl := hw.function rfl
      obtain rfl := hw'.function rfl
      obtain ⟨hresult, h⟩ := (hchild f.result (by simp [children])).2 g.result
        (hw'.children _ (by simp [children])).1 rest rest' hrest hrest'
        (by simpa [arrow, brackets] using h)
      have hsame : SameUpToLabels (.function f) (.function g) :=
        ⟨hshape, List.rel_append hinside (.cons hresult .nil)⟩
      rw [hw.eq, hw'.eq]
      exact ⟨hsame.unwrapped, h⟩
    | false =>
      have hfunction' : w'.isFunction = false := by
        rw [← isFunction_shape, ← hshape, isFunction_shape, hfunction]
      rw [inside_eq hfunction, inside_eq hfunction'] at hinside
      rw [arrow_eq hfunction, arrow_eq hfunction'] at h
      obtain ⟨rfl, heq⟩ := brackets_cancel hrest hrest' h
      rw [hw.eq, hw'.eq]
      exact ⟨(SameUpToLabels.intro hshape hinside).unwrapped.arrays m, heq⟩

theorem Alike.of_shape {R : Ty → Ty → Prop} {t u : Ty} (ht : t.shape ∈ .array .unknown :: heads)
    (hshape : t.shape = u.shape) (h : List.Forall₂ R t.children u.children) : Alike R t u := by
  cases t <;> cases u <;> first | cases hshape; done | skip
  case unknown.unknown => exact .unknown
  case named.named => cases hshape; exact .named _
  case applied.applied => cases hshape; exact .applied _ h
  case array.array => cases h with | cons h => exact .array h
  case option.option => cases h with | cons h => exact .option h
  case result.result =>
    cases h with | cons hok h => cases h with | cons herr => exact .result hok herr
  case tuple.tuple => exact .tuple h
  case function.function f g =>
    have hreverse : List.Forall₂ R (f.result :: (f.params.map Param.ty).reverse)
        (g.result :: (g.params.map Param.ty).reverse) := by
      simpa [children] using List.forall₂_reverse_iff.2 h
    cases hreverse with
    | cons hresult hparams =>
      exact .function (by simpa using List.forall₂_reverse_iff.1 hparams) hresult
  case record.record | placeholder.placeholder => simp [shape, heads] at ht

theorem SameUpToLabels.fades {t u : Ty} (ht : t.Legible) (h : SameUpToLabels t u) :
    t.Fades isOpen u := by
  induction t using children_induction generalizing u with
  | h t ih =>
    obtain ⟨hshape, hchildren⟩ := h
    obtain ⟨hplain, hlegible⟩ := legible_iff.1 ht
    refine (Alike.of_shape hplain.1 hshape ?_).fades
    simpa using forall₂_mapped (f := id) (g := id) hchildren fun c hc d _ => ih c hc (hlegible c hc)

end Ty

/-- Legible types with the same text are equal up to labels of parameters, and no mismatch between
them is ever reported. -/
theorem equal_texts_equal_types {t u : Ty} (ht : t.Legible) (hu : u.Legible)
    (h : t.display = u.display) :
    t.SameUpToLabels u ∧ ∀ (registry : Registry) (script : Script) (severity : Severity)
      (range : Range), ⟨severity, .mismatch t u, range⟩ ∉
        (script.validate registry).report.diagnostics := by
  have hsame := (ht.cancels u hu [] [] nofun nofun (by rw [h])).1
  refine ⟨hsame, fun registry script severity range hd => ?_⟩
  have hunambiguous : t.Unambiguous := by
    intro part hpart
    have hshape := (ht part hpart).1
    cases part with
    | record => simp [Ty.shape, Ty.heads] at hshape
    | _ => trivial
  have haccepts := Symbols.accepts_eq_true_iff.2 (Symbols.interchange_of_fades
    (s := (script.validate registry).symbols) hunambiguous (hsame.fades ht)).1
  have hjustified : Diagnostic.Justified (script.validate registry).symbols
      ⟨severity, .mismatch t u, range⟩ := by
    rw [Script.diagnostics_validate, List.mem_append] at hd
    rcases hd with hd | hd
    · exact Script.justified_declarations registry script _ _ hd
    · obtain ⟨x, -, hx⟩ := List.mem_flatMap.1 hd
      exact justified_itemDiagnostics _ x _ hx
  exact Bool.false_ne_true (hjustified.1.1.symm.trans haccepts)

namespace Readings

/-- An asynchronous function of arrays of functions and of a tuple. -/
def schedule (label : String) (hasDefault : Bool) : Ty :=
  .function
    { isAsync := true
      params :=
        [⟨label, .array (.function { params := [⟨label, .unknown, hasDefault⟩], result := .unit }),
            hasDefault⟩,
          ⟨"limit", .tuple [.int, .applied ⟨"", "Cell"⟩ [.option .float]], false⟩]
      result := .array (.result (.tuple []) .string) }

end Readings

open Readings in
/-- The labels of parameters do not show. -/
theorem equal_texts_equal_types_schedule :
    (schedule "tasks" true).Legible ∧ (schedule "jobs" false).Legible ∧
      (schedule "tasks" true).display = (schedule "jobs" false).display ∧
      (schedule "tasks" true).SameUpToLabels (schedule "jobs" false) :=
  ⟨by decide +kernel, by decide +kernel, by decide +kernel,
    (equal_texts_equal_types (by decide +kernel) (by decide +kernel) (by decide +kernel)).1⟩

end ScriptCheck
