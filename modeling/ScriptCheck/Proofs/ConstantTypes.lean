import ScriptCheck.Proofs.DeclarationOrder

/-!
# Constants have one type

A constant without a type has the type of its value. The first pass infers it in silence against
the constants that were entered so far, the second pass finds it by checking the value against all
constants. They find the same if the value mentions neither the constant itself nor a later one
(`const_type_eq`).

The argument is the partial simulation `weakening` of two checks whose symbols differ in constants
that are not mentioned.
-/

namespace ScriptCheck

open Check

/-! ## Constants that are not mentioned -/

/-- Two checks in the same scopes that see the same, apart from constants with other names. What is
in the reports does not matter. -/
structure Weakened (knows : String → Prop) (c c' : Checker) : Prop where
  view : c.view.Similar c'.view
  constants : ∀ name, knows name →
    c.view.symbols.constants.get? name = c'.view.symbols.constants.get? name
  scopes : c.scopes = c'.scopes

namespace Weakened

variable {knows : String → Prop} {c c' : Checker}

theorem note (h : Weakened knows c c') (entry : Report.Entry) :
    Weakened knows ((Check.note (·.add entry)).run c).2 ((Check.note (·.add entry)).run c').2 := by
  refine ⟨?_, ?_, ?_⟩
  · rw [view_note, view_note]
    exact h.view
  · rw [view_note, view_note]
    exact h.constants
  · rw [scopes_note, scopes_note, h.scopes]

theorem lockstep : Lockstep fun _ : Unit => Weakened knows where
  scopes h := h.scopes
  note entry h := h.note entry
  change f h := { h with scopes := congrArg f h.scopes }
  mute _ := ⟨(), fun h => { h with }, fun h => { h with }⟩

end Weakened

/-- Two checks that see the same constants with known names. -/
def weakening (knows : String → Prop) : PartialSimulation :=
  Weakened.lockstep.partialSimulation knows (fun h => h.view) fun h hname => h.constants _ hname

/-- At module level, inference gives the type that a check gives. -/
theorem Declare.inferred_eq_rootType (s : Symbols) (value : Expr) :
    inferred s value = ((rootType none value.part).run { view := { symbols := s } }).1 := by
  let c : Checker := { view := { symbols := s }, scopes := ({} : Scopes).push none .block }
  have hopen : 0 < c.scopes.size := by
    rw [Scopes.size_push]
    exact Nat.succ_pos _
  have hstart : absorption.rel (c.scopes, 0) c (c.silenced 0) := ⟨rfl, .start hopen⟩
  have hsame := absorption.keeps_part value (c.scopes, 0) 0 c.scopes.size none (Or.inl ⟨rfl, rfl⟩)
  exact (hsame hstart).1.symm

/-- The type of a value is decided by the constants that it mentions. -/
theorem Check.rootType_congr (value : Expr) {c c' : Checker}
    (h : Weakened (· ∈ value.mentions) c c') :
    ((rootType none value.part).run c).1 = ((rootType none value.part).run c').1 := by
  have hsame : Sim (Weakened (· ∈ value.mentions)) (rootType none value.part)
      (rootType none value.part) :=
    (weakening _).openScope (w := ()) .none .block fun id id' hid =>
      (weakening _).keeps_mentions value (fun _ hname => hname) () id id' none hid
  exact (hsame h).1

/-! ## The constants of the first pass -/

/-- The name of a constant. -/
def Item.constName? : Item → Option String
  | .const decl => some decl.name.name
  | .use _ | .function _ | .struct _ | .typeAlias _ | .methods _ | .operators _ => none

/-- The names of the constants among the items. -/
def constNames (xs : List Item) : List String := xs.filterMap Item.constName?

/-- The symbols differ only in constants with the given names. -/
structure Symbols.WithConstants (names : List String) (s t : Symbols) : Prop where
  others : t = { s with constants := t.constants }
  constants : ∀ name ∉ names, t.constants.get? name = s.constants.get? name

namespace Symbols.WithConstants

variable {names names' : List String} {s t u : Symbols}

theorem trans (h : WithConstants names s t) (h' : WithConstants names' t u) :
    WithConstants (names ++ names') s u where
  others := by rw [h'.others, h.others]
  constants name hname := by
    rw [List.mem_append, not_or] at hname
    rw [h'.constants name hname.2, h.constants name hname.1]

theorem similar (h : WithConstants names s t) : s.Similar t := by
  rw [h.others]
  exact { (Symbols.Agree.refl s).toSimilar with }

end Symbols.WithConstants

namespace Declare

theorem symbols_after_const (decl : ConstDecl) (d : Declarations) :
    (after (const decl) d).symbols =
      if d.symbols.constants.contains decl.name.name then d.symbols
      else
        { d.symbols with
          constants :=
            d.symbols.constants.insert decl.name.name (constValue decl d.symbols) } := by
  rw [const, after_enterNew]
  split <;> rfl

theorem withConstants_constItem (x : Item) (d : Declarations) :
    Symbols.WithConstants (constNames [x]) d.symbols (after (constItem x) d).symbols := by
  cases x with
  | const decl =>
    change Symbols.WithConstants [decl.name.name] d.symbols (after (const decl) d).symbols
    rw [symbols_after_const]
    split
    · exact ⟨rfl, fun _ _ => rfl⟩
    · refine ⟨rfl, fun name hname => Table.get?_insert_of_ne _ (fun heq => ?_) _⟩
      exact hname (List.mem_singleton.2 heq)
  | use | function | struct | typeAlias | methods | operators => exact ⟨rfl, fun _ _ => rfl⟩

theorem withConstants_each : (xs : List Item) → (d : Declarations) →
    Symbols.WithConstants (constNames xs) d.symbols (after (each constItem xs) d).symbols
  | [], _ => ⟨rfl, fun _ _ => rfl⟩
  | x :: xs, d => by
    have hsplit : constNames (x :: xs) = constNames [x] ++ constNames xs :=
      List.filterMap_append (l := [x])
    rw [hsplit]
    exact (withConstants_constItem x d).trans (withConstants_each xs (after (constItem x) d))

/-- Between the imports and the constants no constant is entered. -/
theorem constants_afterPhase (xs : List Item) (phase : Phase) (himports : phase ≠ .imports)
    (hconstants : phase ≠ .constants) (d : Declarations) :
    (afterPhase xs phase d).symbols.constants = d.symbols.constants := by
  refine symbols_induction (I := fun s => s.constants = d.symbols.constants)
    (fun hentry hd => ?_) rfl
  cases hentry with
  | importedConstant | importedFunction | importedType | module => exact absurd rfl himports
  | constant => exact absurd rfl hconstants
  | struct | fields | typeAlias | function | method | operator => exact hd

end Declare

section Declared

variable {registry : Registry} {script : Script} {earlier later : List Item} {decl : ConstDecl}

theorem Script.constants_declaredUpTo_functions (registry : Registry) (script : Script) :
    (script.declaredUpTo registry .functions).symbols.constants =
      (script.declaredUpTo registry .imports).symbols.constants :=
  calc
    _ = (script.declaredUpTo registry .types).symbols.constants :=
      Declare.constants_afterPhase _ .functions nofun nofun _
    _ = (script.declaredUpTo registry .structs).symbols.constants :=
      Declare.constants_afterPhase _ .types nofun nofun _
    _ = _ := Declare.constants_afterPhase _ .structs nofun nofun _

/-- A constant whose name is not taken is entered when at most this constant and later ones are
missing. -/
theorem Script.exists_constValue (hitems : script.items = earlier ++ .const decl :: later)
    (hnames : (constNames script.items).Nodup)
    (himport : (script.declaredUpTo registry .imports).symbols.constants.contains
      decl.name.name = false) :
    ∃ s,
      Symbols.WithConstants (decl.name.name :: constNames later) s
        (script.declarations registry).symbols ∧
      (script.declarations registry).symbols.constants.get? decl.name.name =
        some (Declare.constValue decl s) := by
  have hsplit : constNames script.items =
      constNames earlier ++ decl.name.name :: constNames later := by
    rw [hitems]
    exact List.filterMap_append
  rw [hsplit, List.nodup_middle, List.nodup_cons, List.mem_append, not_or] at hnames
  obtain ⟨⟨hearlier, hlater⟩, -⟩ := hnames
  let here := Declare.after (Declare.each Declare.constItem earlier)
    (script.declaredUpTo registry .functions)
  let there := Declare.after (Declare.const decl) here
  have hend : script.declarations registry =
      Declare.after (Declare.each Declare.constItem later) there := by
    change Declare.after (Declare.each Declare.constItem script.items)
      (script.declaredUpTo registry .functions) = _
    rw [hitems, Declare.after_each_append]
    rfl
  have hnew : here.symbols.constants.contains decl.name.name = false := by
    rw [Table.contains, (Declare.withConstants_each earlier _).constants _ hearlier,
      constants_declaredUpTo_functions]
    exact himport
  have hentered := Declare.symbols_after_const decl here
  rw [hnew, if_neg Bool.false_ne_true] at hentered
  have hrest := Declare.withConstants_each later there
  rw [← hend] at hrest
  refine ⟨here.symbols, ?_, ?_⟩
  · exact (Declare.withConstants_constItem (.const decl) here).trans hrest
  · rw [hrest.constants _ hlater]
    change (Declare.after (Declare.const decl) here).symbols.constants.get? _ = _
    rw [hentered]
    exact Table.get?_insert_self _ _ _

end Declared

/-! ## What the second pass shows -/

/-- The report shows the type of a constant: in its hover text, and in a hint if it is known. -/
structure Report.Shows (r : Report) (decl : ConstDecl) (ty : Ty) : Prop where
  hover : r.hover.get? decl.name.range = some (decl.name.name ++ ": " ++ ty.display ++
    (if decl.description.isEmpty then "" else "\n\n" ++ decl.description))
  hint : ty.isUnknown = false → ⟨decl.name.range.stop, ": " ++ ty.display⟩ ∈ r.hints

theorem Check.const_eq {decl : ConstDecl} (htype : decl.type = none) :
    const Expr.part decl = rootType none decl.value.part >>= showConst decl true := by
  unfold const
  rw [htype]
  rfl

theorem Check.shows_showConst (decl : ConstDecl) (ty : Ty) {c : Checker} (hmuted : c.muted = 0) :
    ((showConst decl true ty).run c).2.report.Shows decl ty := by
  obtain ⟨view, scopes, report, muted⟩ := c
  obtain rfl : muted = 0 := hmuted
  unfold showConst
  rw [if_pos rfl]
  split
  · rename_i hunknown
    exact ⟨Table.get?_insert_self _ _ _, fun hknown => absurd (hknown.symm.trans hunknown) nofun⟩
  · exact ⟨Table.get?_insert_self _ _ _,
      fun _ => List.mem_append_right _ List.mem_cons_self⟩

/-- A constant without a type is shown with the type of its value. -/
theorem Rooted.shows_const {s : Symbols} {c : Checker} (h : Rooted s c) {decl : ConstDecl}
    (htype : decl.type = none) :
    ((const Expr.part decl).run c).2.report.Shows decl
      ((rootType none decl.value.part).run c).1 := by
  have hstart : Confined 0 c c := ⟨rfl, rfl, fun _ => rfl, Nat.zero_le _, rfl⟩
  have hsame : Sim (confinement.rel (0, c)) (rootType none decl.value.part)
      (rootType none decl.value.part) :=
    confinement.openScope .none .block fun id id' hid =>
      confinement.keeps_part decl.value (0, c) id id' none hid
  have hmuted : ((rootType none decl.value.part).run c).2.muted = 0 :=
    (hsame ⟨rfl, hstart⟩).2.2.muted.trans h.muted
  rw [const_eq htype]
  exact shows_showConst decl _ hmuted

/-! ## One type -/

/-- The type that the first pass enters for a constant is the one that the second pass finds and
shows when it comes to the constant, if the value mentions neither the constant itself nor a later
one. -/
theorem const_type_eq (registry : Registry) (script : Script) {earlier later : List Item}
    {decl : ConstDecl} (hitems : script.items = earlier ++ .const decl :: later)
    (htype : decl.type = none) (hnames : (constNames script.items).Nodup)
    (himports : ∀ name ∈ constNames script.items,
      (script.declaredUpTo registry .imports).symbols.constants.contains name = false)
    (hvalue : ∀ name ∈ decl.value.mentions,
      name ≠ decl.name.name ∧ name ∉ constNames later) :
    ∃ constant, (script.validate registry).symbols.constants.get? decl.name.name = some constant ∧
      ((rootType none decl.value.part).run (script.checker registry earlier)).1 = constant.ty ∧
      ((const Expr.part decl).run (script.checker registry earlier)).2.report.Shows decl
        constant.ty ∧
      (script.validate registry).report =
        ((items Expr.part later).run (closeScopes.run
          ((const Expr.part decl).run (script.checker registry earlier)).2).2).2.report.finish := by
  have hmem : decl.name.name ∈ constNames script.items := by
    rw [hitems]
    exact List.mem_filterMap.2 ⟨.const decl, by simp, rfl⟩
  obtain ⟨s, hadded, hconstant⟩ := Script.exists_constValue hitems hnames (himports _ hmem)
  have hroot := script.rooted_checker registry earlier
  -- the first pass infers the type in symbols that lack at most this constant and later ones
  have hweak : Weakened (· ∈ decl.value.mentions) { view := { symbols := s } }
      (script.checker registry earlier) := by
    refine ⟨?_, fun name hname => ?_, hroot.scopes.symm⟩
    · rw [hroot.view]
      exact ⟨hadded.similar, rfl⟩
    · rw [hroot.view]
      refine (hadded.constants name fun hmem => ?_).symm
      rcases List.mem_cons.1 hmem with rfl | hlater
      · exact (hvalue _ hname).1 rfl
      · exact (hvalue name hname).2 hlater
  have htypes : ((rootType none decl.value.part).run (script.checker registry earlier)).1 =
      (Declare.constValue decl s).ty := by
    rw [Declare.constValue, Declare.constType, htype, Declare.inferred_eq_rootType]
    exact (rootType_congr decl.value hweak).symm
  have hreport := script.report_validate registry hitems
  refine ⟨_, hconstant, htypes, ?_, hreport⟩
  rw [← htypes]
  exact hroot.shows_const htype

/-- The constant `total = { let n = twice(first); [n] }`. -/
def total : ConstDecl :=
  .ofValue "total"
    (.block {} [.ofLet "n" (.ofCall "twice" [.ofName "first"]), .array {} [.ofName "n"]])

/-- The script `const first = 1`, the constant `total`, `const last = total` and
`fn twice(n : int) -> int = n`. -/
def totals : Script :=
  .ofItems
    [.const (.ofValue "first" (.int {} 1)), .const total,
      .const (.ofValue "last" (.ofName "total")),
      .function (.ofBody "twice" [.ofType "n" (.plain "int")] "int" (.ofName "n"))]

/-- Both passes find that `total` is an array of numbers. -/
theorem const_type_eq_totals :
    total.value.mentions = ["twice", "first", "n"] ∧
      ((totals.validate .empty).symbols.constants.get? "total").map Value.ty =
        some (.array .int) ∧
      ∃ constant, (totals.validate .empty).symbols.constants.get? "total" = some constant ∧
        ((rootType none total.value.part).run (totals.checker .empty (totals.items.take 1))).1 =
          constant.ty ∧
        ((const Expr.part total).run
          (totals.checker .empty (totals.items.take 1))).2.report.Shows total
          constant.ty := by
  have hitems : totals.items = totals.items.take 1 ++ .const total :: totals.items.drop 2 := rfl
  obtain ⟨constant, hconstant, hty, hshows, -⟩ := const_type_eq .empty totals hitems rfl
    (by decide +kernel) (by decide +kernel) (by decide +kernel)
  exact ⟨by decide +kernel, by decide +kernel, constant, hconstant, hty, hshows⟩

end ScriptCheck
