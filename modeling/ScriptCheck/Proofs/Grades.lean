import ScriptCheck.Proofs.FewerBindings

/-!
# How far types may differ

Two checks of one expression start from states in which some local variables have faded types in
the second one. An `Outlook` says of each name how far its types may differ, and `Expr.grade?` then
says of an expression how far the types that the two checks find may differ. It gives no grade to an
expression in which a type that is less precise may lead to another type, or to none:

* types are taken from the left, so that of the elements of an array, and of the arguments of a
  function that may be generic, only the last one may be vague;
* a type that is expected steers what is found, so that a value which is expected to be of a vague
  type must not depend on that (`Expr.hintFree`);
* operators choose between overloads and callees bind generic parameters by the whole type, so that
  it must be the same there or lost altogether;
* the types of two branches are joined, so that nothing remains known if one of them is vague;
* a library may accept a type by its parts, and then no type may be known in parts only
  (`Registry.isFlat`).
-/

namespace ScriptCheck

/-! ## Grades -/

/-- How far the types that two checks find may differ. -/
inductive Grade where
  /-- They are the same. -/
  | same
  /-- They are the same, or the second one is not known. -/
  | lost
  /-- Parts of the second one are not known. -/
  | faded
  /-- They may have nothing to do with each other. -/
  | loose
deriving DecidableEq

namespace Grade

def rank : Grade → Nat
  | same => 0
  | lost => 1
  | faded => 2
  | loose => 3

instance : LE Grade := ⟨fun g h => g.rank ≤ h.rank⟩

instance (g h : Grade) : Decidable (g ≤ h) := inferInstanceAs (Decidable (g.rank ≤ h.rank))

instance : Max Grade := ⟨fun g h => if g ≤ h then h else g⟩

theorem le_max_right (g h : Grade) : h ≤ max g h := by
  cases g <;> cases h <;> decide

theorem max_eq_same {g h : Grade} : max g h = same ↔ g = same ∧ h = same := by
  cases g <;> cases h <;> decide

/-- The types differ no further than the grade says. -/
def Allows : Grade → Ty → Ty → Prop
  | same, a, b => b = a
  | lost, a, b => b = a ∨ b = .unknown
  | faded, a, b => a.Fades Ty.isUnknown b
  | loose, _, _ => True

instance : (g : Grade) → (a b : Ty) → Decidable (g.Allows a b)
  | same, a, b => inferInstanceAs (Decidable (b = a))
  | lost, a, b => inferInstanceAs (Decidable (b = a ∨ b = .unknown))
  | faded, a, b => inferInstanceAs (Decidable (a.Fades Ty.isUnknown b))
  | loose, _, _ => inferInstanceAs (Decidable True)

theorem Allows.refl (g : Grade) (a : Ty) : g.Allows a a := by
  cases g with
  | same => rfl
  | lost => exact .inl rfl
  | faded => exact Ty.Fades.refl _ a
  | loose => trivial

theorem Allows.mono {g h : Grade} {a b : Ty} (hgh : g ≤ h) (hab : g.Allows a b) : h.Allows a b := by
  cases h with
  | loose => trivial
  | same =>
    cases g with
    | same => exact hab
    | _ => exact absurd hgh (by decide)
  | lost =>
    cases g with
    | same => exact .inl hab
    | lost => exact hab
    | _ => exact absurd hgh (by decide)
  | faded =>
    cases g with
    | same => exact hab ▸ Ty.Fades.refl _ b
    | lost =>
      rcases hab with rfl | rfl
      · exact Ty.Fades.refl _ b
      · exact Ty.Fades.of_hole rfl
    | faded => exact hab
    | loose => exact absurd hgh (by decide)

/-- The grade of a type that is put together from parts of the given grades. -/
def whole (parts : List Grade) : Grade :=
  if parts.all (· == same) then same else if parts.all (decide <| · ≤ faded) then faded else loose

theorem whole_ne_lost (parts : List Grade) : whole parts ≠ lost := by
  unfold whole
  split
  · decide
  · split <;> decide

theorem le_whole {parts : List Grade} {g : Grade} (hg : g ∈ parts) : g ≤ whole parts := by
  unfold whole
  split_ifs with hsame hfaded
  · rw [beq_iff_eq.1 (List.all_eq_true.1 hsame g hg)]
    exact Nat.le_refl _
  · exact of_decide_eq_true (List.all_eq_true.1 hfaded g hg)
  · cases g <;> decide

end Grade

/-! ## The library -/

/-- Whether the type is a plain name. -/
def Ty.isNamed : Ty → Bool
  | .named _ => true
  | _ => false

/-- Whether the library accepts by description only types that are plain names. -/
def Registry.isFlat (r : Registry) : Bool :=
  (Library.Prelude.types ++ r.modules.entries.flatMap fun m => m.2.types).all fun info =>
    info.assignableFrom.all fun source => (source.resolve r {}).isNamed

theorem Registry.flat_of_isFlat {r : Registry} (h : r.isFlat = true) : r.Flat := by
  have hinfo {q : QName} {info : Library.TypeInfo} (hq : r.type? q = some info) :
      ∀ source ∈ info.assignableFrom, ∃ p, source.resolve r {} = .named p := by
    have hmem : info ∈ Library.Prelude.types ++ r.modules.entries.flatMap fun m => m.2.types := by
      rw [type?] at hq
      split at hq
      · exact List.mem_append_left _ (List.mem_of_find?_eq_some hq)
      · obtain ⟨m, hm, htype⟩ := Option.bind_eq_some_iff.1 hq
        refine List.mem_append_right _ (List.mem_flatMap.2 ⟨_, Table.mem_entries_of_get? hm, ?_⟩)
        exact List.mem_reverse.1 (List.mem_of_find?_eq_some htype)
    intro source hsource
    have hnamed := List.all_eq_true.1 (List.all_eq_true.1 h info hmem) source hsource
    cases hresolve : source.resolve r {} with
    | named p => exact ⟨p, rfl⟩
    | _ => rw [hresolve] at hnamed; cases hnamed
  intro t info ht
  cases t with
  | named q => exact hinfo ht
  | applied q args => exact hinfo ht
  | _ => cases ht

instance (t : Ty) : Decidable t.Rigid := inferInstanceAs (Decidable (_ = _))

/-- Whether the function of that name, if there is one, has no generic parameters. The constructor
functions do. -/
def Symbols.plainCallee (s : Symbols) (module : Option Ident) (name : Ident) : Bool :=
  match module with
  | some m => (s.function? (some m.name) name.name none).all fun f => decide f.ty.Rigid
  | none =>
    !constructorNames.contains name.name &&
      match s.constant? none name.name with
      | some c => decide c.ty.Rigid
      | none => (s.function? none name.name none).all fun f => decide f.ty.Rigid

/-! ## Outlooks -/

/-- What is known about the local variables in both checks. -/
structure Outlook where
  symbols : Symbols
  /-- How far the types of a local variable may differ. A name without a grade is not that of a
  local variable. -/
  var? : String → Option Grade

/-- An argument of a call. -/
structure Sketch where
  isLambda : Bool
  grade : Grade
  /-- Whether it does not matter which type is expected of it. -/
  free : Bool

namespace Outlook

/-- Whether a value of this grade is accepted by the second check if it is by the first one. -/
def fits (o : Outlook) (g : Grade) : Bool :=
  decide (g ≤ .lost) || (g == .faded && o.symbols.registry.isFlat)

/-- Whether a binding may bind a value of this grade. -/
def binds (o : Outlook) (binding : Binding) (g : Grade) : Bool :=
  (binding.names.all fun name => (o.var? name.name).any fun h => decide (g ≤ h)) &&
    match binding with
    | .single _ => true
    | .tuple _ => decide (g ≤ .faded)

/-- What is found from values one after the other, of which only the last one may be vague. -/
def leading (vague : Grade → Bool) (grades : List Grade) : Option Grade :=
  if grades.all (· == .same) then some .same
  else if grades.dropLast.all (· == .same) && grades.getLast?.all vague then some .faded
  else none

/-- The grades of arguments in the order in which they are checked. Lambdas come last. -/
def order (args : List Sketch) : List Grade :=
  (args.filter (·.isLambda == false)).map Sketch.grade ++
    (args.filter (·.isLambda == true)).map Sketch.grade

/-- The grade of a call of a function that may be generic. -/
def arguments? (o : Outlook) (args : List Sketch) : Option Grade :=
  leading (fun g => decide (g ≤ .lost) && o.symbols.registry.isFlat) (order args)

/-- The grade of a call, given that of the callee. -/
def callOf? (o : Outlook) (callee : Grade) (args : List Sketch) : Option Grade :=
  match callee with
  | .same => o.arguments? args
  | .lost =>
    if args.all fun arg => arg.isLambda || arg.free then (o.arguments? args).map (max .lost)
    else none
  | _ => none

/-- The grade of a call of a function by its name. -/
def call? (o : Outlook) (module : Option Ident) (name : Ident) (args : List Sketch) :
    Option Grade :=
  match module.elim (o.var? name.name) fun _ => none with
  | some g => o.callOf? g args
  | none =>
    if o.symbols.plainCallee module name then
      if args.all fun arg => o.fits arg.grade then some .same else none
    else o.arguments? args

/-- Whether a value may be assigned, given the grade of what it is assigned to. -/
def assigns (o : Outlook) (target : Grade) (op : Option Operator) (value : Sketch) : Bool :=
  match op with
  | some _ => decide (target ≤ .lost) && decide (value.grade ≤ .lost)
  | none => (target == .same || (value.free && o.fits target)) && o.fits value.grade

end Outlook

/-! ## Grades of expressions -/

namespace Expr

mutual
/-- Whether a check of the expression takes the same course whatever type is expected of it. -/
def hintFree (o : Outlook) : Expr → Bool
  | .int .. | .float .. | .bool .. | .string .. | .var .. | .field .. | .index .. | .unary ..
  | .binary .. | .declare .. | .assign .. | .fieldAssign .. | .whileLoop .. | .forLoop ..
  | .breakLoop .. | .continueLoop .. | .returnValue .. | .interval .. => true
  | .methodCall .. | .lambda .. | .array .. => false
  | .call _ module name _ _ =>
    (module.isSome || (o.var? name.name).isNone) && o.symbols.plainCallee module name
  | .block _ expressions => hintFreeLast o expressions
  | .ifThen _ _ thenBranch elseBranch =>
    elseBranch.isNone || (thenBranch.hintFree o && hintFree? o elseBranch)
  | .tuple _ items => hintFreeList o items
  | .record _ items => hintFreeItems o items
  | .bracket _ inner => inner.hintFree o

/-- The same for the last expression of a list. -/
def hintFreeLast (o : Outlook) : List Expr → Bool
  | [] => true
  | [e] => e.hintFree o
  | _ :: rest => hintFreeLast o rest

/-- The same for all expressions of a list. -/
def hintFreeList (o : Outlook) : List Expr → Bool
  | [] => true
  | e :: rest => e.hintFree o && hintFreeList o rest

/-- The same for all items of a record. -/
def hintFreeItems (o : Outlook) : List (Ident × Expr) → Bool
  | [] => true
  | (_, e) :: rest => e.hintFree o && hintFreeItems o rest

/-- The same for an expression that may be missing. -/
def hintFree? (o : Outlook) : Option Expr → Bool
  | none => true
  | some e => e.hintFree o
end

mutual
/-- How far the types of the expression in two checks may differ, if that can be told. -/
def grade? (o : Outlook) : Expr → Option Grade
  | .int .. | .float .. | .bool .. | .string .. | .breakLoop .. | .continueLoop .. => some .same
  | .var _ module name =>
    match module with
    | none => some ((o.var? name.name).getD .same)
    | some _ => some .same
  | .call _ module name _ args => do o.call? module name (← sketches? o args)
  | .methodCall _ target _ args => do o.callOf? (← target.grade? o) (← sketches? o args)
  | .field _ target _ => do
    let owner ← target.grade? o
    if owner ≤ .faded then some owner else none
  | .index _ target position => do
    let owner ← target.grade? o
    let index ← position.grade? o
    if owner ≤ .faded ∧ o.fits index then some owner else none
  | .unary _ _ operand => do
    let g ← operand.grade? o
    if g ≤ .lost then some g else none
  | .binary _ left op right => do
    let l ← left.grade? o
    let r ← right.grade? o
    if op.isLogical then if o.fits l ∧ o.fits r then some .same else none
    else if l ≤ .lost ∧ r ≤ .lost then some (max l r) else none
  | .block _ expressions => do
    return ((← sketches? o expressions).getLast?.map Sketch.grade).getD .same
  | .declare _ _ binding type value => do
    let g ← value.grade? o
    if type.isSome then if o.fits g ∧ o.binds binding .same then some .same else none
    else if o.binds binding g then some .same else none
  | .assign _ name op value => do
    let g ← value.grade? o
    if (o.var? name.name).all fun h => o.assigns h op ⟨value.isLambda, g, value.hintFree o⟩ then
      some .same
    else none
  | .fieldAssign _ target _ op value => do
    let h ← target.grade? o
    let g ← value.grade? o
    if h ≤ .faded ∧ o.assigns h op ⟨value.isLambda, g, value.hintFree o⟩ then some .same else none
  | .ifThen _ condition thenBranch elseBranch => do
    let c ← condition.grade? o
    let t ← thenBranch.grade? o
    let e ← optional? o elseBranch
    if o.fits c then
      match e with
      | none => some .same
      | some e => some (if t = .same ∧ e = .same then .same else .loose)
    else none
  | .whileLoop _ condition body => do
    let c ← condition.grade? o
    let _ ← body.grade? o
    if o.fits c then some .same else none
  | .forLoop _ binding source body => do
    let g ← source.grade? o
    let _ ← body.grade? o
    if g ≤ .faded ∧ o.binds binding g then some .same else none
  | .returnValue _ value => do
    if (← optional? o value).all o.fits then some .same else none
  | .lambda _ params body => do
    let g ← body.grade? o
    if o.binds (.tuple (params.map LambdaParam.name)) .same then
      some (Grade.whole [g])
    else none
  | .array _ elements => do Outlook.leading o.fits ((← sketches? o elements).map Sketch.grade)
  | .tuple _ items => do return Grade.whole ((← sketches? o items).map Sketch.grade)
  | .record _ items => do return Grade.whole (← itemGrades? o items)
  | .interval _ low high _ => do
    let l ← low.grade? o
    let h ← high.grade? o
    if o.fits l ∧ o.fits h then some .same else none
  | .bracket _ inner => inner.grade? o

/-- The grades of several expressions, and what else matters if they are arguments of a call. -/
def sketches? (o : Outlook) : List Expr → Option (List Sketch)
  | [] => some []
  | e :: rest => do
    let g ← e.grade? o
    return ⟨e.isLambda, g, e.hintFree o⟩ :: (← sketches? o rest)

/-- The grades of the items of a record. -/
def itemGrades? (o : Outlook) : List (Ident × Expr) → Option (List Grade)
  | [] => some []
  | (_, e) :: rest => do return (← e.grade? o) :: (← itemGrades? o rest)

/-- The grade of an expression that may be missing. -/
def optional? (o : Outlook) : Option Expr → Option (Option Grade)
  | none => some none
  | some e => some <$> e.grade? o
end

end Expr

end ScriptCheck
