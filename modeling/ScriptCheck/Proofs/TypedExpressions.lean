import ScriptCheck.Proofs.ItemEffects

/-!
# Expressions with a recorded type

A check records the type of an expression at its range, whatever else it finds. An expression is
without a type only where it was not checked but inferred: an argument that is a lambda, of a call
about which nothing is known. Brackets around the lambda make no difference
(`exposed_expressions_are_typed`), so that they are without a type as well.

The ranges at which a check records a type for sure are its effect. `Expr.exposed` lists the
subexpressions that are always checked, and `Expr.Shows` says that a range is reached through them.
-/

namespace ScriptCheck

open Check

/-! ## Marked ranges -/

/-- The ranges that have a type recorded. -/
def Marked : Type := Set Range

namespace Marked

instance : Membership Range Marked := inferInstanceAs (Membership Range (Set Range))

/-- A lambda as the argument of a call may be inferred only, so that nothing is recorded in it. -/
instance : Effects Marked where
  one := (∅ : Set Range)
  mul g h := (g ∪ h : Set Range)
  mul_assoc := Set.union_assoc
  one_mul := Set.empty_union
  mul_one := Set.union_empty
  use _ _ := (∅ : Set Range)
  bind _ := (∅ : Set Range)
  jump _ _ := (∅ : Set Range)
  mark r := ({r} : Set Range)
  nest _ g := g
  hide _ := (∅ : Set Range)
  mark_mul r g := Set.union_comm {r} g
  nest_one _ := rfl
  hide_mul g h := Set.union_comm ∅ h

variable {r : Range} {g h : Marked}

@[simp]
theorem not_mem_one : r ∉ (1 : Marked) := Set.notMem_empty r

@[simp]
theorem mem_mul : r ∈ g * h ↔ r ∈ g ∨ r ∈ h := Iff.rfl

@[simp]
theorem mem_mark {range : Range} : r ∈ (Effects.mark range : Marked) ↔ r = range := Iff.rfl

@[simp]
theorem not_mem_hide : r ∉ Effects.hide g := Set.notMem_empty r

end Marked

namespace Expr

/-- The expressions directly below an expression, without arguments of a call that are hidden. -/
def exposed (hidden : Expr → Bool) : Expr → List Expr
  | .call _ _ _ _ args => args.filter fun arg => !hidden arg
  | .methodCall _ target _ args => target :: args.filter fun arg => !hidden arg
  | e => e.children

/-- The range is that of the expression, or of one inside of it that is reached through what is
exposed. -/
inductive Shows (hidden : Expr → Bool) (r : Range) : Expr → Prop
  | here {e : Expr} : r = e.range → Shows hidden r e
  | inside {e x : Expr} : x ∈ e.exposed hidden → Shows hidden r x → Shows hidden r e

variable {r : Range}

theorem mem_effectOfList {es : List Expr} :
    r ∈ (effectOfList es : Marked) ↔ ∃ e ∈ es, r ∈ (e.effect : Marked) := by
  induction es with
  | nil => simp [effectOfList]
  | cons e rest ih => simp [effectOfList, ih]

theorem mem_effectOfArgs {es : List Expr} : r ∈ (effectOfArgs es : Marked) ↔
    ∃ e ∈ es.filter fun arg => !arg.isLambda, r ∈ (e.effect : Marked) := by
  induction es with
  | nil => simp [effectOfArgs]
  | cons e rest ih => cases hlambda : e.isLambda <;> simp [effectOfArgs, hlambda, ih]

theorem mem_effectOfItems {items : List (Ident × Expr)} :
    r ∈ (effectOfItems items : Marked) ↔ ∃ item ∈ items, r ∈ (item.2.effect : Marked) := by
  induction items with
  | nil => simp [effectOfItems]
  | cons item rest ih => simp [effectOfItems, ih]

theorem mem_effect? {e : Option Expr} :
    r ∈ (effect? e : Marked) ↔ ∃ e' ∈ e, r ∈ (e'.effect : Marked) := by
  cases e <;> simp [effect?]

/-- What is exposed is checked. -/
theorem mem_effect_of_exposed {e x : Expr} (hx : x ∈ e.exposed isLambda)
    (h : r ∈ (x.effect : Marked)) : r ∈ (e.effect : Marked) := by
  rw [effect.eq_def]
  refine .inr ?_
  cases e with
  | int | float | bool | string | var | breakLoop | continueLoop => cases hx
  | call => exact .inr (mem_effectOfArgs.2 ⟨x, hx, h⟩)
  | methodCall =>
    obtain rfl | hx := List.mem_cons.1 hx
    · exact .inl h
    · exact .inr (mem_effectOfArgs.2 ⟨x, hx, h⟩)
  | block | array | tuple => exact mem_effectOfList.2 ⟨x, hx, h⟩
  | record =>
    obtain ⟨item, hitem, rfl⟩ := List.mem_map.1 hx
    exact mem_effectOfItems.2 ⟨item, hitem, h⟩
  | returnValue => exact .inr (mem_effect?.2 ⟨x, Option.mem_toList.1 hx, h⟩)
  | ifThen =>
    simp only [exposed, children, List.mem_cons, Option.mem_toList] at hx
    obtain rfl | rfl | hx := hx
    · exact .inl h
    · exact .inr (.inl h)
    · exact .inr (.inr (mem_effect?.2 ⟨x, hx, h⟩))
  | field | unary | bracket =>
    obtain rfl := List.mem_singleton.1 hx
    exact h
  | declare =>
    obtain rfl := List.mem_singleton.1 hx
    exact .inl h
  | assign | lambda =>
    obtain rfl := List.mem_singleton.1 hx
    exact .inr h
  | index | binary | fieldAssign | interval | whileLoop =>
    simp only [exposed, children, List.mem_cons, List.not_mem_nil, or_false] at hx
    obtain rfl | rfl := hx
    · exact .inl h
    · exact .inr h
  | forLoop =>
    simp only [exposed, children, List.mem_cons, List.not_mem_nil, or_false] at hx
    obtain rfl | rfl := hx
    · exact .inl h
    · exact .inr (.inr h)

theorem Shows.mem_effect {e : Expr} (h : e.Shows isLambda r) : r ∈ (e.effect : Marked) := by
  induction h with
  | here hr =>
    rw [effect.eq_def]
    exact .inl hr
  | inside hx _ ih => exact mem_effect_of_exposed hx ih

end Expr

/-! ## Recording types -/

/-- Types stay recorded, and unless the check is muted, those of the marked ranges are recorded in
the end. -/
structure Checker.Records (g : Marked) (c d : Checker) : Prop where
  muted : d.muted = c.muted
  types : ∀ {r}, c.report.types.contains r = true → d.report.types.contains r = true
  marked : c.muted = 0 → ∀ r ∈ g, d.report.types.contains r = true

namespace Checker.Records

variable {g h : Marked} {c d e : Checker}

theorem of_report_eq (hmuted : d.muted = c.muted) (hreport : d.report = c.report) :
    c.Records 1 d :=
  ⟨hmuted, fun hr => hreport ▸ hr, fun _ _ hr => absurd hr Marked.not_mem_one⟩

theorem refl (c : Checker) : c.Records 1 c := of_report_eq rfl rfl

theorem trans (hg : c.Records g d) (hh : d.Records h e) : c.Records (g * h) e where
  muted := hh.muted.trans hg.muted
  types hr := hh.types (hg.types hr)
  marked hmuted r hr := hr.elim (fun hr => hh.types (hg.marked hmuted r hr))
    (hh.marked (hg.muted.trans hmuted) r)

theorem mono (hg : c.Records g d) (hsubset : ∀ r ∈ h, r ∈ g) : c.Records h d :=
  ⟨hg.muted, hg.types, fun hmuted r hr => hg.marked hmuted r (hsubset r hr)⟩

theorem note (entry : Report.Entry) (c : Checker) :
    c.Records 1 ((Check.note (·.add entry)).run c).2 := by
  obtain hc | ⟨-, hc⟩ := note_cases (·.add entry) c <;> rw [hc]
  · exact .refl c
  · exact ⟨rfl, fun hr => Report.contains_types_add hr entry,
      fun _ _ hr => absurd hr Marked.not_mem_one⟩

theorem laws : EffectLaws fun (_ : Nat) (g : Marked) (c d : Checker) => c.Records g d where
  post_refl _ := .refl
  post_trans := trans
  post_write {entry} _ c _ hmuted := by
    have hnote := note entry c
    rwa [run_note, if_pos hmuted] at hnote
  post_use kind name _ c _ := by
    split
    · exact .refl c
    · exact note (.diagnostic ⟨.error, .undefined kind name.name none, name.range⟩) c
  post_jump jump range _ c := by
    split
    · exact .refl c
    · exact note (.diagnostic ⟨.error, .misplaced jump, range⟩) c
  post_declare _ _ _ _ := of_report_eq rfl rfl
  post_again _ _ _ _ := .refl _
  post_mark range ty _ c := by
    have hnote := note (.type range ty) c
    refine ⟨hnote.muted, hnote.types, fun hmuted r hr => ?_⟩
    obtain rfl := Marked.mem_mark.1 hr
    simp [run_note, hmuted, Report.add, Table.contains]
  post_nest h := ⟨h.muted, h.types, h.marked⟩
  post_infer h := ⟨by rw [h.muted]; rfl, h.types, fun _ _ hr => absurd hr Marked.not_mem_hide⟩
  post_hide _ h := h.mono fun _ hr => absurd hr Marked.not_mem_hide

end Checker.Records

/-! ## Items -/

open ScriptCheck.Expr (effectOfList mem_effectOfList mem_effect?)

theorem Marked.mem_prod {r : Range} {gs : List Marked} : r ∈ gs.prod ↔ ∃ g ∈ gs, r ∈ g := by
  induction gs with
  | nil => simp
  | cons g gs ih => simp [ih]

/-- The types of all default values are recorded. -/
theorem Checker.Records.entering {body defaults : Nat} {seen : List String}
    {params : List ParamDecl} {c d : Checker}
    (h : Entering (fun _ (g : Marked) c d => c.Records g d) body defaults seen params c d) :
    c.Records (effectOfList (params.flatMap fun p => p.default.toList)) d := by
  induction h with
  | nil _ c => exact .refl c
  | again _ hdefault _ ih =>
    refine (hdefault.trans ih).mono fun r hr => ?_
    simpa [mem_effectOfList, mem_effect?, or_and_right, exists_or] using hr
  | enter hdefault henter _ ih =>
    refine (hdefault.trans (henter.trans ih)).mono fun r hr => ?_
    simp only [List.flatMap_cons, mem_effectOfList, List.mem_append, Option.mem_toList,
      or_and_right, exists_or] at hr
    exact hr.imp mem_effect?.2 fun hr => .inr (mem_effectOfList.2 hr)

theorem Checker.Records.itemLaws : ItemLaws (fun _ (g : Marked) c d => c.Records g d)
    (fun g c d => c.Records g d) (fun _ => True) Expr.effect
    (fun decl => effectOfList decl.expressions) where
  toEffectLaws := laws
  out_still h := ⟨h.muted, h.report.types, fun _ _ hr => absurd hr Marked.not_mem_one⟩
  out_trans := trans
  out_value _ h := ⟨h.muted, h.types, h.marked⟩
  out_function {_ _ _ _ _} _ hparams hbody := by
    have hend := (entering hparams).trans hbody
    exact ⟨hend.muted, hend.types, fun hmuted r hr => hend.marked hmuted r hr.symm⟩

/-- The types of all expressions of an item are recorded. -/
theorem Item.mem_effect {x : Item} {e : Expr} (he : e ∈ x.expressions) {r : Range}
    (h : r ∈ (e.effect : Marked)) :
    r ∈ (x.effect Expr.effect fun decl => effectOfList decl.expressions : Marked) := by
  cases x with
  | const =>
    obtain rfl := List.mem_singleton.1 he
    exact h
  | struct => exact Marked.mem_prod.2 ⟨_, List.mem_map_of_mem he, h⟩
  | use | typeAlias | function | methods | operators =>
    obtain ⟨decl, hdecl, he⟩ := List.mem_flatMap.1 he
    exact Marked.mem_prod.2 ⟨_, List.mem_map_of_mem hdecl, mem_effectOfList.2 ⟨e, he, h⟩⟩

/-! ## Scripts -/

/-- The outermost expressions of a script: values of constants, bodies of functions, methods and
operators, default values of parameters and fields. -/
def Script.expressions (script : Script) : List Expr := script.items.flatMap Item.expressions

/-- Every expression in a script has a type recorded at its range, unless it is an argument of a
call that is a lambda, possibly in brackets, or stands inside of one. -/
theorem exposed_expressions_are_typed (registry : Registry) (script : Script) {root : Expr}
    (hroot : root ∈ script.expressions) {r : Range} (h : root.Shows Expr.isLambda r) :
    (script.validate registry).report.types.contains r = true := by
  obtain ⟨x, hx, hroot⟩ := List.mem_flatMap.1 hroot
  refine (Checker.Records.itemLaws.items script.items (fun _ _ _ _ => trivial) _).marked rfl r ?_
  exact Marked.mem_prod.2 ⟨_, List.mem_map_of_mem hx, Item.mem_effect hroot h.mem_effect⟩

/-- A range that covers the given bytes of a line. -/
def Range.onLine (start stop : Nat) : Range := ⟨⟨start, 0, start⟩, ⟨stop, 0, stop⟩⟩

/-- The arguments of the call in `unguidedCall`: a lambda in brackets and a number. -/
def unguidedArguments : List Expr :=
  [.bracket (.onLine 12 23) (.lambda (.onLine 13 22) [] (.int (.onLine 21 22) 1)),
    .int (.onLine 25 26) 2]

/-- The script `const c = g((fn() -> 1), 2)`. There is no function `g`. -/
def unguidedCall : Script :=
  { name := "main"
    items :=
      [.const
        { name := ⟨"c", .onLine 6 7⟩, range := .onLine 0 27
          value := .call (.onLine 10 27) none ⟨"g", .onLine 10 11⟩ [] unguidedArguments }] }

/-- The number behind the lambda has a type, even though the call is in error. -/
theorem exposed_expressions_are_typed_unguidedCall :
    (unguidedCall.validate .empty).report.errors.length = 1 ∧
      (unguidedCall.validate .empty).report.types.contains (.onLine 25 26) = true :=
  ⟨by decide +kernel, exposed_expressions_are_typed .empty unguidedCall (List.mem_singleton_self _)
    (.inside (x := .int (.onLine 25 26) 2) (List.mem_singleton_self _) (.here rfl))⟩

/-- Whether an expression is a lambda without brackets around it. -/
def Expr.isBareLambda : Expr → Bool
  | .lambda .. => true
  | _ => false

/-- Brackets are not part of the lambda that they enclose, but they have no type if the lambda is
an argument that is only inferred. -/
theorem brackets_around_lambda_are_untyped :
    ∃ root ∈ unguidedCall.expressions, root.Shows Expr.isBareLambda (.onLine 12 23) ∧
      (unguidedCall.validate .empty).report.types.contains (.onLine 12 23) = false :=
  ⟨_, List.mem_singleton_self _,
    .inside (x := .bracket (.onLine 12 23) _) List.mem_cons_self (.here rfl), by decide +kernel⟩

end ScriptCheck
