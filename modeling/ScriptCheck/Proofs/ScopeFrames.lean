import Mathlib.Algebra.FreeMonoid.Basic
import ScriptCheck.Announcement
import ScriptCheck.Proofs.RegimeExpr

/-!
# What a check does to scopes

While an expression is checked in a scope, variables are declared in this scope and further scopes
are opened inside of it. Nothing else happens to the scopes: `Scopes.Grown` says so, and which names
are declared. These are the names that `let` binds in the expression, unless it stands in a block, a
branch, the body of a loop or a lambda, which have scopes of their own (`Expr.lets`).

All scopes that are used in the course of a check are open. Hence nobody hears the announcements of
`Expr.announced` who listens for scopes that are not.
-/

namespace ScriptCheck

open Check Effects

/-! ## Names that are bound -/

namespace Expr

mutual
/-- The names that an expression declares in its own scope. -/
def lets : Expr → List String
  | .int .. | .float .. | .bool .. | .string .. | .var .. | .breakLoop _ | .continueLoop _
  | .block .. | .lambda .. => []
  | .call _ _ _ _ args => letsOfList args
  | .methodCall _ target _ args => target.lets ++ letsOfList args
  | .field _ target _ => target.lets
  | .index _ target position => target.lets ++ position.lets
  | .unary _ _ operand => operand.lets
  | .binary _ left _ right => left.lets ++ right.lets
  | .declare _ _ binding _ value => value.lets ++ binding.names.map Ident.name
  | .assign _ _ _ value => value.lets
  | .fieldAssign _ target _ _ value => target.lets ++ value.lets
  | .ifThen _ condition _ _ => condition.lets
  | .whileLoop _ condition _ => condition.lets
  | .forLoop _ _ source _ => source.lets
  | .returnValue _ value => lets? value
  | .array _ elements => letsOfList elements
  | .tuple _ items => letsOfList items
  | .record _ items => letsOfItems items
  | .interval _ low high _ => low.lets ++ high.lets
  | .bracket _ inner => inner.lets

/-- The names that the expressions of a list declare. -/
def letsOfList : List Expr → List String
  | [] => []
  | e :: rest => e.lets ++ letsOfList rest

/-- The names that the values of record items declare. -/
def letsOfItems : List (Ident × Expr) → List String
  | [] => []
  | (_, e) :: rest => e.lets ++ letsOfItems rest

/-- The names that an expression declares which may be missing. -/
def lets? : Option Expr → List String
  | none => []
  | some e => e.lets
end

/-- What a lambda declares stays in the lambda, also in brackets. -/
theorem lets_eq_nil_of_isLambda : (e : Expr) → e.isLambda = true → e.lets = []
  | .lambda .., _ => rfl
  | .bracket _ inner, h => lets_eq_nil_of_isLambda inner h
  | .int .., h | .float .., h | .bool .., h | .string .., h | .var .., h | .call .., h
  | .methodCall .., h | .field .., h | .index .., h | .unary .., h | .binary .., h | .block .., h
  | .declare .., h | .assign .., h | .fieldAssign .., h | .ifThen .., h | .whileLoop .., h
  | .forLoop .., h | .breakLoop .., h | .continueLoop .., h | .returnValue .., h | .array .., h
  | .tuple .., h | .record .., h | .interval .., h => by cases h

end Expr

/-- Effects that list the names which are bound in the scope at hand. -/
instance : Effects (FreeMonoid String) where
  use _ _ := 1
  bind name := .of name.name
  jump _ _ := 1
  mark _ := 1
  nest _ _ := 1
  hide _ := 1
  mark_mul _ g := by rw [one_mul, mul_one]
  nest_one _ := rfl
  hide_mul g h := by rw [one_mul, mul_one]

namespace Expr

open FreeMonoid (toList toList_mul)

theorem toList_binds : (names : List Ident) →
    toList (Effects.binds names : FreeMonoid String) = names.map Ident.name
  | [] => rfl
  | name :: rest => by
    have hcons : (Effects.binds (name :: rest) : FreeMonoid String) =
        Effects.bind name * Effects.binds rest :=
      List.prod_cons
    rw [hcons, toList_mul, toList_binds rest]
    rfl

theorem toList_mark_mul (r : Range) (g : FreeMonoid String) :
    toList (Effects.mark r * g) = toList g := rfl

/-- A lambda binds nothing in the scope at hand. -/
theorem toList_eq_nil_of_shut {g : FreeMonoid String} (h : Effects.Shut g) : toList g = [] := by
  induction h with
  | function => rfl
  | mark _ _ ih => exact ih

mutual
theorem toList_effect : (e : Expr) → toList (e.effect : FreeMonoid String) = e.lets
  | .int .. | .float .. | .bool .. | .string .. | .breakLoop _ | .continueLoop _ | .block ..
  | .lambda .. => rfl
  | .var _ module _ => by cases module <;> rfl
  | .call _ module _ _ args => by
    rw [effect, toList_mark_mul, toList_mul, toList_effectOfArgs args]
    cases module <;> rfl
  | .methodCall _ target _ args => by
    rw [effect, toList_mark_mul, toList_mul, toList_effect target, toList_effectOfArgs args]; rfl
  | .field _ e _ | .unary _ _ e | .bracket _ e => by
    rw [effect, toList_mark_mul, toList_effect e]; rfl
  | .index _ e f | .binary _ e _ f | .fieldAssign _ e _ _ f | .interval _ e f _ => by
    rw [effect, toList_mark_mul, toList_mul, toList_effect e, toList_effect f]; rfl
  | .declare _ _ binding _ value => by
    rw [effect, toList_mark_mul, toList_mul, toList_effect value, toList_binds]; rfl
  | .assign _ _ _ value => by rw [effect, toList_mark_mul, toList_mul, toList_effect value]; rfl
  | .ifThen _ e _ _ | .whileLoop _ e _ | .forLoop _ _ e _ => by
    rw [effect, toList_mark_mul, toList_mul, toList_effect e]; exact List.append_nil _
  | .returnValue _ value => by rw [effect, toList_mark_mul, toList_mul, toList_effect? value]; rfl
  | .array _ es | .tuple _ es => by rw [effect, toList_mark_mul, toList_effectOfList es]; rfl
  | .record _ items => by rw [effect, toList_mark_mul, toList_effectOfItems items]; rfl

theorem toList_effectOfList : (es : List Expr) →
    toList (effectOfList es : FreeMonoid String) = letsOfList es
  | [] => rfl
  | e :: rest => by
    rw [effectOfList, toList_mul, toList_effect e, toList_effectOfList rest]; rfl

theorem toList_effectOfArgs : (es : List Expr) →
    toList (effectOfArgs es : FreeMonoid String) = letsOfList es
  | [] => rfl
  | e :: rest => by
    have harg : toList (if e.isLambda then hide e.effect else e.effect : FreeMonoid String) =
        e.lets := by
      split
      · next hlambda => exact (lets_eq_nil_of_isLambda e hlambda).symm
      · exact toList_effect e
    rw [effectOfArgs, toList_mul, harg, toList_effectOfArgs rest]; rfl

theorem toList_effectOfItems : (items : List (Ident × Expr)) →
    toList (effectOfItems items : FreeMonoid String) = letsOfItems items
  | [] => rfl
  | (_, e) :: rest => by
    rw [effectOfItems, toList_mul, toList_effect e, toList_effectOfItems rest]; rfl

theorem toList_effect? : (e : Option Expr) →
    toList (effect? e : FreeMonoid String) = lets? e
  | none => rfl
  | some e => toList_effect e
end

end Expr

/-! ## Scopes that have grown -/

namespace Scopes

theorem size_truncate (s : Scopes) (count : Nat) : (s.truncate count).size = min count s.size :=
  List.length_take

/-- The number of the scope around a scope, and its kind. -/
def frame? (s : Scopes) (i : Nat) : Option (Option Nat × ScopeKind) :=
  (s.scopes[i]?).map fun scope => (scope.parent, scope.kind)

/-- Variables of the given names have been declared in the scope `id`, and further scopes opened
inside of it. -/
structure Grown (id : Nat) (names : List String) (s t : Scopes) : Prop where
  size_le : s.size ≤ t.size
  /-- All other scopes are as before. -/
  others : ∀ i < s.size, i ≠ id → t.scopes[i]? = s.scopes[i]?
  frame : t.frame? id = s.frame? id
  declared : ∀ name, (t.own? id name).isSome ↔ (s.own? id name).isSome ∨ name ∈ names
  /-- Every new scope lies in the scope or in another new one. -/
  fresh : ∀ i ≥ s.size, ∀ scope, t.scopes[i]? = some scope →
    ∃ p, scope.parent = some p ∧ (p = id ∨ s.size ≤ p)

namespace Grown

variable {id : Nat} {names more : List String} {s t u : Scopes}

/-- Names may be listed that are there already. -/
theorem again (h : ∀ name ∈ names, (s.own? id name).isSome = true) : s.Grown id names s where
  size_le := le_rfl
  others _ _ _ := rfl
  frame := rfl
  declared name := (or_iff_left_of_imp (h name)).symm
  fresh i hi scope hscope := by
    rw [List.getElem?_eq_none hi] at hscope
    cases hscope

theorem refl (s : Scopes) : s.Grown id [] s := again (List.forall_mem_nil _)

theorem trans (hid : id < s.size) (h : s.Grown id names t) (h' : t.Grown id more u) :
    s.Grown id (names ++ more) u where
  size_le := h.size_le.trans h'.size_le
  others i hi hne := (h'.others i (hi.trans_le h.size_le) hne).trans (h.others i hi hne)
  frame := h'.frame.trans h.frame
  declared name := by rw [h'.declared, h.declared, List.mem_append, or_assoc]
  fresh i hi scope hscope := by
    rcases Nat.lt_or_ge i t.size with hlt | hge
    · rw [h'.others i hlt (by omega)] at hscope
      exact h.fresh i hi scope hscope
    · obtain ⟨p, hparent, hp⟩ := h'.fresh i hge scope hscope
      exact ⟨p, hparent, hp.imp_right h.size_le.trans⟩

theorem declare (hid : id < s.size) (name : String) (value : Local) :
    s.Grown id [name] (s.declare id name value) where
  size_le := (size_declare ..).ge
  others i _ hne := by simp [scopes_declare, Ne.symm hne]
  frame := by
    rw [frame?, frame?, scopes_declare, Option.map_map]
    refine congrArg (Option.map · _) (funext fun scope => ?_)
    dsimp only [Function.comp]
    split <;> rfl
  declared other := by
    rw [isSome_own?_declare, List.mem_singleton, or_comm]
    simp [hid]
  fresh i hi scope hscope := by
    rw [List.getElem?_eq_none ((size_declare ..).le.trans hi)] at hscope
    cases hscope

/-- What happens in a scope that is opened for it stays there. -/
theorem nested (hid : id < s.size) (kind : ScopeKind)
    (h : (s.push (some id) kind).Grown s.size names t) : s.Grown id [] t where
  size_le := (Nat.le_succ _).trans ((size_push ..).ge.trans h.size_le)
  others i hi _ := by
    rw [h.others i (by rw [size_push]; omega) hi.ne, scopes_push, if_pos hi]
  frame := by
    rw [frame?, frame?, h.others id (by rw [size_push]; omega) hid.ne, scopes_push, if_pos hid]
  declared name := by
    rw [own?, own?, h.others id (by rw [size_push]; omega) hid.ne, scopes_push, if_pos hid]
    simp
  fresh i hi scope hscope := by
    rcases hi.lt_or_eq with hlt | rfl
    · obtain ⟨p, hparent, hp⟩ := h.fresh i (by rw [size_push]; exact hlt) scope hscope
      rw [size_push] at hp
      exact ⟨p, hparent, .inr (by omega)⟩
    · have hframe := h.frame
      rw [frame?, frame?, hscope, scopes_push, if_neg (Nat.lt_irrefl _), if_pos rfl] at hframe
      obtain ⟨hparent, -⟩ := Prod.mk.inj (Option.some.inj hframe)
      exact ⟨id, by simpa [Option.filter, hid] using hparent, .inl rfl⟩

/-- If it is forgotten, nothing has happened. -/
theorem truncate (hid : id < s.size) (h : s.Grown id [] t) : s.Grown id [] (t.truncate s.size) := by
  have hkept (i : Nat) (hi : i < s.size) : (t.truncate s.size).scopes[i]? = t.scopes[i]? := by
    rw [scopes_truncate, if_pos hi]
  refine ⟨?_, fun i hi hne => ?_, ?_, fun name => ?_, fun i hi scope hscope => ?_⟩
  · rw [size_truncate, Nat.min_eq_left h.size_le]
  · rw [hkept i hi, h.others i hi hne]
  · rw [frame?, hkept id hid]
    exact h.frame
  · rw [own?, hkept id hid]
    exact h.declared name
  · rw [scopes_truncate, if_neg (Nat.not_lt.2 hi)] at hscope
    cases hscope

end Grown

end Scopes

/-! ## The regime -/

theorem scopes_error (problem : Problem) (range : Range) (c : Checker) :
    ((error problem range).run c).2.scopes = c.scopes :=
  scopes_note _ c

/-- Every step of a check lets the scopes grow as its effect says. -/
theorem growing_laws : EffectLaws fun id (g : FreeMonoid String) (c d : Checker) =>
    id < c.scopes.size → c.scopes.Grown id g.toList d.scopes where
  post_refl _ c _ := .refl c.scopes
  post_trans {_ g h _ _ _} hg hh hid := by
    have hgrown := hg hid
    rw [FreeMonoid.toList_mul]
    exact hgrown.trans hid (hh (hid.trans_le hgrown.size_le))
  post_write _ c _ _ _ := .refl c.scopes
  post_use _ _ _ c _ _ := by
    split
    · exact .refl c.scopes
    · exact (scopes_error ..).symm ▸ .refl c.scopes
  post_jump _ _ _ c _ := by
    split
    · exact .refl c.scopes
    · exact (scopes_error ..).symm ▸ .refl c.scopes
  post_declare name value _ _ hid := .declare hid name.name value
  post_again name _ _ hown hid := .again fun other hother => by
    obtain rfl := List.mem_singleton.1 hother
    exact hown hid
  post_mark _ _ _ c _ := (scopes_note ..).symm ▸ .refl c.scopes
  post_nest {kind _ id c _} h hid := .nested hid kind (h (by rw [Scopes.size_push]; omega))
  post_infer {_ id c _} h hid :=
    (Scopes.Grown.nested hid .block (h (by
      change _ < (c.scopes.push (some id) .block).size
      rw [Scopes.size_push]
      omega))).truncate hid
  post_hide hshut h hid := by
    have hgrown := h hid
    rwa [Expr.toList_eq_nil_of_shut hshut] at hgrown

/-- A check beside itself. As many scopes are open as the world says, or more, and it is one of them
in which the check stands. -/
def growing : Regime (FreeMonoid String) where
  World := Nat
  rel w c c' := c' = c ∧ w ≤ c.scopes.size
  ids w id id' := id' = id ∧ id < w
  Like v v' := v' = v
  Good _ := True
  Hint _ := True
  Outside _ := True
  Known _ := True
  Twins _ _ := True
  Post id g c d := id < c.scopes.size → c.scopes.Grown id g.toList d.scopes
  toTypeLaws := .of_similar (fun _ => trivial) (fun _ => trivial)
    (fun hv => hv ▸ (View.Agree.refl _).similar) fun hv _ => by rw [hv]
  toStateLaws := {
    like h := by rw [h.1]
    rel_local? name h hid := ⟨by rw [h.1, hid.1], fun _ _ => trivial⟩
    rel_inLoop h hid := by rw [h.1, hid.1]
    rel_returnType? h hid := ⟨by rw [h.1, hid.1], fun _ _ => trivial⟩
    rel_write h _ := ⟨by rw [h.1], (scopes_note ..).symm ▸ h.2⟩
    rel_declare name _ h hid _ _ := ⟨by rw [h.1, hid.1], (Scopes.size_declare ..).symm ▸ h.2⟩
    rel_redeclare name _ _ _ _ h hid d d' hd := by
      rw [h.1, hid.1, hd.1]
      refine ⟨rfl, rfl, ?_⟩
      split
      · exact (scopes_error ..).symm ▸ hd.2
      · exact hd.2
    rel_push {w _ c _ _ _} h hid _ := by
      obtain ⟨rfl, hsize⟩ := h
      obtain ⟨rfl, -⟩ := hid
      refine ⟨c.scopes.size + 1, ⟨rfl, Nat.lt_succ_self _⟩, ⟨rfl, ?_⟩, fun _ _ he => ?_⟩
      · rw [Scopes.size_push]
      · exact ⟨he.1, hsize.trans ((Nat.le_succ _).trans he.2)⟩
    runs_infer _ := Terms.runs_infer_of_enters growing_laws fun {w _ c _ _} h hid => by
      obtain ⟨rfl, hsize⟩ := h
      obtain ⟨rfl, -⟩ := hid
      refine ⟨c.scopes.size + 1, ⟨rfl, Nat.lt_succ_self _⟩, ⟨rfl, ?_⟩, fun e _ he => ?_⟩
      · exact (Scopes.size_push ..).ge
      · refine ⟨by rw [he.1], hsize.trans ?_⟩
        rw [Scopes.size_truncate]
        exact le_min le_rfl ((Nat.le_succ _).trans he.2) }
  toEffectLaws := growing_laws

/-- The announcement of a scope that is open goes unnoticed. -/
theorem growing_wraps {announce : Nat → CheckM Unit}
    (h : ∀ id c, id < c.scopes.size → (announce id).run c = ((), c)) :
    growing.Wraps (Part.announced announce) where
  range _ := rfl
  isLambda _ := rfl
  twins _ := trivial
  check {x g hint m p} hm := by
    rintro _ c ⟨rfl, hc⟩
    obtain ⟨hvalue, ⟨hstate, hsize⟩, hpost⟩ := hm c c ⟨rfl, hc⟩
    obtain ⟨hid, hlt⟩ := x.same
    rw [← hid] at hlt
    have hrun : ((p.announced announce).check x.id' hint).run c = (p.check x.id' hint).run c := by
      have hbefore := h x.id' c (hlt.trans_le hc)
      have hafter := h x.id' ((p.check x.id' hint).run c).2 (hstate ▸ hlt.trans_le hsize)
      change (do
        let ty ← p.check x.id' hint
        announce x.id'
        return ty : CheckM Ty).run ((announce x.id').run c).2 = _
      rw [hbefore]
      have hend : ((announce x.id').run ((p.check x.id' hint).run c).2).2 =
          ((p.check x.id' hint).run c).2 := congrArg Prod.snd hafter
      exact Prod.ext rfl hend
    rw [hrun]
    exact ⟨hvalue, ⟨hstate, hsize⟩, hpost⟩

/-- A check in an open scope uses open scopes only. It keeps the scopes nested, opens further ones
inside of its own scope, declares there the names that the expression binds, and changes nothing
else about the scopes that were there. -/
theorem check_grows (e : Expr) (id : Nat) (hint : Option Ty) (c : Checker)
    (hid : id < c.scopes.size) :
    (∀ announce : Nat → CheckM Unit,
      (∀ i b, i < b.scopes.size → (announce i).run b = ((), b)) →
      ((e.announced announce).check id hint).run c = (e.check id hint).run c) ∧
    Nested ((e.check id hint).run c).2.scopes.scopes ∧
    c.scopes.Grown id e.lets ((e.check id hint).run c).2.scopes := by
  have hsite : growing.ids c.scopes.size id id := ⟨rfl, hid⟩
  have hstart : growing.rel c.scopes.size c c := ⟨rfl, le_rfl⟩
  have hall : growing.Admits e := .of_any rfl (fun _ _ => trivial) fun _ _ => trivial
  refine ⟨fun announce h => ?_, Scopes.nested _, ?_⟩
  · obtain ⟨⟨hvalue, -⟩, ⟨hstate, -⟩, -⟩ :=
      ((growing_wraps h).expr e hall).check ⟨_, id, id, hsite⟩ (fun _ _ => trivial) c c hstart
    exact Prod.ext hvalue hstate
  · obtain ⟨-, -, hgrown⟩ :=
      (growing.expr (fun _ => trivial) hall).check ⟨_, id, id, hsite⟩
        (fun _ _ => trivial) c c hstart
    exact e.toList_effect ▸ hgrown hid

/-- Inside of a function stand a block and, beside it, a loop. -/
def aside : Checker where
  view := { symbols := { registry := .empty, moduleName := "main" } }
  scopes := ((({} : Scopes).push none (.function .unit)).push (some 0) .block).push (some 0) .loop

/-- Every scope is declared in, by a `let` in brackets, a block, a branch, a lambda and a `let` that
fails to take a number apart and uses a name again. -/
def scattered : Expr :=
  let one (name : String) : Expr := .ofLet name (.int {} 1)
  .tuple {}
    [.bracket {} (one "a"),
      .block {} [one "b", .block {} [one "c"]],
      .ifThen {} (.unary {} .not (one "d")) (one "e") (some (one "f")),
      .ofCall "g" [.lambda {} [] (one "h")],
      .declare {} true (.tuple [⟨"i", {}⟩, ⟨"a", {}⟩]) none (.int {} 2)]

/-- Forgets all scopes where one is named that does not exist. -/
def forgetUnless (id : Nat) : CheckM Unit :=
  modify fun c => if id < c.scopes.size then c else { c with scopes := {} }

theorem check_grows_scattered :
    1 < aside.scopes.size ∧
      (∀ i c, i < c.scopes.size → (forgetUnless i).run c = ((), c)) ∧
      ((scattered.announced forgetUnless).check 1 none).run aside =
        (scattered.check 1 none).run aside ∧
      aside.scopes.Grown 1 scattered.lets ((scattered.check 1 none).run aside).2.scopes ∧
      scattered.lets = ["a", "d", "i", "a"] := by
  have hopen (i : Nat) (c : Checker) (hi : i < c.scopes.size) :
      (forgetUnless i).run c = ((), c) := congrArg (Prod.mk ()) (if_pos hi)
  obtain ⟨hannounced, -, hgrown⟩ := check_grows scattered 1 none aside (by decide)
  exact ⟨by decide, hopen, hannounced forgetUnless hopen, hgrown, by decide⟩

end ScriptCheck
