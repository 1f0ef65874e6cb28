import ScriptCheck.Proofs.SimulationExpr

/-!
# Inference

The type of an expression is inferred by checking the expression in silence and in a block of its
own, and by forgetting that block afterwards. Two simulations say what this comes to.

* `confinement`: a check in a scope that was opened after a certain point changes nothing that was
  there before, and while it is muted it writes nothing to the report. Forgetting the scopes opened
  since then restores the state, so that inference leaves no trace (`infer_leaves_no_trace`).
* `absorption`: a check in a block of its own takes the same course as one in the scope around the
  block. What the block declares is seen as if the scope itself had declared it, and that a variable
  of the scope is then declared twice or only hidden makes no difference to any type. Hence
  inference gives the type that checking gives (`infer_type_eq_check_type`).
-/

namespace ScriptCheck

open Check

/-! ## Old scopes -/

namespace Scopes

theorem ext_getElem? {s s' : Scopes} (h : ∀ i : Nat, s.scopes[i]? = s'.scopes[i]?) : s = s' := by
  obtain ⟨scopes, _⟩ := s
  obtain ⟨scopes', _⟩ := s'
  obtain rfl : scopes = scopes' := List.ext_getElem? h
  rfl

theorem truncate_push_of_le {s : Scopes} {mark : Nat} (h : mark ≤ s.size) (parent : Option Nat)
    (kind : ScopeKind) : (s.push parent kind).truncate mark = s.truncate mark := by
  refine ext_getElem? fun i => ?_
  rw [scopes_truncate, scopes_truncate, scopes_push]
  split_ifs <;> first | rfl | omega

theorem truncate_declare {s : Scopes} {mark id : Nat} (h : mark ≤ id) (name : String)
    (value : Local) : (s.declare id name value).truncate mark = s.truncate mark := by
  refine ext_getElem? fun i => ?_
  rw [scopes_truncate, scopes_truncate, scopes_declare]
  by_cases hi : i < mark
  · simp [show id ≠ i by omega]
  · simp [hi]

end Scopes

/-! ## Nothing old is changed -/

/-- The state `c` has come from `start` without a change to the view or to the first `mark` scopes,
and without a word in the report if that was muted. -/
structure Confined (mark : Nat) (start c : Checker) : Prop where
  view : c.view = start.view
  muted : c.muted = start.muted
  report : start.muted ≠ 0 → c.report = start.report
  mark_le : mark ≤ c.scopes.size
  scopes : c.scopes.truncate mark = start.scopes.truncate mark

namespace Confined

variable {mark : Nat} {start c : Checker}

theorem note (h : Confined mark start c) (change : Report → Report) :
    Confined mark start ((Check.note change).run c).2 := by
  rw [run_note]
  dsimp only
  split_ifs with hmuted
  · exact ⟨h.view, h.muted, fun hstart => absurd (h.muted.symm.trans hmuted) hstart, h.mark_le,
      h.scopes⟩
  · exact h

theorem push (h : Confined mark start c) (parent : Option Nat) (kind : ScopeKind) :
    Confined mark start { c with scopes := c.scopes.push parent kind } where
  view := h.view
  muted := h.muted
  report := h.report
  mark_le := by
    rw [Scopes.size_push]
    exact Nat.le_succ_of_le h.mark_le
  scopes := (Scopes.truncate_push_of_le h.mark_le parent kind).trans h.scopes

theorem declare (h : Confined mark start c) {id : Nat} (hid : mark ≤ id) (name : String)
    (value : Local) : Confined mark start { c with scopes := c.scopes.declare id name value } where
  view := h.view
  muted := h.muted
  report := h.report
  mark_le := by
    rw [Scopes.size_declare]
    exact h.mark_le
  scopes := (Scopes.truncate_declare hid name value).trans h.scopes

end Confined

/-- Checking the part in a new scope changes nothing old. -/
def Part.Confined (part : Part) : Prop :=
  ∀ mark start id hint c, mark ≤ id → ScriptCheck.Confined mark start c →
    ScriptCheck.Confined mark start ((part.check id hint).run c).2

/-- What was opened for an inference is forgotten at its end, and nothing else has changed. -/
theorem Part.Confined.state_infer {part : Part} (h : part.Confined) (id : Nat) (hint : Option Ty)
    (c : Checker) : ((infer part id hint).run c).2 = c := by
  have hstart : ScriptCheck.Confined c.scopes.size (c.silenced id) (c.silenced id) :=
    ⟨rfl, rfl, fun _ => rfl, by simp [Checker.silenced], rfl⟩
  have hend := h c.scopes.size _ c.scopes.size hint _ (Nat.le_refl _) hstart
  rw [run_infer]
  dsimp only
  rw [hend.view, hend.muted, hend.report (Nat.succ_ne_zero _), hend.scopes, Checker.silenced,
    Scopes.truncate_push]
  rfl

/-- Both runs are the same, and change nothing but what is new. -/
def confinement : Simulation where
  World := Nat × Checker
  rel w c c' := c = c' ∧ Confined w.1 w.2 c
  ids w id id' := id = id' ∧ w.1 ≤ id
  view := by
    rintro w c _ ⟨rfl, -⟩
    exact .refl _
  note entry := by
    rintro c _ ⟨rfl, h⟩
    exact ⟨rfl, rfl, h.note _⟩
  size := by
    rintro w c _ ⟨rfl, h⟩
    exact ⟨rfl, h.mark_le⟩
  push kind := by
    rintro ⟨rfl, h⟩ hparent
    cases hparent with
    | none => exact ⟨rfl, h.push _ kind⟩
    | some hid => exact ⟨by rw [hid.1], h.push _ kind⟩
  declare name value := by
    rintro ⟨rfl, h⟩ ⟨rfl, hid⟩
    exact ⟨rfl, h.declare hid name value⟩
  redeclare name problem range := by
    rintro ⟨rfl, -⟩ ⟨rfl, -⟩ c _ ⟨rfl, h⟩
    refine ⟨rfl, rfl, ?_⟩
    split
    · exact h.note _
    · exact h
  local? name := by
    rintro ⟨rfl, -⟩ ⟨rfl, -⟩
    rfl
  inLoop := by
    rintro w c _ id _ ⟨rfl, -⟩ ⟨rfl, -⟩
    rfl
  returnType? := by
    rintro w c _ id _ ⟨rfl, -⟩ ⟨rfl, -⟩
    rfl
  infer part hint := by
    rintro hpart ⟨rfl, -⟩ c _ ⟨rfl, h⟩
    have hconfined : part.Confined := fun mark start id hint c hid hc =>
      (hpart (mark, start) id id hint ⟨rfl, hid⟩ ⟨rfl, hc⟩).2.2
    rw [hconfined.state_infer]
    exact ⟨rfl, rfl, h⟩

theorem Expr.confined (e : Expr) : e.part.Confined := fun mark start id hint _ hid hc =>
  (confinement.keeps_part e (mark, start) id id hint ⟨rfl, hid⟩ ⟨rfl, hc⟩).2.2

/-- Inference leaves the checker as it was: the view, the scopes, the report and whether it is
muted. -/
theorem infer_leaves_no_trace (e : Expr) (id : Nat) (hint : Option Ty) (c : Checker) :
    ((e.infer id hint).run c).2 = c :=
  e.confined.state_infer id hint c

/-! ## The block of an inference makes no difference -/

/-- The state of a check in a scope, and of one in a block of its own inside of that scope. What is
in the reports does not matter. -/
structure Absorbed (base : Scopes) (id : Nat) (c c' : Checker) : Prop where
  view : c.view = c'.view
  scopes : base.Split id c.scopes c'.scopes

namespace Absorbed

variable {base : Scopes} {id : Nat} {c c' : Checker}

/-- Each of the checks may complain where the other does not. -/
theorem complain (h : Absorbed base id c c') (here there : Bool) (problem : Problem)
    (range : Range) :
    Absorbed base id ((if here then error problem range else pure ()).run c).2
      ((if there then error problem range else pure ()).run c').2 := by
  have hsilent : ∀ (loud : Bool) (c : Checker),
      ((if loud then error problem range else pure ()).run c).2.view = c.view ∧
        ((if loud then error problem range else pure ()).run c).2.scopes = c.scopes := by
    intro loud c
    cases loud with
    | false => exact ⟨rfl, rfl⟩
    | true =>
      rw [if_pos rfl]
      exact ⟨view_note _ c, scopes_note _ c⟩
  refine ⟨?_, ?_⟩
  · rw [(hsilent here c).1, (hsilent there c').1, h.view]
  · rw [(hsilent here c).2, (hsilent there c').2]
    exact h.scopes

theorem silenced (h : Absorbed base id c c') {i i' : Nat} (hi : base.Moved id i i') :
    Absorbed base id (c.silenced i) (c'.silenced i') :=
  ⟨h.view, h.scopes.push (.some hi) .block⟩

end Absorbed

/-- One run checks in a scope, the other in a block of its own inside of that scope. -/
def absorption : Simulation where
  World := Scopes × Nat
  rel w := Absorbed w.1 w.2
  ids w := w.1.Moved w.2
  view h := by
    rw [h.view]
    exact .refl _
  note entry := by
    intro c c' h
    refine ⟨rfl, ?_, ?_⟩
    · rw [view_note, view_note, h.view]
    · rw [scopes_note, scopes_note]
      exact h.scopes
  size h := Or.inr ⟨h.scopes.base_le, h.scopes.size⟩
  push kind h hparent := ⟨h.view, h.scopes.push hparent kind⟩
  declare name value h hid := ⟨h.view, h.scopes.declare hid name value⟩
  redeclare name problem range _ _ _ _ h := ⟨rfl, h.complain _ _ problem range⟩
  local? name h hid := h.scopes.local?_eq hid name
  inLoop h hid := h.scopes.inLoop_eq hid
  returnType? h hid := h.scopes.returnType?_eq hid
  infer part hint hpart hid := by
    intro c c' h
    have hsize := h.scopes.size
    obtain ⟨htype, h'⟩ := hpart _ _ _ hint (Or.inr ⟨h.scopes.base_le, hsize⟩) (h.silenced hid)
    refine ⟨htype, h'.view, ?_⟩
    rw [run_infer, run_infer]
    dsimp only
    rw [hsize] at h' ⊢
    exact h'.scopes.truncate h.scopes.base_le

/-- Inference gives the type that checking the expression in the same scope gives. -/
theorem infer_type_eq_check_type (e : Expr) {id : Nat} (hint : Option Ty) (c : Checker)
    (hid : id < c.scopes.size) :
    ((e.infer id hint).run c).1 = ((e.check id hint).run c).1 := by
  have hstart : absorption.rel (c.scopes, id) c (c.silenced id) := ⟨rfl, .start hid⟩
  have hsame := absorption.keeps_part e (c.scopes, id) id c.scopes.size hint (Or.inl ⟨rfl, rfl⟩)
  exact (hsame hstart).1.symm

/-- A scope with a variable `x` that holds a text. -/
def textInScope : Checker :=
  { view := { symbols := { registry := .empty, moduleName := "main" } }
    scopes := (({} : Scopes).push none .block).declare 0 "x" { ty := Ty.string } }

/-- The tuple of `let x = 1` and `x`. -/
def redeclaration : Expr := .tuple {} [.ofLet "x" (.int {} 1), .ofName "x"]

/-- Checking complains that `x` is declared twice and inference hides the first one. Both find that
`x` is a number. -/
theorem infer_type_eq_check_type_redeclaration :
    0 < textInScope.scopes.size ∧
      ((redeclaration.infer 0 none).run textInScope).1 = .tuple [Ty.unit, Ty.int] ∧
      ((redeclaration.infer 0 none).run textInScope).1 =
        ((redeclaration.check 0 none).run textInScope).1 :=
  ⟨by decide, rfl, infer_type_eq_check_type redeclaration none textInScope (by decide)⟩

end ScriptCheck
