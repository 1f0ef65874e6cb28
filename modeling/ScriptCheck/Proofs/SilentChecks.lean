import ScriptCheck.Proofs.RegimeItems

/-!
# Checks that do not touch names and jumps

Most of what a rule does next to checking its parts has nothing to do with plain names and jumps: it
reads the symbols, compares types, marks tokens and complains about other things. Such a computation
is silent: it leaves the complaints about plain names and jumps as they are, and forgets no type
that was recorded.
-/

namespace ScriptCheck

/-! ## Complaints about plain names and jumps -/

/-- An error about a plain name that stands for nothing. -/
def Diagnostic.isUnbound (d : Diagnostic) : Bool := d.isError && d.problem.isUnbound

/-- An error about a jump without a target. -/
def Diagnostic.isMisplaced (d : Diagnostic) : Bool :=
  d.isError && d.problem.category == .invalidControlFlow

namespace Report

/-- The complaints about plain names among all complaints. -/
def unbound (r : Report) : List Diagnostic := r.diagnostics.filter Diagnostic.isUnbound

/-- The complaints about jumps among all complaints. -/
def misplaced (r : Report) : List Diagnostic := r.diagnostics.filter Diagnostic.isMisplaced

/-- Neither plain names nor jumps are complained about, and types stay recorded. -/
structure Alike (r r' : Report) : Prop where
  unbound : r'.unbound = r.unbound
  misplaced : r'.misplaced = r.misplaced
  types : ∀ {range}, r.types.contains range = true → r'.types.contains range = true

theorem Alike.refl (r : Report) : r.Alike r := ⟨rfl, rfl, id⟩

theorem Alike.trans {r r' r'' : Report} (h : r.Alike r') (h' : r'.Alike r'') : r.Alike r'' :=
  ⟨h'.unbound.trans h.unbound, h'.misplaced.trans h.misplaced, fun hr => h'.types (h.types hr)⟩

/-- A type that is recorded stays recorded, though it may change. -/
theorem contains_types_add {r : Report} {range : Range} (h : r.types.contains range = true)
    (entry : Entry) : (r.add entry).types.contains range = true := by
  cases entry with
  | type range ty =>
    simp only [Table.contains, add, Table.get?_insert] at h ⊢
    split
    · rfl
    · exact h
  | diagnostic | token | hint | definition | hover => exact h

theorem alike_add {entry : Report.Entry} (h : entry.isTyped = true) (r : Report) :
    r.Alike (r.add entry) := by
  have htypes {range} (hr : r.types.contains range = true) := contains_types_add hr entry
  cases entry with
  | token | hint | definition | hover | type => exact ⟨rfl, rfl, htypes⟩
  | diagnostic d =>
    have hproblem : d.problem.isTyped = true := h
    have hunbound : d.problem.isUnbound = false := by
      cases hd : d.problem <;> simp_all [Problem.isTyped, Problem.isUnbound]
    have hmisplaced : d.problem.category ≠ .invalidControlFlow := by
      cases hd : d.problem <;> simp_all [Problem.isTyped, Problem.category]
    exact ⟨by simp [unbound, add, Diagnostic.isUnbound, hunbound],
      by simp [misplaced, add, Diagnostic.isMisplaced, hmisplaced], htypes⟩

end Report

theorem Check.run_error {c : Checker} (hmuted : c.muted = 0) (problem : Problem) (range : Range) :
    ((error problem range).run c).2 =
      { c with report := c.report.add (.diagnostic ⟨.error, problem, range⟩) } :=
  if_pos hmuted

/-! ## Silence -/

/-- Whether names or jumps may be complained about. -/
inductive Noise where
  | silent
  | loud

instance : Effects Noise where
  one := .silent
  mul
    | .silent, n => n
    | .loud, _ => .loud
  mul_assoc a b c := by cases a <;> rfl
  one_mul _ := rfl
  mul_one a := by cases a <;> rfl
  use _ _ := .loud
  bind _ := .silent
  jump _ _ := .loud
  mark _ := .silent
  mark_mul _ n := by cases n <;> rfl
  nest _ n := n
  hide n := n
  nest_one _ := rfl
  hide_mul a b := by cases a <;> cases b <;> rfl

/-- Nothing has changed that matters to names and jumps, scopes apart. -/
structure Checker.Still (c d : Checker) : Prop where
  symbols : d.view.symbols = c.view.symbols
  muted : d.muted = c.muted
  report : c.report.Alike d.report

theorem Checker.Still.refl (c : Checker) : c.Still c := ⟨rfl, rfl, .refl _⟩

theorem Checker.still_laws :
    EffectLaws fun (_ : Nat) (n : Noise) (c d : Checker) => n = .silent → c.Still d where
  post_refl _ c _ := .refl c
  post_trans {_ m n c d e} hm hn h := by
    cases m with
    | loud => cases h
    | silent =>
      obtain ⟨hsymbols, hmuted, hreport⟩ := hm rfl
      obtain ⟨hsymbols', hmuted', hreport'⟩ := hn h
      exact ⟨hsymbols'.trans hsymbols, hmuted'.trans hmuted, hreport.trans hreport'⟩
  post_write _ c hentry _ _ := ⟨rfl, rfl, Report.alike_add hentry c.report⟩
  post_use _ _ _ _ _ h := by cases h
  post_jump _ _ _ _ h := by cases h
  post_declare _ _ _ _ _ := ⟨rfl, rfl, .refl _⟩
  post_again _ _ c _ _ := .refl c
  post_mark range ty _ c _ := by
    obtain hc | ⟨-, hc⟩ := Check.note_cases (·.add (.type range ty)) c <;> rw [hc]
    · exact .refl c
    · exact ⟨rfl, rfl, ⟨rfl, rfl, fun hr => Report.contains_types_add hr _⟩⟩
  post_nest {_ _ _ _ _} h hn := ⟨(h hn).symbols, (h hn).muted, (h hn).report⟩
  post_infer {_ _ c d} h hn := by
    obtain ⟨hsymbols, hmuted, hreport⟩ := h hn
    exact ⟨hsymbols, by rw [hmuted]; rfl, hreport⟩
  post_hide _ h := h

/-- The regime that tells silent computations from others. -/
def silence : Regime Noise := .alone Checker.still_laws

/-- What has no effect in any scope is silent. -/
theorem Checker.Still.of_runs {α : Type} {P : α → Prop} {m : CheckM α}
    (hm : ∀ {x : silence.Site}, silence.Keeps x P m) (c : Checker) : c.Still (m.run c).2 :=
  Regime.post_of_alone (hm (x := ⟨(), 0, 0, rfl⟩)) c rfl

end ScriptCheck
