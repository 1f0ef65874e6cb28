import ScriptCheck.Proofs.Questions
import ScriptCheck.Report.Basic

/-!
# What stands in a report

A check writes one entry at a time to the report (`Report.Entry`). A complaint is justified if what
it says about types and numbers is true (`Diagnostic.Justified`).
-/

namespace ScriptCheck

/-! ## Entries of a report -/

/-- What a check writes to a report at a time. -/
inductive Report.Entry where
  | diagnostic (d : Diagnostic)
  | token (t : Token)
  | hint (h : Hint)
  | definition (range : Range) (d : Definition)
  | hover (range : Range) (text : String)
  | type (range : Range) (ty : Ty)

/-- The report with one entry more. -/
def Report.add (r : Report) : Report.Entry → Report
  | .diagnostic d => { r with diagnostics := r.diagnostics ++ [d] }
  | .token t => { r with tokens := r.tokens ++ [t] }
  | .hint h => { r with hints := r.hints ++ [h] }
  | .definition range d => { r with definitions := r.definitions.insert range d }
  | .hover range text => { r with hover := r.hover.insert range text }
  | .type range ty => { r with types := r.types.insert range ty }

/-! ## Justified complaints -/

/-- What a problem says about types and numbers is true, where types are compared under the given
symbols. -/
def Problem.Justified (s : Symbols) : Problem → Prop
  | .mismatch expected found =>
    s.accepts expected found = false ∧ expected.isOpen = false ∧ found.isOpen = false
  | .notCallable _ ty => ty.isUnknown = false ∧ ty.isFunction = false
  | .count _ expected found => expected ≠ found
  | .badOverload _ _ (.unaryArity found) => found ≠ 1
  | .badOverload _ _ (.binaryArity found) => found ≠ 2
  | _ => True

/-- The problem is justified, and a warning is about a type that could not be inferred. -/
def Diagnostic.Justified (s : Symbols) (d : Diagnostic) : Prop :=
  d.problem.Justified s ∧ (d.severity = .warn → d.problem.category = .inferenceFailure)

/-- Whether a problem says something about types or numbers. -/
def Problem.compares : Problem → Bool
  | .mismatch .. | .notCallable .. | .count .. | .badOverload .. => true
  | _ => false

/-- A problem that compares nothing needs no justification. -/
theorem Problem.justified_of_compares {s : Symbols} {problem : Problem}
    (h : problem.compares = false) : problem.Justified s := by
  cases problem <;> trivial

/-- Only types that are not open can be refused. -/
theorem Problem.justified_mismatch {s : Symbols} {expected found : Ty}
    (h : s.accepts expected found = false) : (Problem.mismatch expected found).Justified s := by
  have hopen (t : Ty) (ht : t.isOpen = true → s.accepts expected found = true) :
      t.isOpen = false := by
    rw [Bool.eq_false_iff]
    exact fun hisOpen => Bool.false_ne_true (h.symm.trans (ht hisOpen))
  exact ⟨h, hopen expected fun h => Symbols.accepts_of_isOpen (.inl h),
    hopen found fun h => Symbols.accepts_of_isOpen (.inr h)⟩

end ScriptCheck
