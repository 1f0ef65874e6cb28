import ScriptCheck.Proofs.DeclarationOrder

/-!
# Every complaint is justified

A diagnostic says something about the script that is true: of two types that do not match the
expected one does not accept the one found, what cannot be called is known and no function, two
numbers that should be the same differ, and a warning is about a type that could not be inferred
(`diagnostics_justified`).

The first pass compares no types. In the second pass all types are compared under the symbols that
the first pass has left, so a comparison that has failed once fails for good: that all complaints
are justified is an invariant of the check.
-/

namespace ScriptCheck

open Check

/-! ## The first pass -/

theorem Problem.justified_of_complains (s : Symbols) {problem : Problem}
    (h : Declare.complains problem = true) : problem.Justified s := by
  unfold Problem.Justified
  split <;> simp_all [Declare.complains, Arity.parameterCount]

theorem Script.justified_declarations (registry : Registry) (script : Script) (s : Symbols) :
    ∀ d ∈ (script.declarations registry).diagnostics, d.Justified s := by
  refine Script.declarations_induction (I := fun d => ∀ x ∈ d.diagnostics, x.Justified s)
    (fun _ hd => absurd hd List.not_mem_nil) fun hstep hd => ?_
  cases hstep with
  | entry => exact hd
  | complaint problem range hproblem _ =>
    intro x hx
    rcases List.mem_append.1 hx with hx | hx
    · exact hd x hx
    · obtain rfl := List.mem_singleton.1 hx
      exact ⟨Problem.justified_of_complains s hproblem, nofun⟩

/-! ## The second pass -/

/-- A check under the given symbols has reported only what is justified. -/
structure Checker.Sound (s : Symbols) (c : Checker) : Prop where
  symbols : c.view.symbols = s
  diagnostics : ∀ d ∈ c.report.diagnostics, d.Justified s

theorem Checker.sound_invariant (s : Symbols) : Invariant (Checker.Sound s) Any Any where
  view _ := trivial
  local? _ _ := ⟨trivial, fun _ _ => trivial⟩
  write {_ entry} hc hentry := by
    refine ⟨hc.symbols, ?_⟩
    cases entry with
    | diagnostic =>
      exact List.forall_mem_append.2
        ⟨hc.diagnostics, List.forall_mem_singleton.2 (hc.symbols ▸ hentry.1)⟩
    | token | hint | definition | hover | type => exact hc.diagnostics
  declare _ _ _ hc _ _ := ⟨hc.symbols, hc.diagnostics⟩
  push _ _ hc := ⟨hc.symbols, hc.diagnostics⟩
  truncate _ hc := ⟨hc.symbols, hc.diagnostics⟩
  mute _ hc := ⟨hc.symbols, hc.diagnostics⟩

theorem justified_itemDiagnostics (s : Symbols) (x : Item) :
    ∀ d ∈ itemDiagnostics s x, d.Justified s := by
  have hstart : Checker.Sound s { view := { symbols := s } } := ⟨rfl, List.forall_mem_nil _⟩
  have hitems : ∀ y ∈ [x], ((Checker.sound_invariant s).regime .any).AdmitsItem y :=
    fun _ _ => .of_any rfl (fun _ => trivial) fun _ _ => trivial
  have hself {c : Checker} (self : Option SelfType) (hc : c.Sound s) :
      ((Check.setSelf self).run c).2.Sound s := ⟨hc.symbols, hc.diagnostics⟩
  exact ((Checker.sound_invariant s).items hself hitems hstart).diagnostics

/-- Every diagnostic of a script is justified under the symbols that validation returns. -/
theorem diagnostics_justified (registry : Registry) (script : Script) {d : Diagnostic}
    (hd : d ∈ (script.validate registry).report.diagnostics) :
    d.Justified (script.validate registry).symbols := by
  rw [Script.diagnostics_validate, List.mem_append] at hd
  rcases hd with hd | hd
  · exact Script.justified_declarations registry script _ d hd
  · obtain ⟨x, -, hx⟩ := List.mem_flatMap.1 hd
    exact justified_itemDiagnostics _ x d hx

/-- A script in which little fits: two overloads with a wrong number of parameters, a constant
without a type, and a function that miscounts, calls a number and returns a text for a number. -/
def misfits : Script :=
  .ofItems
    [.ofStruct "P" [],
      .operators (.ofFunctions "P"
        [.ofBody "unary_minus" [] "int" (.int {} 0),
          .ofBody "add" [.ofType "left" (.plain "P")] "P" (.ofName "left")]),
      .const (.ofValue "c" (.ofName "missing")),
      .function (.ofBody "f" [.ofType "n" (.plain "int")] "int"
        (.block {} [.ofCall "f" [], .ofCall "n" [], .string {} "zero"]))]

/-- The script is complained about in every way that needs a justification, and has it. -/
theorem diagnostics_justified_misfits :
    (misfits.validate .empty).report.diagnostics.map Diagnostic.problem =
        [.badOverload "unary_minus" "P" (.unaryArity 0), .badOverload "add" "P" (.binaryArity 1),
          .undefined .var "missing" none, .uninferred (.var "c"), .count (.arguments "f") 1 0,
          .notCallable "n" .int, .mismatch .int .string] ∧
      Diagnostic.Justified (misfits.validate .empty).symbols
        ⟨.error, .mismatch .int .string, {}⟩ ∧
      Diagnostic.Justified (misfits.validate .empty).symbols
        ⟨.warn, .uninferred (.var "c"), {}⟩ :=
  ⟨by decide +kernel, diagnostics_justified .empty misfits (by decide +kernel),
    diagnostics_justified .empty misfits (by decide +kernel)⟩

end ScriptCheck
