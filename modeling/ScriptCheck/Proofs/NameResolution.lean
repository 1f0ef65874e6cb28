import ScriptCheck.Proofs.LexicalEffects

/-!
# Names in expressions

A check resolves names while it finds types, and it leaves many of its rules early when a type is
unknown or a callee is not resolved. None of that matters for the names: as long as no argument of
a call is a lambda, the check of an expression complains about variables and functions that stand
for nothing as a walk without types does (`Follow.laws`).

The check and the walk are coupled. The scope in which the check stands sees the names that are
visible to the walk. A check of an expression declares variables in its own scope and in scopes that
it opens, so that the scopes around it still see the same names when the check comes back to them;
`Following` therefore also lists the paths of scopes that wait for the check to come back.
-/

namespace ScriptCheck

open Check

/-! ## A check and a walk side by side -/

/-- The check and the walk have complained about the same names. -/
structure Tracking (s : Symbols) (c : Checker) (r : Resolver) : Prop where
  symbols : c.view.symbols = s
  muted : c.muted = 0
  found : c.report.unbound = r.found

/-- The check stands in scope `id`, inside of the scopes `rest`, and sees there what the walk sees.
The paths in `outer` see the names next to them. -/
structure Following (s : Symbols) (id : Nat) (rest : List Nat)
    (outer : List (List Nat × List String)) (c : Checker) (r : Resolver) : Prop
    extends Tracking s c r where
  here : c.scopes.Sees (id :: rest) r.names
  outer : ∀ o ∈ outer, id ∉ o.1 ∧ c.scopes.Sees o.1 o.2

variable {s : Symbols} {id : Nat} {rest : List Nat} {outer : List (List Nat × List String)}
  {α β : Type}

theorem Tracking.still {c d : Checker} {r : Resolver} (h : Tracking s c r) (hstill : c.Still d) :
    Tracking s d r :=
  ⟨hstill.symbols.trans h.symbols, hstill.muted.trans h.muted,
    hstill.report.unbound.trans h.found⟩

namespace Following

variable {c : Checker} {r : Resolver}

variable (h : Following s id rest outer c r)

include h

/-- Complaints about other things may be added to the report. -/
theorem report {report : Report} (hreport : report.unbound = c.report.unbound) :
    Following s id rest outer { c with report } r :=
  ⟨⟨h.symbols, h.muted, hreport.trans h.found⟩, h.here, h.outer⟩

/-- Only which names are visible matters. -/
theorem congr_names {names : List String} (hnames : ∀ name, name ∈ names ↔ name ∈ r.names) :
    Following s id rest outer c { r with names } :=
  ⟨⟨h.symbols, h.muted, h.found⟩, h.here.congr_names hnames, h.outer⟩

/-- A variable is declared in the scope of the check. -/
theorem declare (name : String) (value : Local) :
    Following s id rest outer { c with scopes := c.scopes.declare id name value }
      { r with names := name :: r.names } :=
  ⟨⟨h.symbols, h.muted, h.found⟩, h.here.declare name value,
    fun o ho => ⟨(h.outer o ho).1, (h.outer o ho).2.declare_elsewhere (h.outer o ho).1 name value⟩⟩

/-- The check goes on in a scope of its own. -/
theorem nested (kind : ScopeKind) :
    Following s c.scopes.size (id :: rest) ((id :: rest, r.names) :: outer)
      { c with scopes := c.scopes.push (some id) kind } r := by
  have hnew {path : List Nat} {names : List String} (hpath : c.scopes.Sees path names) :
      c.scopes.size ∉ path := fun hmem => Nat.lt_irrefl _ (hpath.isPath.lt_size _ hmem)
  refine ⟨⟨h.symbols, h.muted, h.found⟩, h.here.nested kind, List.forall_mem_cons.2 ⟨?_, ?_⟩⟩
  · exact ⟨hnew h.here, h.here.push _ kind⟩
  · exact fun o ho => ⟨hnew (h.outer o ho).2, (h.outer o ho).2.push _ kind⟩

theorem isSome_resolve? (name : String) :
    (c.scopes.resolve? c.view.symbols id name none).isSome =
      (r.names.contains name || s.knows name) := by
  rw [h.symbols, Scopes.isSome_resolve?, Bool.eq_iff_iff, Bool.or_eq_true, Bool.or_eq_true,
    h.here.isSome_local? name, List.contains_iff_mem]

omit h in
/-- Both complain about a name. -/
theorem complain {kind : SymbolKind} {name : Ident}
    (hkind : (Problem.undefined kind name.name none).isUnbound = true)
    (h : Following s id rest outer c r) :
    Following s id rest outer ((error (.undefined kind name.name none) name.range).run c).2
      { r with found := r.found ++ [⟨.error, .undefined kind name.name none, name.range⟩] } := by
  rw [run_error h.muted]
  refine ⟨⟨h.symbols, h.muted, ?_⟩, h.here, h.outer⟩
  change (c.report.diagnostics ++ _).filter _ = r.found ++ _
  rw [List.filter_append, ← h.found]
  simp [Diagnostic.isUnbound, Diagnostic.isError, hkind, Report.unbound]

end Following

/-- In its scope, the check does the same to names as the walk. -/
def Follow (s : Symbols) (id : Nat) (a : Lexical s.knows) (c d : Checker) : Prop :=
  ∀ rest outer r, Following s id rest outer c r → Following s id rest outer d (a.names.run r).2

theorem Follow.laws (s : Symbols) : LexicalLaws (Follow s) where
  refl _ _ _ _ _ hc := hc
  trans {_ _ _ _ _ _} h h' rest outer r hc := h' rest outer _ (h rest outer r hc)
  write _ _ hentry _ _ _ _ hc := hc.report (Report.alike_add hentry _).unbound
  use kind name _ _ hkind rest outer r hc := by
    have huse : (Resolve.use s.knows kind name).run r =
        ((), if r.names.contains name.name || s.knows name.name then r
          else { r with
            found := r.found ++ [⟨.error, .undefined kind name.name none, name.range⟩] }) := rfl
    rw [hc.isSome_resolve? name.name]
    change Following s _ rest outer _ ((Resolve.use s.knows kind name).run r).2
    rw [huse]
    split
    · exact hc
    · exact hc.complain hkind
  jump jump range id c rest outer r hc := by
    split
    · exact hc
    · rw [run_error hc.muted]
      refine hc.report ?_
      simp [Report.unbound, Report.add, Diagnostic.isUnbound, Problem.isUnbound]
  declare name value _ _ _ _ _ hc := hc.declare name.name value
  again name id c hown rest outer r hc := by
    have hid := hc.here.isPath.lt_size id List.mem_cons_self
    have hmem := (hc.here.mem_names name.name).2 ⟨id, List.mem_cons_self, hown hid⟩
    exact hc.congr_names fun other => by grind
  nest {kind a id c d} h rest outer r hc := by
    have hend := h _ _ _ (hc.nested kind)
    refine ⟨⟨hend.symbols, hend.muted, hend.found⟩, (hend.outer _ List.mem_cons_self).2, ?_⟩
    exact fun o ho => ⟨(hc.outer o ho).1, (hend.outer o (List.mem_cons_of_mem _ ho)).2⟩

end ScriptCheck
