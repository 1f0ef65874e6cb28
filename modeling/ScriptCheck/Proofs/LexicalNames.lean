import ScriptCheck.Proofs.NameResolution

/-!
# Name resolution is lexical

What holds of expressions is lifted to items and scripts. The items of a script are checked one
after the other, each from scopes of its own, so that between them a check and a walk without types
only agree on the complaints (`Tracking`). While the default values of a function are checked, the
parameters are entered into a scope that waits (`Following.entering`).

The main statement is `unbound_eq_resolver`.
-/

namespace ScriptCheck

open Check

variable {s : Symbols} {c d : Checker} {r : Resolver} {names : List String}

/-! ## Items -/

/-- The check goes over to a scope that waits. -/
theorem Following.swap {id other : Nat} (h : Following s id [] [([other], names)] c r) :
    Following s other [] [([id], r.names)] c { r with names } := by
  obtain ⟨hne, hother⟩ := h.outer _ List.mem_cons_self
  exact ⟨⟨h.symbols, h.muted, h.found⟩, hother, List.forall_mem_singleton.2
    ⟨fun hmem => hne (by simpa using (List.mem_singleton.1 hmem).symm), h.here⟩⟩

/-- While the default values are checked in a scope of their own, the parameters are entered into
the scope of the body. -/
theorem Following.entering {body defaults : Nat} {seen : List String} {params : List ParamDecl}
    (h : Entering (Lexical.Lift (Follow s)) body defaults seen params c d)
    (hplain : ∀ e ∈ params.flatMap fun p => p.default.toList, e.plainCalls = true)
    (hc : Following s defaults [] [([body], names)] c r) (hseen : ∀ name ∈ seen, name ∈ names) :
    ∃ names', (∀ name, name ∈ names' ↔
        name ∈ names ∨ name ∈ params.map fun param => param.name.name) ∧
      Following s defaults [] [([body], names')] d ((Resolve.defaults s.knows params).run r).2 := by
  induction h generalizing names r with
  | nil => exact ⟨names, by simp, hc⟩
  | @again _ params param _ _ _ hname hdefault _ ih =>
    rw [List.flatMap_cons] at hplain
    obtain ⟨hparam, hparams⟩ := List.forall_mem_append.1 hplain
    have hd := hdefault _ (Expr.effect?_eq _ (Expr.plainCalls?_of_mem hparam)) _ _ _ hc
    obtain ⟨names', hnames', hend⟩ :=
      ih hparams hd (List.forall_mem_cons.2 ⟨hseen _ hname, hseen⟩)
    exact ⟨names', by grind, hend⟩
  | @enter _ params param _ _ _ _ hdefault henter _ ih =>
    rw [List.flatMap_cons] at hplain
    obtain ⟨hparam, hparams⟩ := List.forall_mem_append.1 hplain
    have hd := hdefault _ (Expr.effect?_eq _ (Expr.plainCalls?_of_mem hparam)) _ _ _ hc
    have hentered : Following s defaults [] [([body], param.name.name :: names)] _ _ :=
      (henter _ rfl _ _ _ hd.swap).swap
    obtain ⟨names', hnames', hend⟩ := ih hparams hentered (by grind)
    exact ⟨names', by grind, hend⟩

theorem Resolve.run_bindNames : (names : List Ident) → (r : Resolver) →
    (bindNames names).run r = ((), { r with names := (names.map Ident.name).reverse ++ r.names })
  | [], _ => rfl
  | name :: names, r => by
    change (bindNames names).run _ = _
    simp [run_bindNames names]

/-- Outside of all scopes, the check does the same to names as the walk. -/
theorem Follow.itemLaws (s : Symbols) : ItemLaws (Lexical.Lift (Follow s))
    (fun a c d => ∀ r, Tracking s c r → Tracking s d (a.names.run r).2)
    (fun e => e.plainCalls = true) (Lexical.isolated s.knows) (Lexical.function s.knows) where
  toEffectLaws := (laws s).effectLaws
  out_still h _ hc := hc.still h
  out_trans h h' _ hc := h' _ (h _ hc)
  out_value {e c d} he h r hc := by
    have hstart : Following s c.scopes.size [] []
        { c with scopes := c.scopes.push none .block } { r with names := [] } :=
      ⟨⟨hc.symbols, hc.muted, hc.found⟩, .isolated c.scopes .block, List.forall_mem_nil _⟩
    have hend := h _ (e.effect_eq he) _ _ _ hstart
    exact ⟨hend.symbols, hend.muted, hend.found⟩
  -- The defaults are checked first, although the scope of the body is opened before theirs.
  out_function {decl c d e result} hplain hparams hbody r hc := by
    obtain ⟨hbodyPlain, hdefaults⟩ := List.forall_mem_cons.1 hplain
    let opened := c.scopes.push none (.function result)
    have hsize : opened.size = c.scopes.size + 1 := Scopes.size_push ..
    have hstart : Following s opened.size [] [([c.scopes.size], [])]
        { c with scopes := opened.push none .block } { r with names := [] } := by
      refine ⟨⟨hc.symbols, hc.muted, hc.found⟩, .isolated opened .block,
        List.forall_mem_singleton.2 ⟨?_, (Scopes.Sees.isolated c.scopes _).push none .block⟩⟩
      simp [hsize]
    obtain ⟨names, hnames, hentered⟩ := hstart.entering hparams hdefaults (List.forall_mem_nil _)
    -- The check comes back to the scope of the body, which has the parameters in it by now.
    obtain ⟨-, hinside⟩ := hentered.outer _ List.mem_cons_self
    have hstart' : Following s c.scopes.size [] [] d
        ((Resolve.bindNames (decl.params.map ParamDecl.name)).run
          { (((Resolve.defaults s.knows decl.params).run { r with names := [] }).2) with
            names := [] }).2 := by
      rw [Resolve.run_bindNames]
      exact ⟨⟨hentered.symbols, hentered.muted, hentered.found⟩,
        hinside.congr_names fun name => by simp [hnames], List.forall_mem_nil _⟩
    have hend := hbody _ (decl.body.effect_eq hbodyPlain) _ _ _ hstart'
    exact ⟨hend.symbols, hend.muted, hend.found⟩

/-! ## Scripts -/

/-- If no argument of a call is a lambda, validation complains about the variables and functions
that stand for nothing exactly as a walk without types does, in the same order. -/
theorem unbound_eq_resolver (registry : Registry) (script : Script)
    (h : ∀ x ∈ script.items, x.plainCalls = true) :
    (script.validate registry).report.diagnostics.filter Diagnostic.isUnbound =
      script.unbound (script.validate registry).symbols.knows := by
  have hstart : Tracking (script.declarations registry).symbols
      { view := { symbols := (script.declarations registry).symbols }
        report := { diagnostics := (script.declarations registry).diagnostics } } {} :=
    ⟨rfl, rfl, (script.alike_declarations registry).unbound⟩
  have hrun := (Follow.itemLaws _).items script.items
    (fun x hx _ => Item.plainCalls_of_mem (h x hx)) _ _ hstart
  rw [Lexical.prod_items] at hrun
  exact hrun.found

/-- The script
`const one = 1`,
`fn wild(a : Missing, b : Int = a) -> Unit = { { let x = one }; x; y = b; gone(x); a.m(gone) }`. -/
def wild : Script :=
  .ofItems
    [.const (.ofValue "one" (.int {} 1)),
      .function (.ofBody "wild"
        [.ofType "a" (.plain "Missing"),
          { ParamDecl.ofType "b" (.plain "Int") with default := Expr.ofName "a" }] "Unit"
        (.block {}
          [.block {} [.ofLet "x" (.ofName "one")], .ofName "x",
            .assign {} ⟨"y", {}⟩ none (.ofName "b"), .ofCall "gone" [.ofName "x"],
            .methodCall {} (.ofName "a") ⟨"m", {}⟩ [.ofName "gone"]]))]

/-- The default value does not see the parameter, what a block binds is gone after it, and the
arguments of calls that lead nowhere are resolved all the same. -/
theorem unbound_eq_resolver_wild :
    (∀ x ∈ wild.items, x.plainCalls = true) ∧
      (wild.validate .empty).report.diagnostics.filter Diagnostic.isUnbound =
        wild.unbound (wild.validate .empty).symbols.knows ∧
      (wild.unbound (wild.validate .empty).symbols.knows).map (·.problem) =
        [.undefined .var "a" none, .undefined .var "x" none, .undefined .var "y" none,
          .undefined .function "gone" none, .undefined .var "x" none,
          .undefined .var "gone" none] :=
  ⟨by decide +kernel, unbound_eq_resolver .empty wild (by decide +kernel), by decide +kernel⟩

end ScriptCheck
