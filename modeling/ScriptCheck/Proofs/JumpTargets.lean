import ScriptCheck.Proofs.LexicalEffects

/-!
# Jumps without a target

A check finds out whether there is something to jump out of from the kinds of the scopes around it,
which it has opened one after the other. What it finds is what the syntax tree tells: the place of a
scope (`Scopes.place`) is that of the scope around it, changed by its kind (`Scopes.place_eq`), and
it stays the same while other scopes are opened and variables are declared. Hence every expression
is complained about as `Expr.misplaced` says, and so is every script (`misplaced_eq_syntactic`).
-/

namespace ScriptCheck

open Check

/-! ## Places of scopes -/

namespace Scopes

variable {s s' : Scopes} {id : Nat}

/-- The place of a scope is given by its kind and the place of the scope around it. -/
theorem place_eq {scope : Scope} (h : s.scopes[id]? = some scope) :
    s.place id = ((scope.parent.map s.place).getD .outside).inside scope.kind.nesting := by
  have henclosing (p : Option Nat) : (p.map s.place).getD .outside =
      ⟨(((p.map s.enclosing).getD []).findSome? fun scope =>
          if scope.kind = .block then none else some (scope.kind == .loop)).getD false,
        ((((p.map s.enclosing).getD []).map Scope.kind).findSome? ScopeKind.result?).isSome⟩ := by
    cases p with
    | none => rfl
    | some p => simp only [Option.map_some, Option.getD_some, place, inLoop_eq_findSome?,
        returnType?_eq_findSome?]
  rw [henclosing, place, inLoop_eq_findSome?, returnType?_eq_findSome?, enclosing_eq h,
    List.findSome?_cons, List.map_cons, List.findSome?_cons]
  cases scope.kind with
  | block | loop | function => rfl

theorem place_of_none (h : s.scopes[id]? = none) : s.place id = .outside := by
  rw [place, inLoop_eq_findSome?, returnType?_eq_findSome?, enclosing_of_none h]
  rfl

/-- Only the kinds of scopes and their nesting matter. -/
theorem place_congr (h : ∀ i ≤ id, (s'.scopes[i]?).map (fun x => (x.parent, x.kind)) =
    (s.scopes[i]?).map fun x => (x.parent, x.kind)) : s'.place id = s.place id := by
  induction id using Nat.strongRecOn with
  | ind id ih =>
    have hid := h id le_rfl
    cases hscope : s.scopes[id]? with
    | none =>
      rw [hscope, Option.map_none, Option.map_eq_none_iff] at hid
      rw [place_of_none hscope, place_of_none hid]
    | some scope =>
      rw [hscope, Option.map_some] at hid
      obtain ⟨scope', hscope', heq⟩ := Option.map_eq_some_iff.1 hid
      obtain ⟨hparent, hkind⟩ := Prod.mk.inj heq
      rw [place_eq hscope, place_eq hscope', hparent, hkind]
      cases hp : scope.parent with
      | none => rfl
      | some p =>
        have hlt := s.nested id scope hscope p hp
        simp only [Option.map_some, Option.getD_some,
          ih p hlt fun i hi => h i (hi.trans hlt.le)]

theorem place_push (parent : Option Nat) (kind : ScopeKind) (hid : id < s.size) :
    (s.push parent kind).place id = s.place id :=
  place_congr fun i hi => by rw [scopes_push, if_pos (hi.trans_lt hid)]

theorem place_declare (i : Nat) (name : String) (value : Local) :
    (s.declare i name value).place id = s.place id := by
  refine place_congr fun j _ => ?_
  rw [scopes_declare, Option.map_map]
  refine congrArg (Option.map · _) (funext fun scope => ?_)
  dsimp only [Function.comp]
  split <;> rfl

/-- A scope that was just opened inside of another one. -/
theorem place_nested (kind : ScopeKind) (hid : id < s.size) :
    (s.push (some id) kind).place s.size = (s.place id).inside kind.nesting := by
  have hnew : (s.push (some id) kind).scopes[s.size]? = some ⟨some id, kind, {}⟩ := by
    simp [scopes_push, Option.filter, hid]
  rw [place_eq hnew, ← place_push (some id) kind hid]
  rfl

/-- A scope that was just opened outside of all others. -/
theorem place_root (s : Scopes) (kind : ScopeKind) :
    (s.push none kind).place s.size = Place.outside.inside kind.nesting := by
  have hnew : (s.push none kind).scopes[s.size]? = some ⟨none, kind, {}⟩ := by
    simp [scopes_push]
  rw [place_eq hnew]
  rfl

end Scopes

/-! ## Complaints about jumps -/

/-- Of jumps, the given ones are complained about, and open scopes stay where they are. -/
structure Checker.Misplaces (jumps : List Diagnostic) (c d : Checker) : Prop where
  muted : d.muted = c.muted
  misplaced : d.report.misplaced = c.report.misplaced ++ jumps
  size : c.scopes.size ≤ d.scopes.size
  place : ∀ i < c.scopes.size, d.scopes.place i = c.scopes.place i

open Checker (Misplaces)

namespace Checker.Misplaces

variable {c d e : Checker} {jumps more : List Diagnostic}

theorem trans (h : Misplaces jumps c d) (h' : Misplaces more d e) :
    Misplaces (jumps ++ more) c e where
  muted := h'.muted.trans h.muted
  misplaced := by rw [h'.misplaced, h.misplaced, List.append_assoc]
  size := h.size.trans h'.size
  place i hi := (h'.place i (hi.trans_le h.size)).trans (h.place i hi)

/-- A step that does not touch the report. -/
theorem scopes {scopes : Scopes} (hsize : c.scopes.size ≤ scopes.size)
    (hplace : ∀ i < c.scopes.size, scopes.place i = c.scopes.place i) :
    Misplaces [] c { c with scopes } :=
  ⟨rfl, (List.append_nil _).symm, hsize, hplace⟩

/-- A step that touches nothing but the report. -/
theorem report {report : Report} (h : report.misplaced = c.report.misplaced ++ jumps) :
    Misplaces jumps c { c with report } :=
  ⟨rfl, h, le_rfl, fun _ _ => rfl⟩

theorem refl (c : Checker) : Misplaces [] c c := report (List.append_nil _).symm

theorem push (c : Checker) (parent : Option Nat) (kind : ScopeKind) :
    Misplaces [] c { c with scopes := c.scopes.push parent kind } :=
  scopes (by rw [Scopes.size_push]; omega) fun _ => Scopes.place_push parent kind

end Checker.Misplaces

/-- Jumps are complained about as their place tells. -/
def Jumps (known : String → Bool) (id : Nat) (a : Lexical known) (c d : Checker) : Prop :=
  c.muted = 0 → id < c.scopes.size → Misplaces (a.jumps (c.scopes.place id)) c d

theorem Jumps.laws (known : String → Bool) : LexicalLaws (Jumps known) where
  refl _ c _ _ := .refl c
  trans {_ _ _ _ _ _} h h' hmuted hid := by
    have hfirst := h hmuted hid
    have hsecond := h' (hfirst.muted.trans hmuted) (hid.trans_le hfirst.size)
    rw [hfirst.place _ hid] at hsecond
    exact hfirst.trans hsecond
  write _ _ hentry _ _ _ :=
    .report ((Report.alike_add hentry _).misplaced.trans (List.append_nil _).symm)
  use kind name id c hkind hmuted _ := by
    split
    · exact .refl c
    · rw [run_error hmuted]
      refine .report ?_
      simp [Report.misplaced, Report.add, Diagnostic.isMisplaced, Problem.category, Lexical.use]
  jump jump range id c hmuted _ := by
    change Misplaces ((c.scopes.place id).complaint jump range) c _
    rw [Place.complaint]
    split
    · exact .refl c
    · rw [run_error hmuted]
      refine .report ?_
      simp [Report.misplaced, Report.add, Diagnostic.isMisplaced, Diagnostic.isError,
        Problem.category]
  declare name value id c _ _ :=
    .scopes (Scopes.size_declare ..).ge fun _ _ => Scopes.place_declare id name.name value
  again _ _ c _ _ _ := .refl c
  nest {kind a id c d} h hmuted hid := by
    have hbody := h hmuted (by rw [Scopes.size_push]; omega)
    rw [Scopes.place_nested kind hid] at hbody
    exact (Misplaces.push c (some id) kind).trans hbody

/-! ## Items -/

/-- The scopes of a function are open, the first one for its body and the second one for the default
values. -/
structure Opened (body defaults : Nat) (c : Checker) : Prop where
  muted : c.muted = 0
  lt_size : body < c.scopes.size ∧ defaults < c.scopes.size
  inside : c.scopes.place body = Place.outside.inside .function
  outside : c.scopes.place defaults = .outside

theorem Opened.step {body defaults : Nat} {c d : Checker} {jumps : List Diagnostic}
    (h : Opened body defaults c) (hstep : Misplaces jumps c d) : Opened body defaults d :=
  ⟨hstep.muted.trans h.muted, ⟨h.lt_size.1.trans_le hstep.size, h.lt_size.2.trans_le hstep.size⟩,
    (hstep.place _ h.lt_size.1).trans h.inside, (hstep.place _ h.lt_size.2).trans h.outside⟩

/-- A default value is checked outside of the function. -/
theorem Opened.default {known : String → Bool} {body defaults : Nat} {value : Option Expr}
    {c d : Checker} (hc : Opened body defaults c)
    (h : Lexical.Lift (Jumps known) defaults (Expr.effect? value) c d)
    (hplain : ∀ e ∈ value.toList, e.plainCalls = true) :
    Misplaces (Expr.misplaced? value .outside) c d := by
  have hvalue := h _ (Expr.effect?_eq value (Expr.plainCalls?_of_mem hplain)) hc.muted hc.lt_size.2
  rwa [hc.outside] at hvalue

theorem Opened.entering {known : String → Bool} {body defaults : Nat} {seen : List String}
    {params : List ParamDecl} {c d : Checker}
    (h : Entering (Lexical.Lift (Jumps known)) body defaults seen params c d)
    (hplain : ∀ e ∈ params.flatMap fun p => p.default.toList, e.plainCalls = true)
    (hc : Opened body defaults c) : Opened body defaults d ∧
      Misplaces (params.flatMap fun param => Expr.misplaced? param.default .outside) c d := by
  induction h with
  | nil _ c => exact ⟨hc, .refl c⟩
  | @again _ params param _ _ _ _ hdefault _ ih =>
    rw [List.flatMap_cons] at hplain ⊢
    obtain ⟨hparam, hparams⟩ := List.forall_mem_append.1 hplain
    have hfirst := hc.default hdefault hparam
    obtain ⟨hd, hrest⟩ := ih hparams (hc.step hfirst)
    exact ⟨hd, hfirst.trans hrest⟩
  | @enter _ params param _ _ _ _ hdefault henter _ ih =>
    rw [List.flatMap_cons] at hplain ⊢
    obtain ⟨hparam, hparams⟩ := List.forall_mem_append.1 hplain
    have hfirst := hc.default hdefault hparam
    have hopen := hc.step hfirst
    have hbind : Misplaces [] _ _ := henter _ rfl hopen.muted hopen.lt_size.1
    obtain ⟨hd, hrest⟩ := ih hparams (hopen.step hbind)
    exact ⟨hd, hfirst.trans (hbind.trans hrest)⟩

theorem Jumps.itemLaws (known : String → Bool) : ItemLaws (Lexical.Lift (Jumps known))
    (fun a c d => c.muted = 0 →
      d.muted = 0 ∧ d.report.misplaced = c.report.misplaced ++ a.jumps .outside)
    (fun e => e.plainCalls = true) (Lexical.isolated known) (Lexical.function known) where
  toEffectLaws := (laws known).effectLaws
  out_still h hmuted :=
    ⟨h.muted.trans hmuted, h.report.misplaced.trans (List.append_nil _).symm⟩
  out_trans {a b c d e} h h' hmuted := by
    obtain ⟨hd, hjumps⟩ := h hmuted
    obtain ⟨he, hjumps'⟩ := h' hd
    exact ⟨he, hjumps'.trans (by rw [hjumps, List.append_assoc]; rfl)⟩
  out_value {e c d} he h hmuted := by
    have hvalue := h _ (e.effect_eq he) hmuted (by rw [Scopes.size_push]; omega)
    rw [c.scopes.place_root .block] at hvalue
    exact ⟨hvalue.muted.trans hmuted, hvalue.misplaced⟩
  out_function {decl c d e result} hplain hparams hbody hmuted := by
    obtain ⟨hbodyPlain, hdefaults⟩ := List.forall_mem_cons.1 hplain
    let opened := c.scopes.push none (.function result)
    have hsize : opened.size = c.scopes.size + 1 := Scopes.size_push ..
    have hopened : Opened c.scopes.size opened.size
        { c with scopes := opened.push none .block } :=
      ⟨hmuted, by rw [Scopes.size_push]; omega,
        (Scopes.place_push none .block (by omega)).trans (c.scopes.place_root _),
        opened.place_root .block⟩
    obtain ⟨hentered, hfirst⟩ := hopened.entering hparams hdefaults
    have hlast := hbody _ (decl.body.effect_eq hbodyPlain) hentered.muted hentered.lt_size.1
    rw [hentered.inside] at hlast
    have hend := hfirst.trans hlast
    exact ⟨hend.muted.trans hmuted, hend.misplaced⟩

/-! ## Scripts -/

/-- If no argument of a call is a lambda, validation complains about jumps exactly as the syntax
tree says, in the same order. -/
theorem misplaced_eq_syntactic (registry : Registry) (script : Script)
    (h : ∀ x ∈ script.items, x.plainCalls = true) :
    (script.validate registry).report.diagnostics.filter Diagnostic.isMisplaced =
      script.misplaced := by
  have hrun := (Jumps.itemLaws fun _ => false).items script.items
    (fun x hx _ => Item.plainCalls_of_mem (h x hx))
    { view := { symbols := (script.declarations registry).symbols }
      report := { diagnostics := (script.declarations registry).diagnostics } } rfl
  rw [Lexical.prod_items] at hrun
  exact hrun.2.trans (by rw [(script.alike_declarations registry).misplaced]; rfl)

/-- The script
`const early = { return 1 }`,
`fn stray(a : Int = { break; 1 }) -> Unit = {
  while ({ continue; true }) { let f = fn() -> { break; return }; if (true) { continue } };
  for (i in { break; [a] }) { break };
  return }`,
`struct Box { size : Int = { return 1 } }`,
`impl Box { fn leave(self) -> Unit = { continue } }`. -/
def stray : Script :=
  let block (es : List Expr) : Expr := .block {} es
  let leave : Expr := .returnValue {} none
  .ofItems
    [.const (.ofValue "early" (block [.returnValue {} (some (.int {} 1))])),
      .function (.ofBody "stray"
        [{ ParamDecl.ofType "a" (.plain "Int") with default := block [.breakLoop {}, .int {} 1] }]
        "Unit"
        (block
          [.whileLoop {} (block [.continueLoop {}, .bool {} true])
              (block
                [.ofLet "f" (.lambda {} [] (block [.breakLoop {}, leave])),
                  .ifThen {} (.bool {} true) (block [.continueLoop {}]) none]),
            .forLoop {} (.single ⟨"i", {}⟩) (block [.breakLoop {}, .array {} [.ofName "a"]])
              (block [.breakLoop {}]),
            leave])),
      .struct
        { name := ⟨"Box", {}⟩
          fields := [{ name := ⟨"size", {}⟩, type := .plain "Int", default := block [leave] }]
          range := {} },
      .methods (.ofFunctions "Box" [.ofBody "leave" [.self] "Unit" (block [.continueLoop {}])])]

/-- A lambda in a loop has no loop around it, conditions and sources stand outside of their loops,
and values at module level outside of every function. -/
theorem misplaced_eq_syntactic_stray :
    (∀ x ∈ stray.items, x.plainCalls = true) ∧
      (stray.validate .empty).report.diagnostics.filter Diagnostic.isMisplaced = stray.misplaced ∧
      stray.misplaced.map (·.problem) =
        [.misplaced .returnValue, .misplaced .breakLoop, .misplaced .continueLoop,
          .misplaced .breakLoop, .misplaced .breakLoop, .misplaced .returnValue,
          .misplaced .continueLoop] :=
  ⟨by decide +kernel, misplaced_eq_syntactic .empty stray (by decide +kernel), by decide +kernel⟩

end ScriptCheck
