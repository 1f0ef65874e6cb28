import ScriptCheck.Proofs.Inference
import ScriptCheck.Proofs.RegimeItems

/-!
# Items are checked in isolation

The second pass checks each item against the finished symbols and forgets all scopes after it. What
it has to say about an item is therefore decided by the symbols alone: it does not depend on what
was reported before, nor on the order in which the symbols were entered (`itemDiagnostics_congr`).
The diagnostics of a script are those of its declarations followed by those of its items, one item
after the other (`Script.diagnostics_validate`).

The argument is the simulation `parallel` of two checks side by side, over symbols that agree and
with reports that were begun differently.
-/

namespace ScriptCheck

open Check

/-! ## Items keep simulations -/

namespace PartialSimulation

variable {S : PartialSimulation} {w : S.World}

theorem registered? {v v' : View} (h : v.Similar v') (name : Ident) (role : Role) :
    Check.registered? v name role = Check.registered? v' name role := by
  cases role with
  | method =>
    rw [Check.registered?, Check.registered?, h.self]
    cases v'.self with
    | none => rfl
    | some self =>
      have hinfo := h.symbols.structs self.name
      simp only [Option.bind_eq_bind, Option.bind_some]
      generalize v.symbols.structs.get? self.name = info, v'.symbols.structs.get? self.name = info'
        at hinfo ⊢
      cases hinfo with
      | none => rfl
      | some hagree => rw [Option.bind_some, Option.bind_some, hagree.methods name.name]
  | function => simp only [Check.registered?, h.symbols.functions name.name]
  | operator => rfl

theorem grounds [S.Total] : S.regime.Grounds where
  known := Total.knows
  like_registered? name role h := (registered? h.1 name role).symm
  like_self h := ⟨h.1.self.symm, fun _ _ => trivial⟩
  like_constants name h := (h.2 name (Total.knows name)).symm
  like_functions name h := (h.1.symbols.functions name).symm
  like_registry h _ := by rw [h.1.symbols.registry]
  rel_size := S.size
  rel_root h _ := S.push _ h .none

/-- Items can be checked in a world: all scopes may be closed there, and in the worlds in which the
functions of a block for a struct are checked. -/
structure Level (w : S.World) : Prop where
  close : Sim (S.rel w) closeScopes closeScopes
  block (self : Option SelfType) {m m' : CheckM Unit}
    (hm : ∀ v, Sim (S.rel v) closeScopes closeScopes → Sim (S.rel v) m m') :
    Sim (S.rel w) (do setSelf self; m; setSelf none) (do setSelf self; m'; setSelf none)

theorem Level.regime (h : Level w) : S.regime.Level w where
  close := coupled h.close
  block name {m m'} hm := by
    intro c c' hc
    have hlike := S.regime.like hc
    have hself : Symbols.selfOf? c'.view.symbols name = Symbols.selfOf? c.view.symbols name := by
      rw [Symbols.selfOf?, Symbols.selfOf?, S.regime.like_types _ hlike]
    have hblock := h.block (Symbols.selfOf? c.view.symbols name) fun v hclose =>
      sim (hm hlike v (coupled hclose))
    rw [run_symbols_bind, run_symbols_bind, hself]
    exact coupled hblock hc

variable [S.Total]

theorem use (decl : UseDecl) : Sim (S.rel w) (Check.use decl) (Check.use decl) :=
  sim (grounds.top (grounds.use (.of_any rfl Total.knows fun _ _ => trivial)))

theorem const (decl : ConstDecl) :
    Sim (S.rel w) (Check.const Expr.part decl) (Check.const Expr.part decl) :=
  sim (grounds.const (S.regime.expr fun _ => rfl) (.of_any rfl Total.knows fun _ _ => trivial))

theorem item (h : Level w) (x : Item) :
    Sim (S.rel w) (Check.item Expr.part x) (Check.item Expr.part x) :=
  sim (grounds.item (S.regime.expr fun _ => rfl) h.regime x
    (.of_any rfl Total.knows fun _ _ => trivial))

end PartialSimulation

/-! ## Two checks side by side -/

/-- The diagnostics that an entry adds to a report. -/
def Report.Entry.diagnostics : Report.Entry → List Diagnostic
  | .diagnostic d => [d]
  | .token _ | .hint _ | .definition _ _ | .hover _ _ | .type _ _ => []

theorem Report.diagnostics_add (r : Report) (entry : Report.Entry) :
    (r.add entry).diagnostics = r.diagnostics ++ entry.diagnostics := by
  cases entry <;> first | rfl | exact (List.append_nil _).symm

/-- What is fixed while two checks run side by side: what they see, whether they are muted, and what
was reported before. -/
structure Course where
  symbols : Symbols
  symbols' : Symbols
  agree : symbols.Agree symbols'
  self : Option SelfType := none
  muted : Nat := 0
  before : List Diagnostic := []
  before' : List Diagnostic := []

/-- The states of two checks that have reported the same so far. -/
structure Abreast (w : Course) (c c' : Checker) : Prop where
  view : c.view = { symbols := w.symbols, self := w.self }
  view' : c'.view = { symbols := w.symbols', self := w.self }
  muted : c.muted = w.muted
  muted' : c'.muted = w.muted
  scopes : c.scopes = c'.scopes
  diagnostics : ∃ added, c.report.diagnostics = w.before ++ added ∧
    c'.report.diagnostics = w.before' ++ added

namespace Abreast

variable {w : Course} {c c' : Checker}

theorem note (h : Abreast w c c') (entry : Report.Entry) :
    Abreast w ((Check.note (·.add entry)).run c).2 ((Check.note (·.add entry)).run c').2 := by
  rw [run_note, run_note]
  dsimp only
  rw [h.muted, h.muted']
  split
  · obtain ⟨added, hadded, hadded'⟩ := h.diagnostics
    refine ⟨h.view, h.view', rfl, rfl, h.scopes, added ++ entry.diagnostics, ?_, ?_⟩
    · rw [Report.diagnostics_add, hadded, List.append_assoc]
    · rw [Report.diagnostics_add, hadded', List.append_assoc]
  · exact h

theorem lockstep : Lockstep Abreast where
  scopes h := h.scopes
  note entry h := h.note entry
  change f h := { h with scopes := congrArg f h.scopes }
  mute w := by
    refine ⟨{ w with muted := w.muted + 1 }, fun {c c'} => ⟨fun h => ?_, fun h => ?_⟩⟩
    · exact { h with muted := congrArg (· + 1) h.muted, muted' := congrArg (· + 1) h.muted' }
    · exact { h with muted := congrArg (· - 1) h.muted, muted' := congrArg (· - 1) h.muted' }

theorem setSelf (h : Abreast w c c') (self : Option SelfType) :
    Abreast { w with self } ((setSelf self).run c).2 ((setSelf self).run c').2 where
  view := congrArg (fun v : View => { v with self }) h.view
  view' := congrArg (fun v : View => { v with self }) h.view'
  muted := h.muted
  muted' := h.muted'
  scopes := h.scopes
  diagnostics := h.diagnostics

end Abreast

/-- Two checks side by side, over symbols that agree. -/
def parallel : Simulation :=
  Abreast.lockstep.simulation fun {w _ _} h => by
    rw [h.view, h.view']
    exact ⟨w.agree, rfl⟩

namespace Course

variable {w : Course}

theorem closeScopes : Sim (Abreast w) closeScopes closeScopes :=
  .modify fun _ _ h => Abreast.lockstep.change (·.truncate 0) h

/-- Inside of a block for a struct, `Self` stands for the struct. -/
theorem level (hw : w.self = none) : parallel.Level w where
  close := w.closeScopes
  block self {m m'} hm c c' h := by
    obtain ⟨-, hend⟩ := hm _ (closeScopes (w := { w with self })) (h.setSelf self)
    have hnone := hend.setSelf none
    rw [show ({ w with self := none } : Course) = w by rw [← hw]] at hnone
    exact ⟨rfl, hnone⟩

end Course

/-! ## The diagnostics of an item -/

/-- Two checks that begin at module level. -/
def Course.root {s s' : Symbols} (h : s.Agree s') : Course :=
  { symbols := s, symbols' := s', agree := h }

theorem Abreast.root {s s' : Symbols} (h : s.Agree s') :
    Abreast (.root h) { view := { symbols := s } } { view := { symbols := s' } } :=
  ⟨rfl, rfl, rfl, rfl, rfl, [], rfl, rfl⟩

/-- What the second pass complains about in an item, given the symbols of the script. -/
def itemDiagnostics (s : Symbols) (x : Item) : List Diagnostic :=
  ((item Expr.part x).run { view := { symbols := s } }).2.report.diagnostics

/-- Symbols that agree lead to the same complaints. -/
theorem itemDiagnostics_congr {s s' : Symbols} (h : s.Agree s') (x : Item) :
    itemDiagnostics s x = itemDiagnostics s' x := by
  obtain ⟨-, hend⟩ := parallel.item (Course.level rfl) x (Abreast.root h)
  obtain ⟨added, hadded, hadded'⟩ := hend.diagnostics
  exact hadded.trans hadded'.symm

/-- The type of a constant is decided by what all names stand for. -/
theorem Declare.inferred_congr {s s' : Symbols} (h : s.Agree s') (value : Expr) :
    inferred s value = inferred s' value := by
  have hsame : Sim (Abreast (.root h)) (openScope none .block >>= fun id => value.infer id none)
      (openScope none .block >>= fun id => value.infer id none) :=
    parallel.openScope .none .block fun id id' hid =>
      parallel.infer value.part none (parallel.keeps_part value) hid
  exact (hsame (Abreast.root h)).1

/-- The state of the second pass between two items. -/
structure Rooted (s : Symbols) (c : Checker) : Prop where
  view : c.view = { symbols := s }
  scopes : c.scopes = {}
  muted : c.muted = 0

theorem Scopes.truncate_zero (s : Scopes) : s.truncate 0 = {} :=
  ext_getElem? fun i => by rw [scopes_truncate, if_neg (Nat.not_lt_zero i)]; rfl

/-- Checking an item adds its complaints to the report, and nothing else of it is left. -/
theorem Rooted.item {s : Symbols} {c : Checker} (h : Rooted s c) (x : Item) :
    Rooted s ((do item Expr.part x; closeScopes).run c).2 ∧
      ((do item Expr.part x; closeScopes).run c).2.report.diagnostics =
        c.report.diagnostics ++ itemDiagnostics s x := by
  have hstart : Abreast { Course.root (.refl s) with before' := c.report.diagnostics }
      { view := { symbols := s } } c :=
    ⟨rfl, h.view, rfl, h.muted, h.scopes.symm, [], rfl, (List.append_nil _).symm⟩
  obtain ⟨-, hend⟩ := parallel.item (Course.level rfl) x hstart
  obtain ⟨added, hadded, hadded'⟩ := hend.diagnostics
  exact ⟨⟨hend.view', Scopes.truncate_zero _, hend.muted'⟩,
    hadded'.trans (congrArg (c.report.diagnostics ++ ·) hadded.symm)⟩

theorem Rooted.state_items {s : Symbols} : (xs : List Item) → {c : Checker} → Rooted s c →
    Rooted s ((items Expr.part xs).run c).2
  | [], _, h => h
  | x :: xs, _, h => Rooted.state_items xs (h.item x).1

theorem Rooted.items {s : Symbols} : (xs : List Item) → {c : Checker} → Rooted s c →
    ((items Expr.part xs).run c).2.report.diagnostics =
      c.report.diagnostics ++ xs.flatMap (itemDiagnostics s)
  | [], c, _ => (List.append_nil _).symm
  | x :: xs, c, h => by
    obtain ⟨hroot, hdiagnostics⟩ := h.item x
    have hrest := Rooted.items xs hroot
    rw [hdiagnostics, List.append_assoc, ← List.flatMap_cons] at hrest
    exact hrest

/-- The diagnostics of a script: those of its declarations, then those of its items one by one. -/
theorem Script.diagnostics_validate (registry : Registry) (script : Script) :
    (script.validate registry).report.diagnostics =
      (script.declarations registry).diagnostics ++
        script.items.flatMap (itemDiagnostics (script.declarations registry).symbols) :=
  Rooted.items script.items ⟨rfl, rfl, rfl⟩

/-- The state of the second pass when it has checked the given items at the head of a script. -/
def Script.checker (registry : Registry) (script : Script) (xs : List Item) : Checker :=
  ((Check.items Expr.part xs).run
    { view := { symbols := (script.declarations registry).symbols }
      report := { diagnostics := (script.declarations registry).diagnostics } }).2

theorem Script.rooted_checker (registry : Registry) (script : Script) (xs : List Item) :
    Rooted (script.declarations registry).symbols (script.checker registry xs) :=
  Rooted.state_items xs ⟨rfl, rfl, rfl⟩

theorem run_items_append (ys : List Item) : (xs : List Item) → (c : Checker) →
    (items Expr.part (xs ++ ys)).run c = (items Expr.part ys).run ((items Expr.part xs).run c).2
  | [], _ => rfl
  | _ :: xs, _ => run_items_append ys xs _

/-- The second pass comes to an item, checks it and goes on. -/
theorem Script.report_validate (registry : Registry) (script : Script) {earlier later : List Item}
    {x : Item} (hitems : script.items = earlier ++ x :: later) :
    (script.validate registry).report =
      ((Check.items Expr.part later).run (closeScopes.run
        ((Check.item Expr.part x).run (script.checker registry earlier)).2).2).2.report.finish := by
  have hrun := run_items_append (x :: later) earlier (script.checker registry [])
  rw [← hitems] at hrun
  exact congrArg (fun result => result.2.report.finish) hrun

end ScriptCheck
