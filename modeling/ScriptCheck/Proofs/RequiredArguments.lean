import ScriptCheck.Proofs.RegimeExpr

/-!
# Calls with too few arguments

A call is complained about if it has fewer arguments than its callee has parameters without a
default. Arguments are counted, not matched: where a parameter with a default stands in front of one
without, a call with enough arguments can leave the latter out. Callees whose defaults come last are
exactly those for which this cannot happen (`accepted_calls_supply_required_iff`).
-/

namespace ScriptCheck

open Check

/-! ## Parameters with defaults -/

namespace Signature

/-- Behind a parameter with a default all parameters have one. -/
def DefaultsLast (s : Signature Ty) : Prop :=
  s.params.Pairwise fun p q => p.hasDefault = true → q.hasDefault = true

theorem required_le_length (s : Signature Ty) : s.required ≤ s.params.length :=
  List.length_filter_le _ _

/-- If defaults come last, there are only defaults behind as many parameters as are required. -/
theorem DefaultsLast.hasDefault_of_mem_drop {s : Signature Ty} (h : s.DefaultsLast) {count : Nat}
    (hcount : s.required ≤ count) : ∀ p ∈ s.params.drop count, p.hasDefault = true := by
  unfold DefaultsLast at h
  unfold required at hcount
  generalize s.params = params at h hcount ⊢
  induction params generalizing count with
  | nil => simp
  | cons p rest ih =>
    obtain ⟨hp, hrest⟩ := List.pairwise_cons.1 h
    cases hdefault : p.hasDefault with
    | true =>
      have hall : ∀ q ∈ p :: rest, q.hasDefault = true :=
        List.forall_mem_cons.2 ⟨hdefault, fun q hq => hp q hq hdefault⟩
      exact fun q hq => hall q (List.mem_of_mem_drop hq)
    | false =>
      rw [List.filter_cons_of_pos (by simp [hdefault]), List.length_cons] at hcount
      cases count with
      | zero => omega
      | succ count => exact ih hrest (Nat.le_of_succ_le_succ hcount)

/-- If there are only defaults behind as many parameters as are required, then the parameters in
front of them are exactly the required ones. -/
theorem DefaultsLast.of_hasDefault {s : Signature Ty}
    (h : ∀ p ∈ s.params.drop s.required, p.hasDefault = true) : s.DefaultsLast := by
  have hdrop : (s.params.drop s.required).filter (fun p => !p.hasDefault) = [] := by
    rw [List.filter_eq_nil_iff]
    intro p hp
    simp [h p hp]
  have htake : ∀ p ∈ s.params.take s.required, p.hasDefault = false := by
    have hlength : ((s.params.take s.required).filter fun p => !p.hasDefault).length =
        (s.params.take s.required).length := by
      rw [List.length_take_of_le s.required_le_length]
      calc ((s.params.take s.required).filter fun p => !p.hasDefault).length
        _ = ((s.params.take s.required ++ s.params.drop s.required).filter
              fun p => !p.hasDefault).length := by rw [List.filter_append, hdrop, List.append_nil]
        _ = s.required := by rw [List.take_append_drop, required]
    intro p hp
    simpa using List.length_filter_eq_length_iff.1 hlength p hp
  have hpairwise : (s.params.take s.required ++ s.params.drop s.required).Pairwise
      fun p q => p.hasDefault = true → q.hasDefault = true := by
    refine List.pairwise_append.2 ⟨?_, ?_, fun p _ q hq _ => h q hq⟩
    · refine List.pairwise_of_forall_mem_list fun p hp q _ hdefault => ?_
      rw [htake p hp] at hdefault
      cases hdefault
    · exact List.pairwise_of_forall_mem_list fun _ _ q hq _ => h q hq
  rwa [List.take_append_drop] at hpairwise

end Signature

/-! ## Complaints about the number of arguments -/

/-- Margins that leave out a single range. -/
def Margins.apartFrom (r : Range) : Margins := ⟨(· ≠ r), (· ≠ r), id⟩

/-- The diagnostics that a computation adds where nothing is muted. -/
def Check.complaints {α : Type} (m : CheckM α) (c : Checker) : List Diagnostic :=
  (m.run { c with report := {}, muted := 0 }).2.report.diagnostics

/-- The diagnostic is about the number of arguments in a call of the name. -/
def Diagnostic.MiscountsArguments (name : Ident) (d : Diagnostic) : Prop :=
  d.range = name.range ∧ ∃ expected found, d.problem = .count (.arguments name.name) expected found

/-- The number of arguments is complained about if it is too small or too large. -/
theorem Check.countArguments_eq (name : Ident) (callee : Signature Ty) (found : Nat) :
    countArguments name callee found = pure () ∧
        callee.required ≤ found ∧ found ≤ callee.params.length ∨
      ∃ expected, countArguments name callee found =
        error (.count (.arguments name.name) expected found) name.range := by
  unfold countArguments
  dsimp only
  split
  · exact .inr ⟨_, rfl⟩
  · split
    · exact .inr ⟨_, rfl⟩
    · exact .inl ⟨rfl, by omega, by omega⟩

/-- What is true of the diagnostics stays true if it does with every further one that may be
written. -/
theorem diagnostics_invariant {W : Margins} {P : List Diagnostic → Prop}
    (h : ∀ ds d, W.spots d.range → P ds → P (ds ++ [d])) :
    Invariant (fun c => P c.report.diagnostics) Any Any { margins := W } where
  view _ := trivial
  placed _ := .any
  local? _ _ := ⟨trivial, fun _ _ => trivial⟩
  write {_ entry} hc hentry := by
    cases entry with
    | diagnostic d => exact h _ d hentry.2 hc
    | token | hint | definition | hover | type => exact hc
  declare _ _ _ hc _ _ := hc
  push _ _ hc := hc
  truncate _ hc := hc
  mute _ hc := hc

section Accepted

variable {callee : Signature Ty} {args : List Expr} {name : Ident}

/-- Arguments that were counted are checked within the margins in which they stand. -/
theorem Check.runs_boundArguments {W : Margins} {P : List Diagnostic → Prop}
    (h : ∀ ds d, W.spots d.range → P ds → P (ds ++ [d])) (callee : Signature Ty)
    {args : List Expr} (hargs : ∀ arg ∈ args, W.Covers arg) (id : Nat) (v : View)
    (bound : Bindings) :
    ((diagnostics_invariant h).regime .any).Runs ⟨(), id, id, rfl⟩ (Expr.effectOfArgs args) Any
      (boundArguments callee (Expr.parts args) id v.symbols.registry bound)
      (boundArguments callee (Expr.parts args) id v.symbols.registry bound) := by
  have hparts := (Regime.wraps_id (L := (diagnostics_invariant h).regime .any)
    fun _ => trivial).args args fun arg harg => ⟨fun _ _ => trivial, fun _ _ => trivial,
      fun _ _ => trivial, fun _ _ => trivial, hargs arg harg⟩
  exact Regime.boundArguments trivial hparts ⟨rfl, trivial⟩ fun _ _ => trivial

/-- A call is accepted only with enough arguments and not too many. -/
theorem Check.length_of_accepted {typeArgs : List TypeSpec} {id : Nat} {hint : Option Ty}
    {c : Checker}
    (h : ¬∃ d ∈ complaints (arguments callee typeArgs (Expr.parts args) name id hint) c,
      d.MiscountsArguments name) :
    callee.required ≤ args.length ∧ args.length ≤ callee.params.length := by
  obtain ⟨-, hcount⟩ | ⟨expected, hcount⟩ := countArguments_eq name callee args.length
  · exact hcount
  · -- The complaint is written, and nothing that follows takes it back.
    let d : Diagnostic := ⟨.error, .count (.arguments name.name) expected args.length, name.range⟩
    have hkept (ds : List Diagnostic) (d' : Diagnostic) (_ : Margins.wide.spots d'.range)
        (hd : d ∈ ds) : d ∈ ds ++ [d'] := List.mem_append_left _ hd
    have hexplicit : ((diagnostics_invariant hkept).regime .any).Keeps ⟨(), id, id, rfl⟩ _
        (explicitBindings name callee.generics typeArgs) :=
      Regime.explicitBindings trivial _ fun _ _ => .of_any rfl fun _ _ => trivial
    have hcovers : ∀ arg ∈ args, Margins.wide.Covers arg := fun arg _ => Margins.wide_covers arg
    have hrest := hexplicit.quiet fun bound _ =>
      runs_boundArguments hkept callee hcovers id c.view (guessed callee hint bound)
    refine absurd ⟨d, ?_, rfl, _, _, rfl⟩ h
    let start : Checker := { c with report := { diagnostics := [d] }, muted := 0 }
    have hlength : (Expr.parts args).length = args.length := by
      rw [Expr.parts_eq_map, List.length_map]
    have hwritten : ((countArguments name callee (Expr.parts args).length).run
        { c with report := {}, muted := 0 }).2 = start := by rw [hlength, hcount]; rfl
    have hend := (hrest start start ⟨rfl, List.mem_singleton_self d⟩).2.1.2
    rw [← hwritten] at hend
    exact hend

/-- With a right number of arguments, none of which stands at the name, and without type arguments
nothing is complained about at the name. -/
theorem Check.accepted_of_length (hmin : callee.required ≤ args.length)
    (hmax : args.length ≤ callee.params.length)
    (hargs : ∀ arg ∈ args, (Margins.apartFrom name.range).Covers arg) (id : Nat)
    (hint : Option Ty) (c : Checker) :
    ¬∃ d ∈ complaints (arguments callee [] (Expr.parts args) name id hint) c,
      d.MiscountsArguments name := by
  let Apart (ds : List Diagnostic) : Prop := ∀ d ∈ ds, d.range ≠ name.range
  have hapart (ds : List Diagnostic) (d : Diagnostic)
      (hd : (Margins.apartFrom name.range).spots d.range) (h : Apart ds) : Apart (ds ++ [d]) :=
    List.forall_mem_append.2 ⟨h, List.forall_mem_singleton.2 hd⟩
  have hcount : countArguments name callee (Expr.parts args).length = pure () := by
    rw [Expr.parts_eq_map, List.length_map, countArguments, if_neg (by omega), if_neg (by omega)]
  have hrun := runs_boundArguments hapart callee hargs id c.view (guessed callee hint .empty)
  let start : Checker := { c with report := {}, muted := 0 }
  have hsame : (arguments callee [] (Expr.parts args) name id hint).run start =
      (boundArguments callee (Expr.parts args) id c.view.symbols.registry
        (guessed callee hint .empty)).run start := by
    have hexplicit : explicitBindings name callee.generics [] = pure .empty := rfl
    rw [arguments, hcount, run_symbols_bind, pure_bind, hexplicit, pure_bind]
  rintro ⟨d, hd, hrange, -⟩
  rw [complaints, hsame] at hd
  exact (hrun start start ⟨rfl, List.forall_mem_nil _⟩).2.1.2 d hd hrange

end Accepted

/-- All parameters that a call leaves out without a complaint about the number of its arguments have
a default, if and only if the defaults of the callee come last. -/
theorem accepted_calls_supply_required_iff (callee : Signature Ty) :
    callee.DefaultsLast ↔
      ∀ (typeArgs : List TypeSpec) (args : List Expr) (name : Ident) (id : Nat) (hint : Option Ty)
        (c : Checker),
        (¬∃ d ∈ Check.complaints
            (Check.arguments callee typeArgs (Expr.parts args) name id hint) c,
          d.MiscountsArguments name) →
        ∀ param ∈ callee.params.drop args.length, param.hasDefault = true := by
  constructor
  · intro h typeArgs args name id hint c haccepted
    exact h.hasDefault_of_mem_drop (length_of_accepted haccepted).1
  · intro h
    -- A call with as many numbers as there are required parameters, anywhere but at its name.
    let name : Ident := ⟨"", {}⟩
    let arg : Expr := .int ⟨{}, ⟨1, 0, 1⟩⟩ 0
    let args := List.replicate callee.required arg
    have hlength : args.length = callee.required := List.length_replicate
    have hapart : (⟨{}, ⟨1, 0, 1⟩⟩ : Range) ≠ {} := by decide
    have hcovers : ∀ a ∈ args, (Margins.apartFrom name.range).Covers a := by
      intro a ha node hnode
      obtain rfl := List.eq_of_mem_replicate ha
      obtain rfl := List.mem_singleton.1 hnode
      exact ⟨hapart, List.forall_mem_nil _, List.forall_mem_nil _⟩
    have haccepted := accepted_of_length hlength.ge (hlength.le.trans callee.required_le_length)
      hcovers 0 none { view := { symbols := { registry := .empty, moduleName := "" } } }
    have hdefaults := h [] args name 0 none _ haccepted
    rw [hlength] at hdefaults
    exact .of_hasDefault hdefaults

/-- The script `fn f(a : int = 1, b : int) -> int = b`, `const c = f(2)`. -/
def defaultFirst : Script :=
  let one : Expr := .int {} 1
  .ofItems
    [.function (.ofBody "f"
        [{ ParamDecl.ofType "a" (.plain "int") with default := some one },
          .ofType "b" (.plain "int")] "int" (.ofName "b")),
      .const (.ofValue "c" (.ofCall "f" [.int {} 2]))]

/-- The call has one argument and is accepted, though the second parameter has no default. -/
theorem defaultFirst_leaves_required_out :
    (defaultFirst.validate .empty).report.diagnostics = [] ∧
      ∃ signature, ((defaultFirst.validate .empty).symbols.functions.get? "f").map Value.ty =
          some (.function signature) ∧
        ∃ param ∈ signature.params.drop 1, param.hasDefault = false :=
  ⟨by decide +kernel,
    { params := [⟨"a", Ty.int, true⟩, ⟨"b", Ty.int, false⟩], result := Ty.int },
    by decide +kernel, ⟨"b", Ty.int, false⟩, List.mem_singleton_self _, rfl⟩

end ScriptCheck
