import ScriptCheck.Proofs.Instances

/-!
# Calls of generic functions

A generic function that is called with variables of just the types that some bindings give its
parameters is called without complaint, and the call has the type that these bindings give the
result. The bindings are found argument by argument, so that only those of exposed placeholders are
known in the end; all others are unknown in the result (`exact_instance_inferred`).
-/

namespace ScriptCheck

namespace Check

open Checker Ty

/-- In a view and with the given scopes, the computation returns `a` and complains about nothing. -/
def Passes {α : Type} (v : View) (scopes : Scopes) (m : CheckM α) (a : α) : Prop :=
  ∀ c, c.view = v → c.scopes = scopes → (m.run c).1 = a ∧ Noted [] c (m.run c).2

namespace Passes

variable {α β : Type} {v : View} {scopes : Scopes} {m : CheckM α} {a : α} {b : β} {id : Nat}

theorem of_writes (h : Writes v m a []) : Passes v scopes m a := fun c hc _ => h c hc

theorem pure (a : α) : Passes v scopes (pure a) a := of_writes (.pure a)

theorem bind {k : α → CheckM β} (hm : Passes v scopes m a) (hk : Passes v scopes (k a) b) :
    Passes v scopes (m >>= k) b := by
  intro c hview hscopes
  obtain ⟨hvalue, hnoted⟩ := hm c hview hscopes
  obtain ⟨hvalue', hnoted'⟩ :=
    hk (m.run c).2 (hnoted.view.trans hview) (hnoted.scopes.trans hscopes)
  change ((k (m.run c).1).run (m.run c).2).1 = b ∧ Noted [] c ((k (m.run c).1).run (m.run c).2).2
  rw [hvalue]
  refine ⟨hvalue', hnoted'.view.trans hnoted.view, hnoted'.scopes.trans hnoted.scopes,
    hnoted'.muted.trans hnoted.muted, ?_⟩
  rw [hnoted'.diagnostics, hnoted.diagnostics]
  simp

theorem symbols {k : Symbols → CheckM α} (h : Passes v scopes (k v.symbols) a) :
    Passes v scopes (symbols >>= k) a :=
  fun c hview hscopes => (hview ▸ h) c rfl hscopes

/-- A name that is found leaves no more than its marks. -/
theorem mark (name : Ident) (found : Resolved) : Passes v scopes (mark name found) () := by
  have htoken : Writes v (markToken name.range found) () [] := by
    unfold markToken
    split <;> exact .token _ _ _
  exact of_writes (htoken.bind ((Writes.link _ _).bind (.hoverText _ _)))

/-- A local variable is of the type that it was declared with. -/
theorem localVar (range : Range) {name : Ident} {value : Local} (hint : Option Ty)
    (h : scopes.local? id name.name = some value) :
    Passes v scopes ((Expr.var range none name).part.check id hint) value.ty := by
  let found : Resolved :=
    ⟨value.ty, value.definition, "", .var value.isConst value.isParam⟩
  have hlookup : Passes v scopes (lookup name.name id none) (some found) := by
    rintro c - rfl
    refine ⟨?_, rfl, rfl, rfl, by split <;> exact (List.append_nil _).symm⟩
    change c.scopes.resolve? _ _ _ _ = _
    rw [Scopes.resolve?, h]
  have hvar : Passes v scopes (Check.var none name id) value.ty :=
    hlookup.bind ((mark name found).bind (pure _))
  have htype : Writes v (setType range value.ty) () [] := .note fun _ => (List.append_nil _).symm
  exact hvar.bind ((of_writes htype).bind (pure _))

/-- What is accepted is not complained about. -/
theorem expect {expected found : Ty} (range : Range) (h : v.symbols.accepts expected found = true) :
    Passes v scopes (expect expected found range) () := by
  refine symbols (k := fun s => if s.accepts expected found then Pure.pure () else
    error (.mismatch expected found) range) ?_
  rw [if_pos h]
  exact pure ()

theorem countArguments (name : Ident) (callee : Signature Ty) :
    Passes v scopes (countArguments name callee callee.params.length) () := by
  have hrequired : callee.required ≤ callee.params.length := List.length_filter_le _ _
  rw [Check.countArguments, if_neg (by omega), if_neg (by omega)]
  exact pure ()

end Passes

/-! ## Arguments of instances -/

/-- A local variable as an argument: where it stands and its name. -/
abbrev VarArg := Range × Ident

/-- The variable as its surroundings see it. -/
def VarArg.part (arg : VarArg) : Part := (Expr.var arg.1 none arg.2).part

/-- The variable is of the type that the bindings give the parameter. -/
def Exact (registry : Registry) (scopes : Scopes) (id : Nat) (s : Bindings) (arg : VarArg)
    (param : Param Ty) : Prop :=
  ∃ value ∈ scopes.local? id arg.2.name,
    value.ty = param.ty.fill registry s ∧ value.ty.Unambiguous

instance (registry : Registry) (scopes : Scopes) (id : Nat) (s : Bindings) (arg : VarArg)
    (param : Param Ty) : Decidable (Exact registry scopes id s arg param) :=
  inferInstanceAs (Decidable (∃ value ∈ scopes.local? id arg.2.name, _ ∧ _))

/-- The arguments with the types that the bindings give their parameters. -/
def foundArguments (registry : Registry) (s : Bindings) (args : List VarArg)
    (params : List (Param Ty)) : List Argument :=
  List.zipWith (fun arg param => ⟨VarArg.part arg, param, some (param.ty.fill registry s)⟩) args
    params

variable {v : View} {registry : Registry} {scopes : Scopes} {id : Nat} {s : Bindings}
  {args : List VarArg} {params : List (Param Ty)}

/-- The first pass finds the bindings of all exposed placeholders. -/
theorem passes_guided (h : List.Forall₂ (Exact registry scopes id s) args params)
    (hs : s.Settles (exposedOfParams params)) : (bound : Bindings) → s.Fewer bound →
    ∃ more, s.Adopts (exposedOfParams params) bound more ∧
      Passes v scopes
        (guided registry false id bound
          (List.zipWith (fun part param => { part, param : Argument }) (args.map VarArg.part)
            params))
        (more, foundArguments registry s args params) := by
  induction h with
  | nil => exact fun bound _ => ⟨bound, .refl s bound, .pure _⟩
  | @cons arg param args params harg _ ih =>
    intro bound hbound
    obtain ⟨value, hlocal, hty, -⟩ := harg
    obtain ⟨hparam, hrest⟩ := Bindings.settles_append.1 hs
    have hadopts := adopts_guess_fill registry bound hbound param.ty hparam
    obtain ⟨more, hmore, hpasses⟩ := ih hrest _ (hadopts.fewer hbound)
    refine ⟨more, hadopts.trans hmore, ?_⟩
    have hvar := Passes.localVar (v := v) arg.1 (some (param.ty.fill registry bound)) hlocal
    rw [hty] at hvar
    exact hvar.bind (hpasses.bind (.pure _))

/-- The second pass finds no lambda. -/
theorem passes_guided_lambdas (bound : Bindings) : (args : List VarArg) →
    (params : List (Param Ty)) →
    Passes v scopes (guided registry true id bound (foundArguments registry s args params))
      (bound, foundArguments registry s args params)
  | [], _ | _ :: _, [] => .pure _
  | _ :: args, _ :: params => (passes_guided_lambdas bound args params).bind (.pure _)

/-- An instance is accepted by what the bindings found make of the parameter. -/
theorem passes_compare (h : List.Forall₂ (Exact registry scopes id s) args params)
    {bound : Bindings} (hbound : s.Fewer bound) :
    Passes v scopes (compare registry bound (foundArguments registry s args params)) () := by
  induction h with
  | nil => exact .pure ()
  | @cons arg param args params harg _ ih =>
    obtain ⟨value, -, hty, hunambiguous⟩ := harg
    rw [hty] at hunambiguous
    have hinterchange : v.symbols.Interchange _ _ :=
      Symbols.interchange_of_fades hunambiguous (fades_fill registry hbound param.ty)
    exact (Passes.expect _ (Symbols.accepts_eq_true_iff.2 hinterchange.2)).bind ih

end Check

open Check Ty in
/-- Variables of the types that bindings give the parameters of a function are accepted as its
arguments, and the call is of the type that the bindings give the result, as far as they can be told
from the arguments. -/
theorem exact_instance_inferred (callee : Signature Ty) (s : Bindings) (c : Checker) (id : Nat)
    (name : Ident) (args : List VarArg) (hs : s.Settles (exposedOfParams callee.params))
    (hargs : List.Forall₂ (Exact c.view.symbols.registry c.scopes id s) args callee.params) :
    let registry := c.view.symbols.registry
    let outcome := (arguments callee [] (args.map VarArg.part) name id none).run c
    outcome.1 =
        (callee.result.fill registry (s.restrict (exposedOfParams callee.params))).erase ∧
      outcome.2.report.diagnostics = c.report.diagnostics ∧ outcome.2.scopes = c.scopes := by
  intro registry outcome
  obtain ⟨bound, hadopts, hguided⟩ := passes_guided (v := c.view) hargs hs {} fun _ => .inl rfl
  have hlength : (args.map VarArg.part).length = callee.params.length := by
    rw [List.length_map, hargs.length_eq]
  have hcount : Passes c.view c.scopes
      (countArguments name callee (args.map VarArg.part).length) () := by
    rw [hlength]
    exact .countArguments name callee
  have hunguided : Passes c.view c.scopes
      (unguided id ((args.map VarArg.part).drop callee.params.length)) () := by
    rw [← hlength, List.drop_length]
    exact .pure ()
  have hcompare := passes_compare (v := c.view) hargs (hadopts.fewer fun _ => .inl rfl)
  have hpasses : Passes c.view c.scopes
      (arguments callee [] (args.map VarArg.part) name id none)
      (callee.result.fill registry bound).erase :=
    .symbols (hcount.bind (.bind (.pure _) (hguided.bind
      ((passes_guided_lambdas bound args callee.params).bind
        (hunguided.bind (hcompare.bind (.pure _)))))))
  obtain ⟨hvalue, hnoted⟩ := hpasses c rfl rfl
  refine ⟨?_, by simpa using hnoted.diagnostics, hnoted.scopes⟩
  rw [hvalue, fill_congr registry hadopts.agree_restrict]

/-- The signature `pair<T, U, V>(xs : T[], make : fn(T) -> U, box : Box<V>) -> Result<(T, U), V>`
for a library type `Box`. -/
def pairUp : Signature Ty :=
  { generics := ["T", "U", "V"]
    params :=
      [⟨"xs", .array (.placeholder "T"), false⟩,
        ⟨"make", .fn [.placeholder "T"] (.placeholder "U"), false⟩,
        ⟨"box", .applied ⟨"lib", "Box"⟩ [.placeholder "V"], false⟩]
    result := .result (.tuple [.placeholder "T", .placeholder "U"]) (.placeholder "V") }

/-- Bindings for the placeholders of `pairUp`. -/
def pairUpBindings : Bindings :=
  .ofList [("T", .int), ("U", .anonymous [("x", .float)]), ("V", .string)]

/-- A check with a scope that has variables `a`, `b` and `c` for the arguments of `pairUp`. -/
def pairUpChecker : Checker :=
  { view := { symbols := { registry := .empty, moduleName := "main" } }
    scopes :=
      ((Scopes.push {} none .block).declare 0 "a" { ty := .array .int }).declare 0 "b"
          { ty := .fn [.int] (.anonymous [("x", .float)]) } |>.declare 0 "c"
        { ty := .applied ⟨"lib", "Box"⟩ [.string] } }

open Check Ty in
/-- The bindings of `T` and `U` are found. That of `V` is not, since `V` stands inside an argument
of a library type only; `Box<V>` accepts `Box<string>` all the same. -/
theorem exact_instance_inferred_pairUp :
    let args : List VarArg := ["a", "b", "c"].map fun name => ({}, ⟨name, {}⟩)
    let outcome :=
      (arguments pairUp [] (args.map VarArg.part) ⟨"pair", {}⟩ 0 none).run pairUpChecker
    pairUpBindings.Settles (exposedOfParams pairUp.params) ∧
      List.Forall₂ (Exact .empty pairUpChecker.scopes 0 pairUpBindings) args pairUp.params ∧
      outcome.1 = .result (.tuple [.int, .anonymous [("x", .float)]]) .unknown ∧
      outcome.2.report.diagnostics = [] := by
  intro args outcome
  have hs : pairUpBindings.Settles (exposedOfParams pairUp.params) := by decide +kernel
  have hargs : List.Forall₂ (Exact .empty pairUpChecker.scopes 0 pairUpBindings) args
      pairUp.params := by decide +kernel
  obtain ⟨hvalue, hdiagnostics, -⟩ :=
    exact_instance_inferred pairUp pairUpBindings pairUpChecker 0 ⟨"pair", {}⟩ args hs hargs
  exact ⟨hs, hargs, hvalue.trans (by decide +kernel), hdiagnostics⟩

end ScriptCheck
