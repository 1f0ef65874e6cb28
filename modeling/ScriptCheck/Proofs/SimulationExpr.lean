import ScriptCheck.Proofs.RegimeExpr

/-!
# Simulation of expressions

A simulation is a regime in which all types are good and effects do not matter. Hence every rule
keeps it, and so does the check of an expression, provided that the simulation knows the plain names
that the expression mentions (`PartialSimulation.keeps_mentions`).
-/

namespace ScriptCheck

open Check

namespace PartialSimulation

variable (S : PartialSimulation)

/-- What a simulation asks of the states of the two runs. -/
def terms : Terms Unit where
  World := S.World
  rel := S.rel
  ids := S.ids
  Like v v' := v.Similar v' ∧
    ∀ name, S.knows name → v.symbols.constants.get? name = v'.symbols.constants.get? name
  Good _ := True
  Hint _ := True
  Outside _ := True
  Known := S.knows
  Twins p p' := p' = p
  Post _ _ _ _ := True

variable {S} {w : S.World} {id id' : Nat} {α : Type} {P : α → Prop} {m m' : CheckM α}

/-- Both runs return the same. -/
theorem sim (h : Coupled (S.rel w) (Same P) m m') : Sim (S.rel w) m m' :=
  fun _ _ hc => ⟨(h hc).1.1.symm, (h hc).2⟩

theorem coupled (h : Sim (S.rel w) m m') : Coupled (S.rel w) (Same Any) m m' :=
  fun _ _ hc => ⟨⟨(h hc).1.symm, trivial⟩, (h hc).2⟩

theorem stateLaws (S : PartialSimulation) : StateLaws S.terms where
  like h := ⟨S.similar h, fun _ => S.constant h⟩
  rel_local? name h hid := ⟨(S.local? name h hid).symm, fun _ _ => trivial⟩
  rel_inLoop h hid := (S.inLoop h hid).symm
  rel_returnType? h hid := ⟨(S.returnType? h hid).symm, fun _ _ => trivial⟩
  rel_write h _ := (S.note _ h).2
  rel_declare name value h hid _ _ := S.declare name value h hid
  rel_redeclare name problem range _ _ h hid := S.redeclare name problem range h hid
  rel_push {w _ _ _ _ _} h hid _ := ⟨w, S.size h, S.push _ h (.some hid), fun _ _ he => he⟩
  runs_infer {_ part g} hpart hcheck x hint _ := by
    subst hpart
    have hkeeps : S.Keeps part := fun w id id' hint hid =>
      sim (hcheck ⟨w, id, id', hid⟩ fun _ _ => trivial).coupled
    intro c c' hc
    obtain ⟨hvalue, hstate⟩ := S.infer part hint hkeeps x.same hc
    exact ⟨⟨hvalue.symm, trivial⟩, hstate, trivial⟩

/-- A simulation as a regime. -/
def regime (S : PartialSimulation) : Regime Unit where
  toTerms := S.terms
  toTypeLaws := .of_similar (fun _ => trivial) (fun _ => trivial) And.left fun h => h.2 _
  toStateLaws := S.stateLaws
  toEffectLaws := .any

theorem expect (expected found : Ty) (range : Range) :
    Sim (S.rel w) (Check.expect expected found range) (Check.expect expected found range) :=
  sim (Regime.top (L := S.regime) S.size (Regime.expect trivial trivial trivial rfl))

theorem require {part : Part} (hpart : S.Keeps part) (expected : Ty) (hid : S.ids w id id') :
    Sim (S.rel w) (Check.require part expected id) (Check.require part expected id') :=
  (hpart w id id' _ hid).bind fun _ => S.expect _ _ _

theorem enterParam (hid : S.ids w id id') (name : Ident) (ty : Ty) :
    Sim (S.rel w) (Check.enterParam id name ty) (Check.enterParam id' name ty) :=
  sim (Regime.enterParam (L := S.regime) (x := ⟨w, id, id', hid⟩) ⟨trivial, trivial⟩
    trivial).coupled

theorem enterParams (hid : S.ids w id id') (params : List (Ident × Ty)) :
    Sim (S.rel w) (Check.enterParams id [] params) (Check.enterParams id' [] params) := by
  have hrun : S.regime.Runs ⟨w, id, id', hid⟩ _ Any (Check.enterParams id [] params)
      (Check.enterParams id' [] params) := fun c c' =>
    Regime.enterParams [] params (fun _ _ => ⟨⟨trivial, trivial⟩, trivial⟩) c c'
      (List.forall_mem_nil _)
  exact sim hrun.coupled

theorem lambdaParams (params : List LambdaParam) (expected : List (Param Ty)) :
    Sim (S.rel w) (Check.lambdaParams params expected) (Check.lambdaParams params expected) :=
  sim (Regime.top (L := S.regime) S.size
    (Regime.lambdaParams params (fun _ _ => ⟨⟨trivial, trivial⟩, fun _ _ => .of_any rfl fun _ _ =>
      trivial⟩) expected fun _ _ => trivial))

theorem declaredType (declared : Option Ty) {value : Part} (hvalue : S.Keeps value)
    (hid : S.ids w id id') :
    Sim (S.rel w) (Check.declaredType declared value id)
      (Check.declaredType declared value id') := by
  refine (hvalue w id id' _ hid).bind fun found => ?_
  cases declared with
  | some expected => exact (S.expect _ _ _).bind fun _ => .pure _
  | none => exact .pure _

/-- The check of an expression keeps every simulation that knows the names it mentions. -/
theorem runs_mentions {e : Expr} (h : ∀ name ∈ e.mentions, S.knows name) :
    e.part.Runs S.regime e.effect e.part :=
  S.regime.expr (fun _ => rfl) (.of_any rfl (fun _ _ => trivial) h)

variable (S)

theorem keeps_mentions (e : Expr) (h : ∀ name ∈ e.mentions, S.knows name) : S.Keeps e.part :=
  fun w id id' _ hid =>
    sim ((runs_mentions h).check (L := S.regime) ⟨w, id, id', hid⟩ fun _ _ => trivial).coupled

/-- Checking an expression keeps every simulation that knows all names. -/
theorem keeps_part [S.Total] (e : Expr) : S.Keeps e.part :=
  S.keeps_mentions e fun _ _ => Total.knows _

end PartialSimulation

end ScriptCheck
