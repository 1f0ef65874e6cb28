import ScriptCheck.Proofs.Agreement
import ScriptCheck.Proofs.ReportEntries

/-!
# Simulation of checks

Two runs of one check can start in different states and still take the same course: the symbols may
be entered in another order, the report may hold other entries, the scopes may be numbered
differently. A simulation is a family of relations between the states of two such runs that is kept
by the few operations through which a check reads and changes its state. Every other rule is put
together from these operations, so that it keeps the relations as well and returns the same in both
runs; `Check.Sim` says so of one computation.

The relations of a family are indexed by worlds, since an inference starts from a state of its own.
A world also says which scope numbers of the two runs belong together.

In a `PartialSimulation` the two runs may differ in constants, as long as those of the
names that it knows are the same. A `Simulation` knows all names. Runs that stand in the same scopes
are in `Lockstep`, and little has to be shown of them.
-/

namespace ScriptCheck

namespace Check

/-! ## Computations in two runs -/

/-- All values that a computation returns have the property. -/
def Returns {α : Type} (P : α → Prop) (m : CheckM α) : Prop := ∀ c, P (m.run c).1

theorem Returns.any {α : Type} (m : CheckM α) : Returns (fun _ => True) m := fun _ => trivial

theorem Returns.pure {α : Type} {P : α → Prop} {a : α} (h : P a) : Returns P (pure a) := fun _ => h

theorem Returns.bind {α β : Type} {P : β → Prop} {Q : α → Prop} {m : CheckM α} {k : α → CheckM β}
    (hm : Returns Q m) (hk : ∀ a, Q a → Returns P (k a)) : Returns P (m >>= k) :=
  fun c => hk _ (hm c) _

/-- Two computations that return the same from related states and end in related states. -/
def Sim {α : Type} (R : Checker → Checker → Prop) (m m' : CheckM α) : Prop :=
  ∀ ⦃c c' : Checker⦄, R c c' → (m.run c).1 = (m'.run c').1 ∧ R (m.run c).2 (m'.run c').2

namespace Sim

variable {R : Checker → Checker → Prop} {α β : Type}

theorem pure (a : α) : Sim R (pure a) (pure a) := fun _ _ h => ⟨rfl, h⟩

/-- What follows a computation need only be alike for the values that it returns. -/
theorem bindOn {P : α → Prop} {m m' : CheckM α} {k k' : α → CheckM β} (hm : Sim R m m')
    (hP : Returns P m') (hk : ∀ a, P a → Sim R (k a) (k' a)) : Sim R (m >>= k) (m' >>= k') := by
  intro c c' h
  obtain ⟨hval, hstate⟩ := hm h
  change ((k (m.run c).1).run (m.run c).2).1 = ((k' (m'.run c').1).run (m'.run c').2).1 ∧
    R ((k (m.run c).1).run (m.run c).2).2 ((k' (m'.run c').1).run (m'.run c').2).2
  rw [hval]
  exact hk (m'.run c').1 (hP c') hstate

theorem bind {m m' : CheckM α} {k k' : α → CheckM β} (hm : Sim R m m')
    (hk : ∀ a, Sim R (k a) (k' a)) : Sim R (m >>= k) (m' >>= k') :=
  hm.bindOn (.any m') fun a _ => hk a

theorem modify {f f' : Checker → Checker} (hf : ∀ c c', R c c' → R (f c) (f' c')) :
    Sim R (modify f) (modify f') :=
  fun c c' h => ⟨rfl, hf c c' h⟩

end Sim

theorem run_symbols_bind {α : Type} (k : Symbols → CheckM α) (c : Checker) :
    (symbols >>= k).run c = (k c.view.symbols).run c :=
  rfl

theorem run_note (change : Report → Report) (c : Checker) :
    (note change).run c =
      ((), if c.muted = 0 then { c with report := change c.report } else c) :=
  rfl

theorem run_ask_bind {α : Type} (expected found : Ty) (k : Bool → CheckM α) (c : Checker) :
    (Comparing.ask expected found >>= k).run c =
      (k (c.view.symbols.accepts expected found)).run c := by
  dsimp only [Comparing.ask]
  rw [bind_assoc, run_symbols_bind, pure_bind]

/-- An overload is searched for under the symbols of the script. -/
theorem search_eq (overloads : Symbols → List Overload) (other : Ty) :
    search overloads other = (do let s ← symbols; return s.pick? (overloads s) other) := by
  refine StateT.ext fun c => ?_
  change (Overload.pickWith Comparing.ask other (overloads c.view.symbols)).run c =
    (c.view.symbols.pick? (overloads c.view.symbols) other, c)
  induction overloads c.view.symbols with
  | nil => rfl
  | cons o rest ih =>
    have htaken : (o.takenWith Comparing.ask other).run c =
        (o.other.isUnit == other.isUnit && c.view.symbols.accepts o.other other, c) := by
      unfold Overload.takenWith
      cases o.other.isUnit == other.isUnit <;> rfl
    rw [Symbols.pick?, Overload.pickWith, Overload.pickWith, StateT.run_bind, htaken,
      Overload.takenWith]
    cases o.other.isUnit == other.isUnit with
    | false => exact ih
    | true =>
      cases c.view.symbols.accepts o.other other with
      | false => exact ih
      | true => rfl

/-- A mismatch is reported where the expected type does not accept the one found. -/
theorem run_expect (expected found : Ty) (range : Range) (c : Checker) :
    (expect expected found range).run c =
      if c.view.symbols.accepts expected found then ((), c)
      else (error (.mismatch expected found) range).run c := by
  unfold expect
  rw [run_ask_bind]
  cases c.view.symbols.accepts expected found <;> rfl

end Check

open Check

/-- The state from which an inference checks: it is muted and has a block of its own. -/
def Checker.silenced (c : Checker) (id : Nat) : Checker :=
  { c with muted := c.muted + 1, scopes := c.scopes.push (some id) .block }

theorem Check.run_infer (part : Part) (id : Nat) (hint : Option Ty) (c : Checker) :
    (infer part id hint).run c =
      let r := (part.check c.scopes.size hint).run (c.silenced id)
      (r.1, { r.2 with
        muted := r.2.muted - 1, scopes := r.2.scopes.truncate c.scopes.size }) :=
  rfl

theorem Check.view_note (change : Report → Report) (c : Checker) :
    ((note change).run c).2.view = c.view := by
  rw [run_note]
  dsimp only
  split <;> rfl

theorem Check.scopes_note (change : Report → Report) (c : Checker) :
    ((note change).run c).2.scopes = c.scopes := by
  rw [run_note]
  dsimp only
  split <;> rfl

/-! ## Simulations -/

/-- A family of relations between the states of two runs of a check that is kept by what a check
does with its state, as long as it asks only for known constants. -/
structure PartialSimulation where
  World : Type
  /-- How the states of the two runs belong together. -/
  rel : World → Checker → Checker → Prop
  /-- Which scopes of the two runs belong together. -/
  ids : World → Nat → Nat → Prop
  /-- The names that are the same constants in both runs, or in none. -/
  knows : String → Prop
  similar {w c c'} : rel w c c' → c.view.Similar c'.view
  constant {w c c' name} : rel w c c' → knows name →
    c.view.symbols.constants.get? name = c'.view.symbols.constants.get? name
  note {w} (entry : Report.Entry) :
    Sim (rel w) (Check.note (·.add entry)) (Check.note (·.add entry))
  size {w c c'} : rel w c c' → ids w c.scopes.size c'.scopes.size
  push {w c c' parent parent'} (kind : ScopeKind) : rel w c c' →
    Option.Rel (ids w) parent parent' →
    rel w { c with scopes := c.scopes.push parent kind }
      { c' with scopes := c'.scopes.push parent' kind }
  declare {w c c' id id'} (name : String) (value : Local) : rel w c c' → ids w id id' →
    rel w { c with scopes := c.scopes.declare id name value }
      { c' with scopes := c'.scopes.declare id' name value }
  redeclare {w c c' id id'} (name : String) (problem : Problem) (range : Range) : rel w c c' →
    ids w id id' → Sim (rel w)
      (if (c.scopes.own? id name).isSome then Check.error problem range else pure ())
      (if (c'.scopes.own? id' name).isSome then Check.error problem range else pure ())
  local? {w c c' id id'} (name : String) : rel w c c' → ids w id id' →
    c.scopes.local? id name = c'.scopes.local? id' name
  inLoop {w c c' id id'} : rel w c c' → ids w id id' →
    c.scopes.inLoop id = c'.scopes.inLoop id'
  returnType? {w c c' id id'} : rel w c c' → ids w id id' →
    c.scopes.returnType? id = c'.scopes.returnType? id'
  infer {w id id'} (part : Part) (hint : Option Ty) : (∀ w id id' hint, ids w id id' →
    Sim (rel w) (part.check id hint) (part.check id' hint)) → ids w id id' →
    Sim (rel w) (Check.infer part id hint) (Check.infer part id' hint)

/-- A family of relations between the states of two runs of a check that is kept by what a check
does with its state. -/
structure Simulation extends PartialSimulation where
  view {w c c'} : rel w c c' → c.view.Agree c'.view
  knows := fun _ => True
  total (name : String) : knows name := by intro; trivial
  similar := fun h => (view h).similar
  constant := fun h _ => (view h).symbols.constants _

/-- A simulation that knows all names. -/
class PartialSimulation.Total (S : PartialSimulation) : Prop where
  knows : ∀ name, S.knows name

instance (S : Simulation) : S.toPartialSimulation.Total := ⟨S.total⟩

namespace PartialSimulation

/-- A part takes the same course in both runs, wherever it stands. -/
def Keeps (S : PartialSimulation) (part : Part) : Prop :=
  ∀ w id id' hint, S.ids w id id' → Sim (S.rel w) (part.check id hint) (part.check id' hint)

variable {S : PartialSimulation} {w : S.World} {α : Type}

theorem typed (range : Range) {rule rule' : CheckM Ty} (h : Sim (S.rel w) rule rule') :
    Sim (S.rel w) (Check.typed range rule) (Check.typed range rule') :=
  h.bind fun ty => (S.note (.type range ty)).bind fun _ => .pure ty

theorem error (problem : Problem) (range : Range) :
    Sim (S.rel w) (Check.error problem range) (Check.error problem range) :=
  S.note (.diagnostic ⟨.error, problem, range⟩)

/-- The numbers of the scopes that both runs open belong together. -/
theorem openScope {parent parent' : Option Nat} (hp : Option.Rel (S.ids w) parent parent')
    (kind : ScopeKind) {k k' : Nat → CheckM α}
    (hk : ∀ id id', S.ids w id id' → Sim (S.rel w) (k id) (k' id')) :
    Sim (S.rel w) (Check.openScope parent kind >>= k) (Check.openScope parent' kind >>= k') :=
  fun _ _ h => hk _ _ (S.size h) (S.push kind h hp)

end PartialSimulation

/-! ## Runs in the same scopes -/

/-- Relations between runs in the same scopes. They are kept when both runs change their scopes in
the same way, and when both are muted. -/
structure Lockstep {World : Type} (rel : World → Checker → Checker → Prop) : Prop where
  scopes {w c c'} : rel w c c' → c.scopes = c'.scopes
  note {w c c'} (entry : Report.Entry) : rel w c c' →
    rel w ((Check.note (·.add entry)).run c).2 ((Check.note (·.add entry)).run c').2
  change {w c c'} (f : Scopes → Scopes) : rel w c c' →
    rel w { c with scopes := f c.scopes } { c' with scopes := f c'.scopes }
  mute (w) : ∃ inner, ∀ {c c' : Checker},
    (rel w c c' → rel inner { c with muted := c.muted + 1 } { c' with muted := c'.muted + 1 }) ∧
    (rel inner c c' → rel w { c with muted := c.muted - 1 } { c' with muted := c'.muted - 1 })

namespace Lockstep

variable {World : Type} {rel : World → Checker → Checker → Prop}

def partialSimulation (h : Lockstep rel) (knows : String → Prop)
    (similar : ∀ {w c c'}, rel w c c' → c.view.Similar c'.view)
    (constant : ∀ {w c c' name}, rel w c c' → knows name →
      c.view.symbols.constants.get? name = c'.view.symbols.constants.get? name) :
    PartialSimulation where
  World := World
  rel := rel
  ids _ := Eq
  knows := knows
  similar := similar
  constant := constant
  note entry _ _ hc := ⟨rfl, h.note entry hc⟩
  size hc := congrArg Scopes.size (h.scopes hc)
  push kind hc hparent := by
    cases hparent with
    | none => exact h.change (·.push none kind) hc
    | some hid => exact hid ▸ h.change (·.push _ kind) hc
  declare name value hc hid := hid ▸ h.change (·.declare _ name value) hc
  redeclare name problem range hc hid := by
    rw [h.scopes hc, hid]
    split
    · exact fun _ _ hd => ⟨rfl, h.note (.diagnostic ⟨.error, problem, range⟩) hd⟩
    · exact .pure ()
  local? name hc hid := by rw [h.scopes hc, hid]
  inLoop hc hid := by rw [h.scopes hc, hid]
  returnType? hc hid := by rw [h.scopes hc, hid]
  infer {w id _} part hint hpart hid := by
    obtain rfl := hid
    intro c c' hc
    obtain ⟨inner, hinner⟩ := h.mute w
    have hsize := congrArg Scopes.size (h.scopes hc)
    obtain ⟨htype, hend⟩ :=
      hpart inner _ _ hint hsize (h.change (·.push (some id) .block) (hinner.1 hc))
    rw [← hsize] at htype hend
    rw [run_infer, run_infer, ← hsize]
    exact ⟨htype, h.change (·.truncate c.scopes.size) (hinner.2 hend)⟩

def simulation (h : Lockstep rel) (view : ∀ {w c c'}, rel w c c' → c.view.Agree c'.view) :
    Simulation where
  toPartialSimulation := h.partialSimulation (fun _ => True) (fun hc => (view hc).similar)
    fun hc _ => (view hc).symbols.constants _
  view := view
  total _ := trivial

end Lockstep

end ScriptCheck
