import Mathlib.Algebra.Group.PUnit
import ScriptCheck.Proofs.Coupling
import ScriptCheck.Proofs.Directories
import ScriptCheck.Proofs.Mentions
import ScriptCheck.Proofs.Places
import ScriptCheck.Proofs.Simulation

/-!
# Regimes

Much that is true of the check of every expression is proved in the same way: it holds of the few
steps by which a check changes its state, and every rule hands it on from the parts of an expression
to the whole. A `Regime` collects what has to be known about the steps. It runs a check beside a
second one, which may be wrapped, see other symbols or stand in another scope, and says

* how the states of the two runs belong together (`rel`), and which of their scopes do (`ids`);
* which types a check may find, and which types may be expected of it (`Good`, `Hint`);
* what may be linked and where entries of the report may be (`Directory`);
* how the state of the first run changes (`Post`).

How a state changes may depend on what the expression does to names and jumps. Such effects are
multiplied one after the other (`Effects`), and a regime says what each effect means.
-/

namespace ScriptCheck

open Check

/-! ## Effects -/

/-- What a kind of scope belongs to. -/
def ScopeKind.nesting : ScopeKind → Nesting
  | .block => .block
  | .loop => .loop
  | .function _ => .function

/-- Effects of expressions. The effect of an expression is the product of those of its parts, from
left to right. -/
class Effects (G : Type) extends Monoid G where
  /-- A plain name is used. -/
  use : SymbolKind → Ident → G
  /-- A name is bound in the scope at hand. -/
  bind : Ident → G
  jump : Jump → Range → G
  /-- The type of an expression is recorded. -/
  mark : Range → G
  /-- What happens in a scope of its own. -/
  nest : Nesting → G → G
  /-- A lambda as the argument of a call, which is checked out of turn or only inferred. -/
  hide : G → G
  mark_mul (r : Range) (g : G) : mark r * g = g * mark r
  nest_one (n : Nesting) : nest n 1 = 1
  hide_mul (g h : G) : hide g * h = h * hide g

namespace Effects

variable {G : Type} [Effects G]

/-- Names are bound. -/
def binds (names : List Ident) : G := (names.map bind).prod

/-- A name is used that may stand behind the name of a module. -/
def refer (kind : SymbolKind) : Option Ident → Ident → G
  | none, name => use kind name
  | some _, _ => 1

/-- The effect of a lambda, possibly in brackets. -/
inductive Shut : G → Prop
  | function (g : G) : Shut (nest .function g)
  | mark (r : Range) {g : G} : Shut g → Shut (mark r * g)

end Effects

/-- Effects that tell nothing. -/
instance : Effects Unit where
  toMonoid := PUnit.commGroup.toGroup.toDivInvMonoid.toMonoid
  use _ _ := ()
  bind _ := ()
  jump _ _ := ()
  mark _ := ()
  nest _ _ := ()
  hide _ := ()
  mark_mul _ _ := rfl
  nest_one _ := rfl
  hide_mul _ _ := rfl

/-! ## Complaints -/

/-- A plain name of a variable or function stands for nothing. -/
def Problem.isUnbound : Problem → Bool
  | .undefined .var _ none | .undefined .function _ none => true
  | _ => false

/-- A problem that has to do with types, unlike names that stand for nothing and jumps without a
target. -/
def Problem.isTyped : Problem → Bool
  | .misplaced _ => false
  | problem => !problem.isUnbound

namespace Report.Entry

/-- Every entry but a complaint about a name that stands for nothing or about a jump. -/
def isTyped : Report.Entry → Bool
  | .diagnostic d => d.problem.isTyped
  | .token _ | .hint _ | .definition _ _ | .hover _ _ | .type _ _ => true

/-- A justified complaint, a good type or a link that the directory has. Complaints and tokens are
where they may be. -/
def Fits (Good : Ty → Prop) (D : Directory) (s : Symbols) : Report.Entry → Prop
  | .diagnostic d => d.Justified s ∧ D.margins.spots d.range
  | .token t => D.margins.marks t.range
  | .type _ ty => Good ty
  | .definition range d => D.Links range d
  | .hint _ | .hover _ _ => True

end Report.Entry

/-- Where the scope stands. -/
def Scopes.place (s : Scopes) (id : Nat) : Place := ⟨s.inLoop id, (s.returnType? id).isSome⟩

/-! ## Terms -/

/-- Any value will do. -/
abbrev Any {α : Type} : α → Prop := fun _ => True

/-- One and the same value, with the given property. -/
abbrev Same {α : Type} (P : α → Prop) (a b : α) : Prop := b = a ∧ P a

/-- What is asked of the states, types and definitions of a check. -/
structure Terms (G : Type) extends Directory where
  /-- What does not change in the course of a check. -/
  World : Type
  rel : World → Checker → Checker → Prop
  ids : World → Nat → Nat → Prop
  /-- How the views of the two runs belong together. -/
  Like : View → View → Prop
  Good : Ty → Prop
  Hint : Ty → Prop
  /-- The modules that an expression may name. -/
  Outside : String → Prop
  /-- The plain names that an expression may mention. -/
  Known : String → Prop
  /-- Which parts may be checked beside each other. -/
  Twins : Part → Part → Prop
  /-- How the state may change while something with the given effect is checked in a scope. -/
  Post : Nat → G → Checker → Checker → Prop

namespace Terms

variable {G : Type}

/-- The scopes in which the two runs stand. -/
structure Site (T : Terms G) where
  world : T.World
  id : Nat
  id' : Nat
  same : T.ids world id id'

/-- The type that is expected, if there is one. -/
def Hints (T : Terms G) (hint : Option Ty) : Prop := ∀ t ∈ hint, T.Hint t

/-- An annotation may stand where it is, with the names in it. -/
structure Allows (T : Terms G) (spec : TypeSpec) : Prop where
  modules : ∀ m ∈ spec.modules, T.Outside m
  uses : ∀ o ∈ spec.uses, T.Uses o
  covers : T.margins.CoversSpec spec

/-- Without a directory only the modules matter. -/
theorem Allows.of_any {T : Terms G} {spec : TypeSpec} (hT : T.toDirectory = {})
    (modules : ∀ m ∈ spec.modules, T.Outside m) : T.Allows spec :=
  ⟨modules, by simp [hT], hT ▸ Margins.wide_coversSpec spec⟩

theorem Allows.child {T : Terms G} {spec child : TypeSpec} (h : T.Allows spec)
    (hchild : child ∈ spec.children := by simp [TypeSpec.children]) : T.Allows child := by
  refine ⟨fun m hm => h.modules m (TypeSpec.modules_subset hchild hm), fun o ho => h.uses o ?_,
    ((Margins.coversSpec_iff _).1 h.covers).2 child hchild⟩
  rw [TypeSpec.uses_eq]
  exact List.mem_append_right _ (List.mem_flatMap.2 ⟨child, hchild, ho⟩)

/-- The runs go on in scopes of their own, which are the last ones, in another world. What they come
to there belongs together in the old world as well, once it is changed by `leave`. -/
def Enters (T : Terms G) (w : T.World) (c c' d d' : Checker) (leave : Checker → Checker → Checker) :
    Prop :=
  ∃ inner, T.ids inner c.scopes.size c'.scopes.size ∧ T.rel inner d d' ∧
    ∀ e e', T.rel inner e e' → T.rel w (leave c e) (leave c' e')

variable {α β : Type}

/-- From the given states, both computations return values that belong together and lead to related
states, and the state of the first one changes as the effect says. -/
def RunsAt (T : Terms G) (x : T.Site) (g : G) (R : α → β → Prop) (m : CheckM α) (m' : CheckM β)
    (c c' : Checker) : Prop :=
  T.rel x.world c c' → R (m.run c).1 (m'.run c').1 ∧
    T.rel x.world (m.run c).2 (m'.run c').2 ∧ T.Post x.id g c (m.run c).2

/-- The same from all states. -/
def RunsOn (T : Terms G) (x : T.Site) (g : G) (R : α → β → Prop) (m : CheckM α) (m' : CheckM β) :
    Prop :=
  ∀ c c', T.RunsAt x g R m m' c c'

/-- Both computations return the same value, with the given property. -/
abbrev Runs (T : Terms G) (x : T.Site) (g : G) (P : α → Prop) (m m' : CheckM α) : Prop :=
  T.RunsOn x g (Same P) m m'

/-- A computation that has no effect. -/
abbrev Keeps [Effects G] (T : Terms G) (x : T.Site) (P : α → Prop) (m : CheckM α) : Prop :=
  T.Runs x 1 P m m

end Terms

/-- Good types lead to good types. Expected types need not be good, unless they are concrete. The
views of the two runs give the same answers. -/
structure TypeLaws {G : Type} (T : Terms G) : Prop where
  good_unknown : T.Good .unknown
  good_prelude (name : String) : T.Good (.prelude name)
  good_array {t : Ty} : T.Good t → T.Good (.array t)
  good_tuple {ts : List Ty} : (∀ t ∈ ts, T.Good t) ↔ T.Good (.tuple ts)
  good_record {items : List (String × Ty)} : (∀ item ∈ items, T.Good item.2) →
    T.Good (Ty.anonymous items)
  good_function {params : List (Param Ty)} {result : Ty} : (∀ p ∈ params, T.Good p.ty) →
    T.Good result → T.Good (.function { params, result })
  good_erase {t : Ty} : T.Hint t → T.Good t.erase
  good_concrete {t : Ty} : T.Hint t → t.isConcrete = true → T.Good t
  hint {t : Ty} : T.Good t → T.Hint t
  hint_array {t : Ty} : T.Hint (.array t) → T.Hint t
  hint_tuple {ts : List Ty} : T.Hint (.tuple ts) → ∀ t ∈ ts, T.Hint t
  hint_function {f : Signature Ty} :
    T.Hint (.function f) ↔ (∀ p ∈ f.params, T.Hint p.ty) ∧ T.Hint f.result
  hint_guess {bound : Bindings} {u : Ty} (t : Ty) : (bound.All fun _ u => T.Hint u) → T.Hint u →
    (Ty.guess bound t u).All fun _ u => T.Hint u
  like_fill {v v' : View} {bound : Bindings} {t : Ty} : T.Like v v' →
    (bound.All fun _ u => T.Hint u) → T.Hint t →
    t.fill v'.symbols.registry bound = t.fill v.symbols.registry bound ∧
      T.Hint (t.fill v.symbols.registry bound)
  like_types {v v' : View} (name : String) : T.Like v v' →
    v'.symbols.types.get? name = v.symbols.types.get? name
  like_define {v v' : View} (range : Range) : T.Like v v' →
    v'.symbols.define range = v.symbols.define range
  like_accepts {v v' : View} {t u : Ty} : T.Like v v' → T.Hint t → T.Good u →
    v'.symbols.accepts t u = v.symbols.accepts t u
  like_describe {v v' : View} {t : Ty} : T.Like v v' → T.Good t →
    v'.symbols.describe t = v.symbols.describe t
  like_genericNames {v v' : View} {t : Ty} : T.Like v v' → T.Hint t →
    t.genericNames v'.symbols.registry = t.genericNames v.symbols.registry
  like_module? {v v' : View} {name : String} : T.Like v v' → T.Outside name →
    v'.symbols.module? name = v.symbols.module? name
  like_type? {v v' : View} {scope : Option String} (name : String) : T.Like v v' →
    (∀ m ∈ scope, T.Outside m) →
    v'.type? scope name = v.type? scope name ∧ ∀ t ∈ v.type? scope name, T.Hint t
  like_resolve {v v' : View} {spec : TypeSpec} : T.Like v v' →
    (∀ m ∈ spec.modules, T.Outside m) →
    spec.resolve v' = spec.resolve v ∧ T.Good (spec.resolve v)
  like_constant? {v v' : View} {scope : Option String} {name : String} : T.Like v v' →
    (∀ m ∈ scope, T.Outside m) → (scope = none → T.Known name) →
    v'.symbols.constant? scope name = v.symbols.constant? scope name ∧
      ∀ found ∈ v.symbols.constant? scope name, T.Good found.ty
  like_function? {v v' : View} {scope : Option String} (name : String) {hint : Option Ty} :
    T.Like v v' → (∀ m ∈ scope, T.Outside m) → T.Hints hint →
    v'.symbols.function? scope name hint = v.symbols.function? scope name hint ∧
      ∀ found ∈ v.symbols.function? scope name hint,
        T.Hint found.ty ∧ (hint = none → T.Good found.ty)
  like_field? {v v' : View} {t : Ty} (name : String) : T.Like v v' → T.Hint t →
    v'.symbols.field? t name = v.symbols.field? t name ∧
      ∀ found ∈ v.symbols.field? t name, T.Hint found.ty ∧ (T.Good t → T.Good found.ty)
  like_method? {v v' : View} {t : Ty} (name : String) : T.Like v v' → T.Good t →
    v'.symbols.method? t name = v.symbols.method? t name ∧
      ∀ found ∈ v.symbols.method? t name, T.Hint (.function found.signature)
  like_indexed? {v v' : View} {t : Ty} : T.Like v v' → T.Good t →
    v'.symbols.indexed? t = v.symbols.indexed? t ∧ ∀ u ∈ v.symbols.indexed? t, T.Good u
  like_iterated? {v v' : View} {t : Ty} : T.Like v v' → T.Good t →
    v'.symbols.iterated? t = v.symbols.iterated? t ∧ ∀ u ∈ v.symbols.iterated? t, T.Good u
  like_prefixOperator? {v v' : View} {t u : Ty} (op : Operator) : T.Like v v' → T.Good t →
    T.Good u → v'.symbols.prefixOperator? t op u = v.symbols.prefixOperator? t op u ∧
      ∀ found ∈ v.symbols.prefixOperator? t op u, T.Good found.result
  like_suffixOperator? {v v' : View} {t u : Ty} (op : Operator) : T.Like v v' → T.Good t →
    T.Good u → v'.symbols.suffixOperator? t op u = v.symbols.suffixOperator? t op u ∧
      ∀ found ∈ v.symbols.suffixOperator? t op u, T.Good found.result

/-- The steps of a check keep the relation between the states of the two runs. -/
structure StateLaws {G : Type} [Effects G] (T : Terms G) : Prop where
  like {w c c'} : T.rel w c c' → T.Like c.view c'.view
  like_placed {v v'} : T.Like v v' → v.symbols.Placed T.toDirectory := by exact fun _ => .any
  rel_local? {w c c' id id'} (name : String) : T.rel w c c' → T.ids w id id' →
    c'.scopes.local? id' name = c.scopes.local? id name ∧
      ∀ v ∈ c.scopes.local? id name, T.Good v.ty
  rel_placed {w c c' id name value} : T.rel w c c' → c.scopes.local? id name = some value →
    ∀ d ∈ value.definition, T.Places .value name d := by exact fun _ _ _ _ => trivial
  rel_inLoop {w c c' id id'} : T.rel w c c' → T.ids w id id' →
    c'.scopes.inLoop id' = c.scopes.inLoop id
  rel_returnType? {w c c' id id'} : T.rel w c c' → T.ids w id id' →
    c'.scopes.returnType? id' = c.scopes.returnType? id ∧ T.Hints (c.scopes.returnType? id)
  rel_write {w c c'} {entry : Report.Entry} : T.rel w c c' →
    entry.Fits T.Good T.toDirectory c.view.symbols →
    T.rel w ((note (·.add entry)).run c).2 ((note (·.add entry)).run c').2
  rel_declare {w c c' id id'} (name : String) {value : Local} : T.rel w c c' → T.ids w id id' →
    T.Good value.ty → (∀ d ∈ value.definition, T.Places .value name d) →
    T.rel w { c with scopes := c.scopes.declare id name value }
      { c' with scopes := c'.scopes.declare id' name value }
  /-- A variable that is declared twice in one of the runs may not be so in the other. -/
  rel_redeclare {w c c' id id'} (name : String) {problem : Problem} {range : Range} :
    problem.compares = false → T.margins.spots range → T.rel w c c' → T.ids w id id' → Sim (T.rel w)
      (if (c.scopes.own? id name).isSome then error problem range else pure ())
      (if (c'.scopes.own? id' name).isSome then error problem range else pure ())
  rel_push {w c c' id id'} {kind : ScopeKind} : T.rel w c c' → T.ids w id id' →
    (∀ t, kind = .function t → T.Hint t) → T.Enters w c c'
      { c with scopes := c.scopes.push (some id) kind }
      { c' with scopes := c'.scopes.push (some id') kind } fun _ e => e
  runs_infer {part part' : Part} {g : G} : T.Twins part part' →
    (∀ (x : T.Site) {hint}, T.Hints hint →
      T.Runs x g T.Good (part.check x.id hint) (part'.check x.id' hint)) →
    ∀ (x : T.Site) {hint}, T.Hints hint →
      T.Runs x (Effects.hide g) T.Good (infer part x.id hint) (infer part' x.id' hint)

/-- What the steps of a check do to its state. -/
structure EffectLaws {G : Type} [Effects G] (Post : Nat → G → Checker → Checker → Prop) :
    Prop where
  post_refl (id c) : Post id 1 c c
  post_trans {id g h c d e} : Post id g c d → Post id h d e → Post id (g * h) c e
  post_write {entry : Report.Entry} (id) {c} : entry.isTyped = true → c.muted = 0 →
    Post id 1 c { c with report := c.report.add entry }
  post_use (kind : SymbolKind) (name : Ident) (id) {c} :
    (Problem.undefined kind name.name none).isUnbound = true → Post id (Effects.use kind name) c
      (if (c.scopes.resolve? c.view.symbols id name.name none).isSome then c
        else ((error (.undefined kind name.name none) name.range).run c).2)
  post_jump (jump : Jump) (range : Range) (id) (c) : Post id (Effects.jump jump range) c
    (if (c.scopes.place id).allows jump then c else ((error (.misplaced jump) range).run c).2)
  post_declare (name : Ident) (value : Local) (id) (c) : Post id (Effects.bind name) c
    { c with scopes := c.scopes.declare id name.name value }
  /-- A name that is bound already. -/
  post_again (name : Ident) {id} {c} :
    (id < c.scopes.size → (c.scopes.own? id name.name).isSome = true) →
    Post id (Effects.bind name) c c
  post_mark (range : Range) (ty : Ty) (id) (c) :
    Post id (Effects.mark range) c ((note (·.add (.type range ty))).run c).2
  post_nest {kind : ScopeKind} {g id c d} :
    Post c.scopes.size g { c with scopes := c.scopes.push (some id) kind } d →
    Post id (Effects.nest kind.nesting g) c d
  post_infer {g id c d} : Post c.scopes.size g (c.silenced id) d → Post id (Effects.hide g) c
    { d with muted := d.muted - 1, scopes := d.scopes.truncate c.scopes.size }
  /-- A lambda that is checked, although it is the argument of a call. -/
  post_hide {g id c d} : Effects.Shut g → Post id g c d → Post id (Effects.hide g) c d

/-- A note is written, unless the check is muted. -/
theorem Check.note_cases (change : Report → Report) (c : Checker) :
    ((note change).run c).2 = c ∨
      c.muted = 0 ∧ ((note change).run c).2 = { c with report := change c.report } := by
  rw [run_note]
  dsimp only
  split
  · exact .inr ⟨‹_›, rfl⟩
  · exact .inl rfl

/-- Similar views give the same answers, and if all types are good there is no more to ask. -/
theorem TypeLaws.of_similar {G : Type} {T : Terms G} (hgood : ∀ t, T.Good t) (hhint : ∀ t, T.Hint t)
    (hlike : ∀ {v v'}, T.Like v v' → v.Similar v')
    (hconstants : ∀ {v v' name}, T.Like v v' → T.Known name →
      v.symbols.constants.get? name = v'.symbols.constants.get? name) : TypeLaws T where
  good_unknown := hgood _
  good_prelude _ := hgood _
  good_array _ := hgood _
  good_tuple := ⟨fun _ => hgood _, fun _ _ _ => hgood _⟩
  good_record _ := hgood _
  good_function _ _ := hgood _
  good_erase _ := hgood _
  good_concrete _ _ := hgood _
  hint _ := hhint _
  hint_array _ := hhint _
  hint_tuple _ _ _ := hhint _
  hint_function := ⟨fun _ => ⟨fun _ _ => hhint _, hhint _⟩, fun _ => hhint _⟩
  hint_guess _ _ _ := fun _ _ => hhint _
  like_fill h _ _ := ⟨by rw [(hlike h).symbols.registry], hhint _⟩
  like_types name h := ((hlike h).symbols.types name).symm
  like_define range h := ((hlike h).symbols.define range).symm
  like_accepts h _ _ := ((hlike h).symbols.accepts _ _).symm
  like_describe h _ := ((hlike h).symbols.describe _).symm
  like_genericNames h _ := by rw [(hlike h).symbols.registry]
  like_module? h _ := ((hlike h).symbols.module? _).symm
  like_type? name h _ := ⟨((hlike h).type? _ name).symm, fun _ _ => hhint _⟩
  like_resolve h _ := ⟨((hlike h).resolve _).symm, hgood _⟩
  like_constant? {v v' scope name} h _ hname := by
    refine ⟨?_, fun _ _ => hgood _⟩
    cases scope with
    | none => exact (hconstants h (hname rfl)).symm
    | some module => exact ((hlike h).symbols.memberConstant? module name).symm
  like_function? name _ h _ _ :=
    ⟨((hlike h).symbols.function? _ name _).symm, fun _ _ => ⟨hhint _, fun _ => hgood _⟩⟩
  like_field? name h _ :=
    ⟨((hlike h).symbols.field? _ name).symm, fun _ _ => ⟨hhint _, fun _ => hgood _⟩⟩
  like_method? name h _ := ⟨((hlike h).symbols.method? _ name).symm, fun _ _ => hhint _⟩
  like_indexed? h _ := ⟨((hlike h).symbols.indexed? _).symm, fun _ _ => hgood _⟩
  like_iterated? h _ := ⟨((hlike h).symbols.iterated? _).symm, fun _ _ => hgood _⟩
  like_prefixOperator? op h _ _ :=
    ⟨((hlike h).symbols.prefixOperator? _ op _).symm, fun _ _ => hgood _⟩
  like_suffixOperator? op h _ _ :=
    ⟨((hlike h).symbols.suffixOperator? _ op _).symm, fun _ _ => hgood _⟩

/-- The state may change at will. -/
theorem EffectLaws.any : EffectLaws fun (_ : Nat) (_ : Unit) (_ _ : Checker) => True := by
  constructor <;> intros <;> trivial

/-- Terms that are kept by the steps of a check. -/
structure Regime (G : Type) [Effects G] extends Terms G, TypeLaws toTerms, StateLaws toTerms,
  EffectLaws Post

/-- An inference is a check in a scope of its own, without a report, which is forgotten. -/
theorem Terms.runs_infer_of_enters {G : Type} [Effects G] {T : Terms G} (hpost : EffectLaws T.Post)
    (henters : ∀ {w c c' id id'}, T.rel w c c' → T.ids w id id' →
      T.Enters w c c' (c.silenced id) (c'.silenced id') fun c e =>
        { e with muted := e.muted - 1, scopes := e.scopes.truncate c.scopes.size })
    {part part' : Part} {g : G} (hpart : ∀ (x : T.Site) {hint}, T.Hints hint →
      T.Runs x g T.Good (part.check x.id hint) (part'.check x.id' hint))
    (x : T.Site) {hint : Option Ty} (hhint : T.Hints hint) :
    T.Runs x (Effects.hide g) T.Good (infer part x.id hint) (infer part' x.id' hint) := by
  intro c c' hc
  obtain ⟨inner, hsize, hsilenced, hleave⟩ := henters hc x.same
  obtain ⟨hvalue, hstate, hend⟩ := hpart ⟨inner, _, _, hsize⟩ hhint _ _ hsilenced
  exact ⟨hvalue, hleave _ _ hstate, hpost.post_infer hend⟩

/-! ## One run -/

/-- A run beside itself, with an invariant of its states and of what it sees. -/
def Terms.single {G : Type} (Inv : Checker → Prop) (Sees : View → Prop) (Good : Ty → Prop)
    (Post : Nat → G → Checker → Checker → Prop) (D : Directory := {}) : Terms G where
  toDirectory := D
  World := Unit
  rel _ c c' := c' = c ∧ Inv c
  ids _ id id' := id' = id
  Like v v' := v' = v ∧ Sees v
  Good := Good
  Hint _ := True
  Outside _ := True
  Known _ := True
  Twins _ _ := True
  Post := Post

/-- An invariant that is kept by the steps of a check. -/
structure Invariant (Inv : Checker → Prop) (Sees : View → Prop) (Good : Ty → Prop)
    (D : Directory := {}) : Prop where
  view {c : Checker} : Inv c → Sees c.view
  placed {v : View} : Sees v → v.symbols.Placed D := by exact fun _ => .any
  local? {c : Checker} {id : Nat} {name : String} {v : Local} : Inv c →
    c.scopes.local? id name = some v → Good v.ty ∧ ∀ d ∈ v.definition, D.Places .value name d
  write {c : Checker} {entry : Report.Entry} : Inv c → entry.Fits Good D c.view.symbols →
    Inv { c with report := c.report.add entry }
  declare {c : Checker} (id : Nat) (name : String) {value : Local} : Inv c → Good value.ty →
    (∀ d ∈ value.definition, D.Places .value name d) →
    Inv { c with scopes := c.scopes.declare id name value }
  push {c : Checker} (parent : Option Nat) (kind : ScopeKind) : Inv c →
    Inv { c with scopes := c.scopes.push parent kind }
  truncate {c : Checker} (count : Nat) : Inv c → Inv { c with scopes := c.scopes.truncate count }
  mute {c : Checker} (muted : Nat) : Inv c → Inv { c with muted }

namespace Invariant

variable {Inv : Checker → Prop} {Sees : View → Prop} {Good : Ty → Prop} {D : Directory}

theorem note (h : Invariant Inv Sees Good D) {c : Checker} (hc : Inv c) {entry : Report.Entry}
    (hentry : entry.Fits Good D c.view.symbols) : Inv ((Check.note (·.add entry)).run c).2 := by
  rw [run_note]
  dsimp only
  split
  · exact h.write hc hentry
  · exact hc

theorem stateLaws {G : Type} [Effects G] {Post : Nat → G → Checker → Checker → Prop}
    (h : Invariant Inv Sees Good D) (hpost : EffectLaws Post) :
    StateLaws (Terms.single Inv Sees Good Post D) where
  like hc := ⟨by rw [hc.1], h.view hc.2⟩
  like_placed hv := h.placed hv.2
  rel_local? name hc hid := by
    obtain ⟨rfl, hc⟩ := hc
    subst hid
    exact ⟨rfl, fun _ hv => (h.local? hc hv).1⟩
  rel_placed hc hv := (h.local? hc.2 hv).2
  rel_inLoop hc hid := by rw [hc.1, hid]
  rel_returnType? hc hid := ⟨by rw [hc.1, hid], fun _ _ => trivial⟩
  rel_write hc hentry := ⟨by rw [hc.1], h.note hc.2 hentry⟩
  rel_declare name _ hc hid hvalue hplaces :=
    ⟨by rw [hc.1, hid], h.declare _ name hc.2 hvalue hplaces⟩
  rel_redeclare name problem range hproblem hspot hc hid d d' hd := by
    obtain ⟨rfl, -⟩ := hc
    obtain ⟨rfl, hd⟩ := hd
    subst hid
    have hfits : (Report.Entry.diagnostic ⟨.error, problem, range⟩).Fits Good D d'.view.symbols :=
      ⟨⟨Problem.justified_of_compares hproblem, nofun⟩, hspot⟩
    refine ⟨rfl, rfl, ?_⟩
    split
    · exact h.note hd hfits
    · exact hd
  rel_push hc hid _ := by
    obtain ⟨rfl, hc⟩ := hc
    subst hid
    exact ⟨(), rfl, ⟨rfl, h.push _ _ hc⟩, fun _ _ he => he⟩
  runs_infer _ := Terms.runs_infer_of_enters hpost fun hc hid => by
    obtain ⟨rfl, hc⟩ := hc
    subst hid
    exact ⟨(), rfl, ⟨rfl, h.mute _ (h.push _ _ hc)⟩, fun _ _ he =>
      ⟨by rw [he.1], h.mute _ (h.truncate _ he.2)⟩⟩

/-- A single run with an invariant that does not care about types. -/
def regime {G : Type} [Effects G] {Post : Nat → G → Checker → Checker → Prop}
    (h : Invariant Inv Sees Any D) (hpost : EffectLaws Post) : Regime G where
  toTerms := .single Inv Sees Any Post D
  toTypeLaws := .of_similar (fun _ => trivial) (fun _ => trivial)
    (fun hv => hv.1 ▸ (View.Agree.refl _).similar) fun hv _ => by rw [hv.1]
  toStateLaws := h.stateLaws hpost
  toEffectLaws := hpost

theorem any : Invariant Any Any Any :=
  ⟨fun _ => trivial, fun _ => .any, fun _ _ => ⟨trivial, fun _ _ => trivial⟩, fun _ _ => trivial,
    fun _ _ _ _ _ _ => trivial, fun _ _ _ => trivial, fun _ _ => trivial, fun _ _ => trivial⟩

end Invariant

/-- A single run of which nothing is asked but how its state changes. -/
def Regime.alone {G : Type} [Effects G] {Post : Nat → G → Checker → Checker → Prop}
    (h : EffectLaws Post) : Regime G := Invariant.any.regime h

/-- The state changes as the regime says. -/
theorem Regime.post_of_alone {G : Type} [Effects G] {Post : Nat → G → Checker → Checker → Prop}
    {h : EffectLaws Post} {α : Type} {id : Nat} {g : G} {P : α → Prop} {m : CheckM α}
    (hm : (Regime.alone h).Runs ⟨(), id, id, rfl⟩ g P m m) (c : Checker) :
    Post id g c (m.run c).2 :=
  (hm c c ⟨rfl, trivial⟩).2.2

/-! ## Computations under a regime -/

namespace Terms

variable {G : Type} {α β : Type}

theorem RunsOn.coupled {T : Terms G} {x : T.Site} {g : G} {R : α → β → Prop} {m : CheckM α}
    {m' : CheckM β} (h : T.RunsOn x g R m m') : Coupled (T.rel x.world) R m m' :=
  fun c c' hc => ⟨(h c c' hc).1, (h c c' hc).2.1⟩

variable [Effects G] {L : Regime G} {x : L.Site} {g h : G} {γ δ : Type} {P : α → Prop}
  {R : α → β → Prop} {S : γ → δ → Prop} {c c' : Checker}

/-- What comes after needs to run from the states that are reached only. -/
theorem RunsAt.bindAt {m : CheckM α} {m' : CheckM β} {k : α → CheckM γ} {k' : β → CheckM δ}
    (hm : L.RunsAt x g R m m' c c')
    (hk : ∀ a b, R a b → L.RunsAt x h S (k a) (k' b) (m.run c).2 (m'.run c').2) :
    L.RunsAt x (g * h) S (m >>= k) (m' >>= k') c c' := by
  intro hc
  obtain ⟨hvalue, hstate, hpost⟩ := hm hc
  obtain ⟨hvalue', hstate', hpost'⟩ := hk _ _ hvalue hstate
  exact ⟨hvalue', hstate', L.post_trans hpost hpost'⟩

/-- If something is true of the state at hand, it counts as an effect. -/
theorem RunsAt.given {m : CheckM α} {m' : CheckM β} (hc : L.Post x.id g c c)
    (hm : L.RunsAt x h R m m' c c') : L.RunsAt x (g * h) R m m' c c' := by
  intro hrel
  obtain ⟨hvalue, hstate, hpost⟩ := hm hrel
  exact ⟨hvalue, hstate, L.post_trans hc hpost⟩

theorem RunsOn.pure {a : α} {b : β} (hab : R a b) : L.RunsOn x 1 R (pure a) (pure b) :=
  fun c _ hc => ⟨hab, hc, L.post_refl _ c⟩

theorem RunsOn.bind {m : CheckM α} {m' : CheckM β} {k : α → CheckM γ} {k' : β → CheckM δ}
    (hm : L.RunsOn x g R m m') (hk : ∀ a b, R a b → L.RunsOn x h S (k a) (k' b)) :
    L.RunsOn x (g * h) S (m >>= k) (m' >>= k') :=
  fun c c' => (hm c c').bindAt fun a b hab => hk a b hab _ _

theorem RunsOn.settle {m : CheckM α} {m' : CheckM β} {k : α → CheckM γ} {k' : β → CheckM δ}
    (hm : L.RunsOn x g R m m') (hk : ∀ a b, R a b → L.RunsOn x 1 S (k a) (k' b)) :
    L.RunsOn x g S (m >>= k) (m' >>= k') := by
  have hbind := hm.bind hk
  rwa [mul_one] at hbind

theorem Runs.bind {m m' : CheckM α} {k : α → CheckM γ} {k' : α → CheckM δ}
    (hm : L.Runs x g P m m') (hk : ∀ a, P a → L.RunsOn x h S (k a) (k' a)) :
    L.RunsOn x (g * h) S (m >>= k) (m' >>= k') := by
  refine RunsOn.bind hm ?_
  rintro a _ ⟨rfl, ha⟩
  exact hk _ ha

/-- What comes after has no effect. -/
theorem Runs.settle {m m' : CheckM α} {k : α → CheckM γ} {k' : α → CheckM δ}
    (hm : L.Runs x g P m m') (hk : ∀ a, P a → L.RunsOn x 1 S (k a) (k' a)) :
    L.RunsOn x g S (m >>= k) (m' >>= k') := by
  refine RunsOn.settle hm ?_
  rintro a _ ⟨rfl, ha⟩
  exact hk _ ha

/-- What comes first has no effect. -/
theorem Runs.quiet {m m' : CheckM α} {k : α → CheckM γ} {k' : α → CheckM δ}
    (hm : L.Runs x 1 P m m') (hk : ∀ a, P a → L.RunsOn x h S (k a) (k' a)) :
    L.RunsOn x h S (m >>= k) (m' >>= k') := by
  have hbind := hm.bind hk
  rwa [one_mul] at hbind

/-- A value with one of its properties is changed into another one. -/
theorem Runs.map {Q : γ → Prop} {m m' : CheckM α} {f : α → γ} (hm : L.Runs x g P m m')
    (hf : ∀ a, P a → Q (f a)) : L.Runs x g Q (f <$> m) (f <$> m') :=
  hm.settle fun a ha => .pure ⟨rfl, hf a ha⟩

end Terms

namespace Regime

variable {G : Type} [Effects G] {L : Regime G} {x : L.Site} {g h : G} {α β γ δ : Type}
  {w : L.World} {P : α → Prop} {R : α → β → Prop} {S : γ → δ → Prop}

theorem pure {a : α} (ha : P a) : L.Keeps x P (pure a) := .pure ⟨rfl, ha⟩

theorem getAt {k : Checker → CheckM γ} {k' : Checker → CheckM δ}
    (hk : ∀ c c', L.rel x.world c c' → L.RunsAt x g S (k c) (k' c') c c') :
    L.RunsOn x g S (get >>= k) (get >>= k') :=
  fun c c' hc => hk c c' hc hc

theorem get {k : Checker → CheckM γ} {k' : Checker → CheckM δ}
    (hk : ∀ c c', L.rel x.world c c' → L.RunsOn x g S (k c) (k' c')) :
    L.RunsOn x g S (get >>= k) (get >>= k') :=
  getAt fun c c' hc => hk c c' hc c c'

theorem symbols {k : Symbols → CheckM γ} {k' : Symbols → CheckM δ}
    (hk : ∀ v v', L.Like v v' → L.RunsOn x g S (k v.symbols) (k' v'.symbols)) :
    L.RunsOn x g S (symbols >>= k) (symbols >>= k') :=
  fun c c' hc => hk c.view c'.view (L.like hc) c c' hc

theorem modify {f f' : Checker → Checker}
    (hf : ∀ c c', L.rel x.world c c' → L.rel x.world (f c) (f' c') ∧ L.Post x.id g c (f c)) :
    L.Runs x g Any (modify f) (modify f') :=
  fun c c' hc => ⟨⟨rfl, trivial⟩, hf c c' hc⟩

/-! ## Without a scope -/

/-- What runs in every scope runs without one. -/
theorem top (hsize : ∀ {w c c'}, L.rel w c c' → L.ids w c.scopes.size c'.scopes.size)
    {m m' : CheckM α} (h : ∀ {x : L.Site}, L.Runs x g P m m') :
    Coupled (L.rel w) (Same P) m m' :=
  fun _ _ hc => h (x := ⟨w, _, _, hsize hc⟩).coupled hc

theorem topSymbols {k : Symbols → CheckM α} {k' : Symbols → CheckM β}
    (hk : ∀ v v', L.Like v v' → Coupled (L.rel w) R (k v.symbols) (k' v'.symbols)) :
    Coupled (L.rel w) R (Check.symbols >>= k) (Check.symbols >>= k') :=
  fun c c' hc => hk c.view c'.view (L.like hc) hc

/-! ## Writing to the report -/

theorem post_note (entry : Report.Entry) (h : entry.isTyped = true) (id : Nat) (c : Checker) :
    L.Post id 1 c ((note (·.add entry)).run c).2 := by
  obtain hc | ⟨hmuted, hc⟩ := note_cases (·.add entry) c <;> rw [hc]
  · exact L.post_refl id c
  · exact L.post_write id h hmuted

theorem note (entry : Report.Entry) (htyped : entry.isTyped = true)
    (h : ∀ s, entry.Fits L.Good L.toDirectory s) : L.Keeps x Any (note (·.add entry)) :=
  modify fun c _ hc => ⟨L.rel_write hc (h _), post_note entry htyped x.id c⟩

variable {range : Range}

/-- A complaint that is justified, whatever the symbols. -/
theorem justified {problem : Problem} (htyped : problem.isTyped = true)
    (h : ∀ s, problem.Justified s) (hrange : L.margins.spots range) :
    L.Keeps x Any (error problem range) :=
  note (.diagnostic ⟨.error, problem, range⟩) htyped fun s => ⟨⟨h s, nofun⟩, hrange⟩

theorem error {problem : Problem} (htyped : problem.isTyped = true)
    (h : problem.compares = false) (hrange : L.margins.spots range) :
    L.Keeps x Any (error problem range) :=
  justified htyped (fun _ => Problem.justified_of_compares h) hrange

theorem miscount (what : Counted) {expected found : Nat} (h : expected ≠ found)
    (hrange : L.margins.spots range) :
    L.Keeps x Any (Check.error (.count what expected found) range) :=
  note (.diagnostic ⟨.error, .count what expected found, range⟩) rfl fun _ =>
    ⟨⟨h, nofun⟩, hrange⟩

theorem warn (what : Uninferred) (hrange : L.margins.spots range) :
    L.Keeps x Any (warn (.uninferred what) range) :=
  note (.diagnostic ⟨.warn, .uninferred what, range⟩) rfl fun _ =>
    ⟨⟨trivial, fun _ => rfl⟩, hrange⟩

theorem token (hrange : L.margins.marks range) (kind : TokenKind)
    (modifiers : List TokenModifier) : L.Keeps x Any (token range kind modifiers) :=
  note (.token ⟨kind, modifiers, range⟩) rfl fun _ => hrange

/-- A link leads from a use of a name to one of its definitions. -/
theorem link (space : NameSpace) {name : Ident} (hname : L.Uses ⟨space, name⟩)
    {definition : Option Definition} (h : ∀ d ∈ definition, L.Places space name.name d) :
    L.Keeps x Any (link name.range definition) := by
  cases definition with
  | none => exact pure trivial
  | some d =>
    exact note (.definition name.range d) rfl fun _ => ⟨space, name.name, hname, h d rfl⟩

theorem hoverText (range : Range) (text : String) : L.Keeps x Any (hoverText range text) :=
  note (.hover range text) rfl fun _ => trivial

theorem hover (range : Range) (name : String) (ty : Ty) (description : String) :
    L.Keeps x Any (hover range name ty description) :=
  hoverText range _

theorem inlay (range : Range) (ty : Ty) : L.Keeps x Any (inlay range ty) :=
  note (.hint ⟨range.stop, ": " ++ ty.display⟩) rfl fun _ => trivial

theorem typed (range : Range) {rule rule' : CheckM Ty} (h : L.Runs x g L.Good rule rule') :
    L.Runs x (Effects.mark range * g) L.Good (typed range rule) (typed range rule') := by
  rw [Effects.mark_mul]
  refine h.bind fun ty hty => ?_
  have hmark : L.Runs x (Effects.mark range) Any (setType range ty) (setType range ty) :=
    modify fun c _ hc =>
      have hfits : (Report.Entry.type range ty).Fits L.Good L.toDirectory c.view.symbols := hty
      ⟨L.rel_write hc hfits, L.post_mark range ty x.id c⟩
  exact hmark.settle fun _ _ => pure hty

/-- A complaint, after which the type is unknown. -/
theorem complaint {problem : Problem} (htyped : problem.isTyped = true)
    (h : problem.compares = false) (hrange : L.margins.spots range) :
    L.Keeps x L.Good (do Check.error problem range; return .unknown) :=
  (error htyped h hrange).quiet fun _ _ => pure L.good_unknown

/-- Statements have the type `Unit`. -/
theorem unit {m m' : CheckM α} (h : L.Runs x g P m m') :
    L.Runs x g L.Good (do let _ ← m; return Ty.unit) (do let _ ← m'; return Ty.unit) :=
  h.settle fun _ _ => pure (L.good_prelude _)

/-- Both runs get the same answer about types that may be compared. -/
theorem ask {expected found : Ty} (hexpected : L.Hint expected) (hfound : L.Good found) :
    L.Keeps x Any (Comparing.ask expected found) := by
  refine symbols fun v v' hv => ?_
  rw [L.like_accepts hv hexpected hfound]
  exact pure trivial

/-- Both runs complain about types that do not fit, or none does. -/
theorem expect {expected found : Ty} (hexpected : L.Hint expected) (hfound : L.Good found)
    {range' : Range} (hspot : L.margins.spots range) (hrange : range' = range) :
    L.Runs x 1 Any (expect expected found range) (expect expected found range') := by
  subst hrange
  intro c c' hc
  rw [run_expect, run_expect, L.like_accepts (L.like hc) hexpected hfound]
  split
  · exact ⟨⟨rfl, trivial⟩, hc, L.post_refl _ c⟩
  · rename_i hrefused
    let complaint : Report.Entry := .diagnostic ⟨.error, .mismatch expected found, range'⟩
    have hfits : complaint.Fits L.Good L.toDirectory c.view.symbols :=
      ⟨⟨Problem.justified_mismatch (Bool.eq_false_iff.2 hrefused), nofun⟩, hspot⟩
    exact ⟨⟨rfl, trivial⟩, L.rel_write hc hfits, post_note complaint rfl x.id c⟩

/-! ## Scopes -/

/-- The check goes on in a scope of its own and comes back. -/
theorem within (kind : ScopeKind) (hkind : ∀ t, kind = .function t → L.Hint t)
    {body body' : Nat → CheckM α} {k : Nat → α → CheckM γ} {l : Nat → α → CheckM δ}
    (hbody : ∀ y : L.Site, L.Runs y g P (body y.id) (body' y.id'))
    (hk : ∀ inner inner' a, P a → L.RunsOn x h S (k inner a) (l inner' a)) :
    L.RunsOn x (Effects.nest kind.nesting g * h) S
      (do let inner ← openScope (some x.id) kind; body inner >>= k inner)
      (do let inner ← openScope (some x.id') kind; body' inner >>= l inner) := by
  intro c c' hc
  have hrest (a b : α) (hab : Same P a b) :
      L.RunsOn x h S (k c.scopes.size a) (l c'.scopes.size b) := by
    obtain ⟨rfl, ha⟩ := hab
    exact hk _ _ _ ha
  obtain ⟨inner, hsize, hopened, hleave⟩ := L.rel_push hc x.same hkind
  obtain ⟨hvalue, hstate, hpost⟩ := hbody ⟨inner, _, _, hsize⟩ _ _ hopened
  obtain ⟨hvalue', hstate', hpost'⟩ := hrest _ _ hvalue _ _ (hleave _ _ hstate)
  exact ⟨hvalue', hstate', L.post_trans (L.post_nest hpost) hpost'⟩

/-- The check ends in a scope of its own. -/
theorem withinLast (kind : ScopeKind) (hkind : ∀ t, kind = .function t → L.Hint t)
    {body body' : Nat → CheckM α}
    (hbody : ∀ y : L.Site, L.Runs y g P (body y.id) (body' y.id')) :
    L.Runs x (Effects.nest kind.nesting g) P
      (do let inner ← openScope (some x.id) kind; body inner)
      (do let inner ← openScope (some x.id') kind; body' inner) := by
  have hwithin := within (x := x) (k := fun _ a => Pure.pure a) (l := fun _ a => Pure.pure a)
    kind hkind hbody fun _ _ a ha => pure ha
  rw [mul_one] at hwithin
  exact hwithin

end Regime

end ScriptCheck
