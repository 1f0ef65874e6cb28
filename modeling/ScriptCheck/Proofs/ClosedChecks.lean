import ScriptCheck.Observation
import ScriptCheck.Proofs.ClosedSymbols
import ScriptCheck.Proofs.RegimeItems

/-!
# Checks find closed types

A check that starts with closed symbols, local variables and recorded types goes on with such:
every rule returns a closed type if its parts do, whatever the hint. A hint may be open itself, but
the rules take over concrete types from it only.

At the same time the rules are compared with themselves under an observer that leaves states with
closed local variables alone. Both are said by the regime `closure`: observed and not, a computation
does the same, and all that it leaves behind is closed.
-/

namespace ScriptCheck

open Check

/-! ## Closed states -/

/-- Everything in the state of a check is closed. -/
structure Checker.Closed (c : Checker) : Prop where
  symbols : c.view.symbols.Closed
  self : ∀ self ∈ c.view.self, self.ty.Rigid
  locals : c.scopes.Closed
  types : c.report.types.All fun _ t => t.Closed

/-- A check that begins at module level. -/
theorem Checker.Closed.start {s : Symbols} (h : s.Closed) (diagnostics : List Diagnostic) :
    Checker.Closed { view := { symbols := s }, report := { diagnostics } } :=
  ⟨h, nofun, Scopes.All.empty, .empty⟩

/-- Two runs in one and the same closed state. -/
def Checker.Calm (c c' : Checker) : Prop := c' = c ∧ c.Closed

open Checker (Calm)

/-! ## The regime -/

/-- What a check sees has nothing open. -/
def View.Closed (v : View) : Prop := v.symbols.Closed ∧ ∀ self ∈ v.self, self.ty.Rigid

theorem Checker.closed_typeLaws {G : Type} {Post : Nat → G → Checker → Checker → Prop} :
    TypeLaws (Terms.single Checker.Closed View.Closed Ty.Closed Post) where
  good_unknown := by rfl
  good_prelude _ := by rfl
  good_array h := Ty.closed_of_children nofun fun _ hc => List.mem_singleton.1 hc ▸ h
  good_tuple {ts} := by
    refine ⟨fun h => Ty.closed_of_children nofun h, fun h t ht => ?_⟩
    change (Ty.tuple ts).free = [] at h
    rw [Ty.free, Ty.freeOfList_eq, List.flatMap_eq_nil_iff] at h
    exact h t ht
  good_record h := Ty.closed_of_children nofun fun c hc => by
    obtain ⟨item, hitem, rfl⟩ := List.mem_map.1 hc
    exact h item hitem
  good_function hparams hresult := Ty.closed_of_children nofun fun c hc => by
    simp only [Ty.children, List.mem_append, List.mem_map, List.mem_singleton] at hc
    rcases hc with ⟨p, hp, rfl⟩ | rfl
    · exact hparams p hp
    · exact hresult
  good_erase _ := (Ty.rigid_erase _).closed
  good_concrete _ h := (Ty.rigid_of_isConcrete h).closed
  hint _ := trivial
  hint_array _ := trivial
  hint_tuple _ _ _ := trivial
  hint_function := ⟨fun _ => ⟨fun _ _ => trivial, trivial⟩, fun _ => trivial⟩
  hint_guess _ _ _ := fun _ _ => trivial
  like_fill h _ _ := ⟨by rw [h.1], trivial⟩
  like_types name h := by rw [h.1]
  like_define range h := by rw [h.1]
  like_accepts h _ _ := by rw [h.1]
  like_describe h _ := by rw [h.1]
  like_genericNames h _ := by rw [h.1]
  like_module? h _ := by rw [h.1]
  like_type? name h _ := ⟨by rw [h.1], fun _ _ => trivial⟩
  like_resolve h _ := ⟨by rw [h.1], (TypeSpec.rigid_resolve (h.2.1.view h.2.2) _).closed⟩
  like_constant? h _ _ := ⟨by rw [h.1], fun _ hfound => h.2.1.constant? hfound⟩
  like_function? name _ h _ _ := by
    refine ⟨by rw [h.1], fun found hfound => ⟨trivial, fun hnone => ?_⟩⟩
    subst hnone
    exact h.2.1.function? hfound
  like_field? name h _ :=
    ⟨by rw [h.1], fun _ hfound => ⟨trivial, fun ht => h.2.1.field? ht hfound⟩⟩
  like_method? name h _ := ⟨by rw [h.1], fun _ _ => trivial⟩
  like_indexed? h ht := ⟨by rw [h.1], fun _ hfound => Symbols.Closed.elementIn? ht hfound⟩
  like_iterated? h ht := ⟨by rw [h.1], fun _ hfound => Symbols.Closed.elementIn? ht hfound⟩
  like_prefixOperator? op h ht _ :=
    ⟨by rw [h.1], fun _ hfound => h.2.1.prefixOperator? ht hfound⟩
  like_suffixOperator? op h ht _ :=
    ⟨by rw [h.1], fun _ hfound => h.2.1.suffixOperator? ht hfound⟩

theorem Checker.closed_invariant : Invariant Checker.Closed View.Closed Ty.Closed where
  view hc := ⟨hc.symbols, hc.self⟩
  local? hc hv := ⟨Scopes.All.local? hc.locals hv, fun _ _ => trivial⟩
  write {c entry} hc hentry := by
    refine ⟨hc.symbols, hc.self, hc.locals, ?_⟩
    cases entry with
    | type range ty => exact hc.types.insert hentry
    | diagnostic | token | hint | definition | hover => exact hc.types
  declare id _ _ hc hvalue _ :=
    { hc with locals :=
      Scopes.All.declare (P := fun _ value => value.ty.Closed) hc.locals id hvalue }
  push parent kind hc := { hc with locals := Scopes.All.push hc.locals parent kind }
  truncate count hc := { hc with locals := Scopes.All.truncate hc.locals count }
  mute _ hc := ⟨hc.symbols, hc.self, hc.locals, hc.types⟩

/-- All that a check sees and finds is closed. -/
def closure : Regime Unit where
  toTerms := .single Checker.Closed View.Closed Ty.Closed fun _ _ _ _ => True
  toTypeLaws := Checker.closed_typeLaws
  toStateLaws := Checker.closed_invariant.stateLaws .any
  toEffectLaws := .any

/-! ## Observation -/

/-- The observer leaves alone every state whose local variables have closed types. -/
def LeavesClosed (watch : Checker → Checker) : Prop := ∀ c, c.scopes.Closed → watch c = c

variable {watch : Checker → Checker}

/-- The observer changes nothing, because all states that it sees are closed. -/
theorem LeavesClosed.wraps (hwatch : LeavesClosed watch) : closure.Wraps (Part.observed watch) where
  range _ := rfl
  isLambda _ := rfl
  twins _ := trivial
  check {x g hint m p} h := by
    rintro _ c ⟨rfl, hc⟩
    have hrun : ((p.observed watch).check x.id' hint).run c =
        (((p.check x.id' hint).run (watch c)).1,
          watch ((p.check x.id' hint).run (watch c)).2) := rfl
    obtain ⟨hvalue, ⟨hstate, hclosed⟩, -⟩ := h c c ⟨rfl, hc⟩
    rw [hrun, hwatch c hc.locals, hstate, hwatch _ hclosed.locals]
    exact ⟨hvalue, ⟨rfl, hclosed⟩, trivial⟩

theorem closure_grounds : closure.Grounds where
  known _ := trivial
  like_registered? _ _ h := by rw [h.1]
  like_self h := ⟨by rw [h.1], fun self hself => (h.2.2 self hself).closed⟩
  like_constants _ h := by rw [h.1]
  like_functions _ h := by rw [h.1]
  like_registry h _ := by rw [h.1]
  rel_size h := by rw [h.1]; rfl
  rel_root h _ := ⟨by rw [h.1], Checker.closed_invariant.push none _ h.2⟩

theorem closure_closeScopes : Coupled Calm (Same Any) closeScopes closeScopes := by
  rintro _ c ⟨rfl, hc⟩
  exact ⟨⟨rfl, trivial⟩, rfl, Checker.closed_invariant.truncate 0 hc⟩

theorem closure_level : closure.Level () where
  close := closure_closeScopes
  block name {m m'} hm := by
    rintro _ c ⟨rfl, hc⟩
    have hinside : ((setSelf (Symbols.selfOf? c.view.symbols name)).run c).2.Closed :=
      ⟨hc.symbols, hc.symbols.selfOf? name, hc.locals, hc.types⟩
    obtain ⟨-, hstate, hend⟩ :=
      hm (v := c.view) ⟨rfl, hc.symbols, hc.self⟩ () closure_closeScopes ⟨rfl, hinside⟩
    exact ⟨⟨rfl, trivial⟩, congrArg (fun d => ((setSelf none).run d).2) hstate,
      hend.symbols, nofun, hend.locals, hend.types⟩

namespace Check

variable {α : Type}

/-- In closed states both computations do the same, return something with the property and end in
a closed state. -/
def Guarded (P : α → Prop) (m m' : CheckM α) : Prop := Coupled Calm (Same P) m m'

theorem Guarded.items (hw : LeavesClosed watch) (xs : List Item) :
    Guarded Any (items Expr.part xs) (items (Expr.observed watch) xs) :=
  closure_grounds.items (hw.wraps.expr _) closure_level xs fun _ _ =>
    .of_any rfl (fun _ => trivial) fun _ _ => trivial

end Check

end ScriptCheck
