import Mathlib.Data.List.Basic
import Mathlib.Data.Option.Basic
import ScriptCheck.Proofs.Tables
import ScriptCheck.Scope

/-!
# Scopes from the inside out

A scope is opened after the scope around it, so that the scopes around it can be listed one by one
(`Scopes.enclosing_eq`) and do not depend on the scopes that were opened later
(`Scopes.enclosing_congr`).

A block inside a scope can be taken away without a trace if the scope gets the variables of the
block (`Scopes.Split`). The scopes that were opened later are then numbered one lower. What can be
seen from them stays the same, because reading the list of enclosing scopes meets the variables of
the block right before those that the scope had before.
-/

namespace ScriptCheck

/-- The result that a scope of this kind sets for the returns inside it. -/
def ScopeKind.result? : ScopeKind → Option Ty
  | .function result => some result
  | _ => none

namespace Scopes

/-! ## Enclosing scopes -/

theorem chain_none (s : Scopes) (count : Nat) : s.chain count none = [] := by
  cases count <;> rfl

/-- Looking further than to the outermost scope changes nothing. -/
theorem chain_eq (s : Scopes) (id : Nat) : ∀ {count more : Nat}, id < count → id < more →
    s.chain count (some id) = s.chain more (some id) := by
  induction id using Nat.strongRecOn with
  | ind id ih =>
    intro count more hcount hmore
    obtain ⟨count, rfl⟩ := Nat.exists_eq_add_of_lt hcount
    obtain ⟨more, rfl⟩ := Nat.exists_eq_add_of_lt hmore
    rw [chain, chain]
    cases hscope : s.scopes[id]? with
    | none => rfl
    | some scope =>
      dsimp only
      cases hparent : scope.parent with
      | none => rw [chain_none, chain_none]
      | some p =>
        have hp := s.nested id scope hscope p hparent
        exact congrArg _ (ih p hp (by omega) (by omega))

/-- A scope comes first, then the scopes around the one that encloses it. -/
theorem enclosing_eq {s : Scopes} {id : Nat} {scope : Scope} (h : s.scopes[id]? = some scope) :
    s.enclosing id = scope :: (scope.parent.map s.enclosing).getD [] := by
  have hid : id < s.size := (List.getElem?_eq_some_iff.1 h).1
  obtain ⟨n, hn⟩ := Nat.exists_eq_add_of_lt hid
  rw [enclosing, hn, chain, h]
  dsimp only
  cases hparent : scope.parent with
  | none => rw [chain_none, Option.map_none, Option.getD_none]
  | some p =>
    have hp := s.nested id scope h p hparent
    exact congrArg _ (s.chain_eq p (by omega) (by omega))

theorem enclosing_of_none {s : Scopes} {id : Nat} (h : s.scopes[id]? = none) :
    s.enclosing id = [] := by
  rw [enclosing]
  cases s.size with
  | zero => rfl
  | succ n => rw [chain, h]

/-- What encloses a scope was opened before it. -/
theorem enclosing_congr {s s' : Scopes} : (id : Nat) →
    (∀ i ≤ id, s.scopes[i]? = s'.scopes[i]?) → s.enclosing id = s'.enclosing id := by
  intro id
  induction id using Nat.strongRecOn with
  | ind id ih =>
    intro h
    cases hscope : s.scopes[id]? with
    | none => rw [enclosing_of_none hscope, enclosing_of_none (h id (Nat.le_refl id) ▸ hscope)]
    | some scope =>
      rw [enclosing_eq hscope, enclosing_eq (h id (Nat.le_refl id) ▸ hscope)]
      cases hparent : scope.parent with
      | none => rfl
      | some p =>
        have hp := s.nested id scope hscope p hparent
        simp only [Option.map_some, Option.getD_some, ih p hp fun i hi => h i (by omega)]

/-- The innermost function decides. -/
theorem returnType?_eq_findSome? (s : Scopes) (id : Nat) :
    s.returnType? id = ((s.enclosing id).map Scope.kind).findSome? ScopeKind.result? := by
  rw [returnType?, List.findSome?_map]
  rfl

/-- The innermost scope that is no block decides. -/
theorem inLoop_eq_findSome? (s : Scopes) (id : Nat) :
    s.inLoop id = ((s.enclosing id).findSome? fun scope =>
      if scope.kind = .block then none else some (scope.kind == .loop)).getD false := by
  unfold inLoop
  induction s.enclosing id with
  | nil => rfl
  | cons scope rest ih =>
    by_cases hkind : scope.kind = .block
    · simp [hkind, ih]
    · simp [hkind]

/-! ## Single scopes -/

theorem scopes_push (s : Scopes) (parent : Option Nat) (kind : ScopeKind) (i : Nat) :
    (s.push parent kind).scopes[i]? =
      if i < s.size then s.scopes[i]?
      else if i = s.size then some ⟨parent.filter fun p => p < s.size, kind, {}⟩
      else none := by
  unfold push size
  rw [List.getElem?_append, List.getElem?_singleton]
  split_ifs
  all_goals first | rfl | omega

theorem scopes_declare (s : Scopes) (id : Nat) (name : String) (value : Local) (i : Nat) :
    (s.declare id name value).scopes[i]? = (s.scopes[i]?).map fun scope =>
      if id = i then { scope with locals := scope.locals.insert name value } else scope :=
  List.getElem?_modify ..

theorem scopes_truncate (s : Scopes) (count i : Nat) :
    (s.truncate count).scopes[i]? = if i < count then s.scopes[i]? else none :=
  List.getElem?_take

/-! ## A scope without the block in it -/

/-- Scope `i` is the same as scope `i'` once the last scope of `base` has got a block inside of `id`
after it: the block stands for `id` itself, and later scopes are numbered one higher. -/
def Moved (base : Scopes) (id i i' : Nat) : Prop :=
  (i = id ∧ i' = base.size) ∨ (base.size ≤ i ∧ i' = i + 1)

/-- Scopes of one kind and with the same variables, inside of the same scope. -/
structure Alike (ids : Nat → Nat → Prop) (a b : Scope) : Prop where
  parent : Option.Rel ids a.parent b.parent
  kind : a.kind = b.kind
  locals : a.locals = b.locals

/-- Two continuations of `base`. In the second, the variables that are declared in scope `id` are
held by a block of their own, which comes right after `base`. -/
structure Split (base : Scopes) (id : Nat) (whole split : Scopes) : Prop where
  size : split.size = whole.size + 1
  base_le : base.size ≤ whole.size
  whole_of_ne : ∀ i < base.size, i ≠ id → whole.scopes[i]? = base.scopes[i]?
  split_of_lt : ∀ i < base.size, split.scopes[i]? = base.scopes[i]?
  parted : ∃ scope own block, base.scopes[id]? = some scope ∧
    whole.scopes[id]? = some { scope with locals := own } ∧
    split.scopes[base.size]? = some ⟨some id, .block, block⟩ ∧
    ∀ name, own.get? name = (block.get? name).or (scope.locals.get? name)
  later : ∀ i ≥ base.size,
    Option.Rel (Alike (Moved base id)) whole.scopes[i]? split.scopes[i + 1]?

namespace Split

variable {base whole split : Scopes} {id : Nat}

/-- A block that was just opened can be taken away. -/
theorem start (hid : id < base.size) : Split base id base (base.push (some id) .block) where
  size := size_push ..
  base_le := Nat.le_refl _
  whole_of_ne _ _ _ := rfl
  split_of_lt i hi := by rw [scopes_push, if_pos hi]
  parted := by
    obtain ⟨scope, hscope⟩ : ∃ scope, base.scopes[id]? = some scope :=
      Option.isSome_iff_exists.1 (by simpa [Scopes.size] using hid)
    refine ⟨scope, scope.locals, {}, hscope, hscope, ?_, fun name => rfl⟩
    rw [scopes_push, if_neg (Nat.lt_irrefl _), if_pos rfl]
    simp [hid]
  later i hi := by
    have h : base.scopes[i]? = none := List.getElem?_eq_none hi
    rw [h, scopes_push, if_neg (by omega), if_neg (by omega)]
    exact .none

variable (h : Split base id whole split)

include h

theorem lt_size : id < base.size := by
  obtain ⟨scope, -, -, hscope, -⟩ := h.parted
  exact (List.getElem?_eq_some_iff.1 hscope).1

/-- Opening a scope in the same scope of both. -/
theorem push {parent parent' : Option Nat} (hparent : Option.Rel (Moved base id) parent parent')
    (kind : ScopeKind) : Split base id (whole.push parent kind) (split.push parent' kind) := by
  have hid := h.lt_size
  have hsize := h.size
  have hbase := h.base_le
  have hfilter : Option.Rel (Moved base id) (parent.filter fun p => p < whole.size)
      (parent'.filter fun p => p < split.size) := by
    cases hparent with
    | none => exact .none
    | @some p p' hp =>
      have hlt : p < whole.size ↔ p' < split.size := by
        rcases hp with ⟨rfl, rfl⟩ | ⟨_, rfl⟩ <;> omega
      by_cases hopen : p < whole.size
      · simpa [Option.filter, hopen, hlt.1 hopen] using hp
      · simp [Option.filter, hopen, mt hlt.2 hopen]
  refine ⟨by simp [hsize], by simp; omega, fun i hi hne => ?_, fun i hi => ?_, ?_, fun i hi => ?_⟩
  · rw [scopes_push, if_pos (by omega), h.whole_of_ne i hi hne]
  · rw [scopes_push, if_pos (by omega), h.split_of_lt i hi]
  · rw [scopes_push, scopes_push, if_pos (by omega), if_pos (by omega)]
    exact h.parted
  · rw [scopes_push, scopes_push]
    rcases Nat.lt_trichotomy i whole.size with hlt | heq | hgt
    · rw [if_pos hlt, if_pos (by omega)]
      exact h.later i hi
    · rw [if_neg (by omega), if_pos heq, if_neg (by omega), if_pos (by omega)]
      exact .some ⟨hfilter, rfl, rfl⟩
    · rw [if_neg (by omega), if_neg (by omega), if_neg (by omega), if_neg (by omega)]
      exact .none

/-- Declaring a variable in the same scope of both. -/
theorem declare {i i' : Nat} (hi : Moved base id i i') (name : String) (value : Local) :
    Split base id (whole.declare i name value) (split.declare i' name value) := by
  have hid := h.lt_size
  have hne : ∀ j < base.size, i' ≠ j := by
    intro j hj
    rcases hi with ⟨-, rfl⟩ | ⟨_, rfl⟩ <;> omega
  refine ⟨by simp [h.size], by simpa using h.base_le, fun j hj hjne => ?_, fun j hj => ?_, ?_,
    fun j hj => ?_⟩
  · have hij : i ≠ j := by rcases hi with ⟨rfl, -⟩ | ⟨_, -⟩ <;> omega
    simp [scopes_declare, hij, h.whole_of_ne j hj hjne]
  · simp [scopes_declare, hne j hj, h.split_of_lt j hj]
  · obtain ⟨scope, own, block, hbase, hwhole, hsplit, hlocals⟩ := h.parted
    rcases hi with ⟨rfl, rfl⟩ | ⟨hlt, rfl⟩
    · refine ⟨scope, own.insert name value, block.insert name value, hbase, ?_, ?_, fun x => ?_⟩
      · simp [scopes_declare, hwhole]
      · simp [scopes_declare, hsplit]
      · rw [Table.get?_insert, Table.get?_insert, hlocals]
        split <;> rfl
    · refine ⟨scope, own, block, hbase, ?_, ?_, hlocals⟩
      · simp [scopes_declare, hwhole, show i ≠ id by omega]
      · simp [scopes_declare, hsplit, show i + 1 ≠ base.size by omega]
  · have hij : i = j ↔ i' = j + 1 := by rcases hi with ⟨rfl, rfl⟩ | ⟨_, rfl⟩ <;> omega
    have hlater := h.later j hj
    rw [scopes_declare, scopes_declare]
    generalize whole.scopes[j]? = a, split.scopes[j + 1]? = b at hlater ⊢
    cases hlater with
    | none => exact .none
    | some hab =>
      refine .some ?_
      simp only [← hij]
      split
      · exact ⟨hab.parent, hab.kind, by rw [hab.locals]⟩
      · exact hab

/-- Forgetting the same scopes of both. -/
theorem truncate {count : Nat} (hcount : base.size ≤ count) :
    Split base id (whole.truncate count) (split.truncate (count + 1)) := by
  have hid := h.lt_size
  have hsize : ∀ (s : Scopes) n, (s.truncate n).size = min n s.size := fun s n => List.length_take
  refine ⟨?_, ?_, fun i hi hne => ?_, fun i hi => ?_, ?_, fun i hi => ?_⟩
  · rw [hsize, hsize, h.size]
    omega
  · rw [hsize]
    exact Nat.le_min.2 ⟨hcount, h.base_le⟩
  · rw [scopes_truncate, if_pos (by omega), h.whole_of_ne i hi hne]
  · rw [scopes_truncate, if_pos (by omega), h.split_of_lt i hi]
  · rw [scopes_truncate, scopes_truncate, if_pos (by omega), if_pos (by omega)]
    exact h.parted
  · rw [scopes_truncate, scopes_truncate]
    by_cases hlt : i < count
    · rw [if_pos hlt, if_pos (by omega)]
      exact h.later i hi
    · rw [if_neg hlt, if_neg (by omega)]
      exact .none

/-! ## What can be seen -/

/-- Reading the scopes from the inside out finds the same. What is read off a scope may depend on
its kind and its variables, and has to come from the block before it comes from the scope. -/
theorem findSome?_enclosing {β : Type} {f : ScopeKind → Table String Local → Option β}
    (hf : ∀ kind (own block locals : Table String Local),
      (∀ name, own.get? name = (block.get? name).or (locals.get? name)) →
      f kind own = (f .block block).or (f kind locals)) :
    ∀ {i i' : Nat}, Moved base id i i' →
      (whole.enclosing i).findSome? (fun scope => f scope.kind scope.locals) =
        (split.enclosing i').findSome? fun scope => f scope.kind scope.locals := by
  intro i
  induction i using Nat.strongRecOn with
  | ind i ih =>
    rintro i' (⟨rfl, rfl⟩ | ⟨hi, rfl⟩)
    · obtain ⟨scope, own, block, hbase, hwhole, hsplit, hlocals⟩ := h.parted
      have hrest : (scope.parent.map whole.enclosing).getD [] =
          (scope.parent.map split.enclosing).getD [] := by
        cases hparent : scope.parent with
        | none => rfl
        | some p =>
          have hp := base.nested i scope hbase p hparent
          refine enclosing_congr p fun j hj => ?_
          have hlt := h.lt_size
          rw [h.whole_of_ne j (by omega) (by omega), h.split_of_lt j (by omega)]
      rw [enclosing_eq hwhole, enclosing_eq hsplit, Option.map_some, Option.getD_some,
        enclosing_eq ((h.split_of_lt i h.lt_size).trans hbase)]
      simp only [List.findSome?_cons, hrest, hf scope.kind own block scope.locals hlocals]
      cases f .block block <;> rfl
    · have hlater := h.later i hi
      generalize hwhole : whole.scopes[i]? = a, hsplit : split.scopes[i + 1]? = b at hlater
      cases hlater with
      | none => rw [enclosing_of_none hwhole, enclosing_of_none hsplit]
      | @some a b hab =>
        have hparent := hab.parent
        rw [enclosing_eq hwhole, enclosing_eq hsplit, List.findSome?_cons, List.findSome?_cons,
          hab.kind, hab.locals]
        generalize hp : a.parent = p, hq : b.parent = q at hparent ⊢
        cases hparent with
        | none => rfl
        | some hpq =>
          simp only [Option.map_some, Option.getD_some, ih _ (whole.nested i a hwhole _ hp) hpq]

theorem local?_eq {i i' : Nat} (hi : Moved base id i i') (name : String) :
    whole.local? i name = split.local? i' name :=
  h.findSome?_enclosing (f := fun _ locals => locals.get? name)
    (fun _ _ _ _ hlocals => hlocals name) hi

theorem returnType?_eq {i i' : Nat} (hi : Moved base id i i') :
    whole.returnType? i = split.returnType? i' :=
  h.findSome?_enclosing (f := fun kind _ => kind.result?) (fun _ _ _ _ _ => rfl) hi

theorem inLoop_eq {i i' : Nat} (hi : Moved base id i i') : whole.inLoop i = split.inLoop i' := by
  rw [inLoop_eq_findSome?, inLoop_eq_findSome?, h.findSome?_enclosing
    (f := fun kind _ => if kind = .block then none else some (kind == .loop))
    (fun _ _ _ _ _ => rfl) hi]

end Split

/-! ## What holds of all local variables -/

theorem mem_scopes_of_mem_chain {s : Scopes} {scope : Scope} : {count : Nat} →
    {id : Option Nat} → scope ∈ s.chain count id → scope ∈ s.scopes
  | 0, _, h => by cases h
  | _ + 1, none, h => by cases h
  | count + 1, some id, h => by
    rw [chain] at h
    split at h
    · cases h
    · rename_i found hfound
      rcases List.mem_cons.1 h with rfl | h
      · exact List.mem_of_getElem? hfound
      · exact mem_scopes_of_mem_chain h

/-- All local variables have the property. -/
def All (P : String → Local → Prop) (s : Scopes) : Prop := ∀ scope ∈ s.scopes, scope.locals.All P

namespace All

variable {P : String → Local → Prop} {s : Scopes}

theorem empty : All P {} := fun _ h => absurd h List.not_mem_nil

theorem local? (h : s.All P) {id : Nat} {name : String} {value : Local}
    (hvalue : s.local? id name = some value) : P name value := by
  obtain ⟨scope, hscope, hget⟩ := List.exists_of_findSome?_eq_some hvalue
  exact (h scope (mem_scopes_of_mem_chain hscope)).get? hget

theorem push (h : s.All P) (parent : Option Nat) (kind : ScopeKind) :
    (s.push parent kind).All P := by
  intro scope hscope
  rcases List.mem_append.1 hscope with hscope | hscope
  · exact h scope hscope
  · obtain rfl := List.mem_singleton.1 hscope
    exact .empty

theorem truncate (h : s.All P) (count : Nat) : (s.truncate count).All P :=
  fun scope hscope => h scope (List.mem_of_mem_take hscope)

theorem declare (h : s.All P) (id : Nat) {name : String} {value : Local} (hvalue : P name value) :
    (s.declare id name value).All P := by
  intro scope hscope
  obtain ⟨i, hi⟩ := List.mem_iff_getElem?.1 hscope
  rw [scopes_declare] at hi
  obtain ⟨old, hold, rfl⟩ := Option.map_eq_some_iff.1 hi
  have hlocals := h old (List.mem_of_getElem? hold)
  split
  · exact hlocals.insert hvalue
  · exact hlocals

end All

end Scopes

end ScriptCheck
