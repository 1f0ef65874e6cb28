import ScriptCheck.Proofs.Scopes

/-!
# What can be seen along a path of scopes

A path lists a scope and those around it by their numbers. The variables that the scopes on the path
hold are those that can be seen from its first scope (`Scopes.Sees.isSome_local?`). Opening scopes
does not change what a path sees, and declaring a variable does so only if it is declared on the
path.
-/

namespace ScriptCheck

namespace Scopes

variable {s : Scopes}

/-- Each scope lies in the next one, and the last one in none. -/
def Path (s : Scopes) : List Nat → Prop
  | [] => True
  | id :: rest => (s.scopes[id]?).map Scope.parent = some rest.head? ∧ s.Path rest

theorem Path.lt_size : {path : List Nat} → s.Path path → ∀ i ∈ path, i < s.size
  | [], _, _, hi => absurd hi List.not_mem_nil
  | id :: rest, ⟨hid, hrest⟩, i, hi => by
    rcases List.mem_cons.1 hi with rfl | hi
    · by_contra hsize
      rw [List.getElem?_eq_none (Nat.le_of_not_lt hsize)] at hid
      cases hid
    · exact hrest.lt_size i hi

theorem Path.congr {s s' : Scopes} : {path : List Nat} → s.Path path →
    (∀ i ∈ path, (s'.scopes[i]?).map Scope.parent = (s.scopes[i]?).map Scope.parent) →
    s'.Path path
  | [], _, _ => trivial
  | _ :: _, ⟨hid, hrest⟩, h =>
    ⟨(h _ List.mem_cons_self).trans hid, hrest.congr fun i hi => h i (List.mem_cons_of_mem _ hi)⟩

/-- The scopes around the first one on a path were opened before it. -/
theorem Path.lt_head : {id : Nat} → {rest : List Nat} → s.Path (id :: rest) →
    ∀ i ∈ rest, i < id
  | id, p :: rest, ⟨hid, hrest⟩, i, hi => by
    obtain ⟨scope, hscope, hparent⟩ := Option.map_eq_some_iff.1 hid
    have hp : p < id := s.nested id scope hscope p hparent
    rcases List.mem_cons.1 hi with rfl | hi
    · exact hp
    · exact Nat.lt_trans (hrest.lt_head i hi) hp

theorem Path.push {path : List Nat} (h : s.Path path) (parent : Option Nat) (kind : ScopeKind) :
    (s.push parent kind).Path path :=
  h.congr fun i hi => by rw [scopes_push, if_pos (h.lt_size i hi)]

/-- A scope that is opened on a path prolongs it. -/
theorem Path.nested {id : Nat} {rest : List Nat} (h : s.Path (id :: rest)) (kind : ScopeKind) :
    (s.push (some id) kind).Path (s.size :: id :: rest) := by
  refine ⟨?_, h.push _ kind⟩
  rw [scopes_push, if_neg (Nat.lt_irrefl _), if_pos rfl]
  simp [Option.filter, h.lt_size id List.mem_cons_self]

theorem Path.declare {path : List Nat} (h : s.Path path) (id : Nat) (name : String)
    (value : Local) : (s.declare id name value).Path path := by
  refine h.congr fun i _ => ?_
  rw [scopes_declare, Option.map_map]
  refine congrArg (Option.map · _) (funext fun scope => ?_)
  dsimp only [Function.comp]
  split <;> rfl

/-- The scopes on a path are those that enclose its first one. -/
theorem Path.enclosing : {id : Nat} → {rest : List Nat} → s.Path (id :: rest) →
    s.enclosing id = (id :: rest).filterMap (s.scopes[·]?)
  | id, rest, ⟨hid, hrest⟩ => by
    obtain ⟨scope, hscope, hparent⟩ := Option.map_eq_some_iff.1 hid
    rw [enclosing_eq hscope, List.filterMap_cons_some hscope, hparent]
    cases rest with
    | nil => rfl
    | cons p rest => exact congrArg _ hrest.enclosing

/-- The names that a scope itself holds, after a declaration. -/
theorem isSome_own?_declare (s : Scopes) (id i : Nat) (name other : String) (value : Local) :
    ((s.declare id name value).own? i other).isSome ↔
      (i = id ∧ i < s.size ∧ other = name) ∨ (s.own? i other).isSome := by
  rw [own?, own?, scopes_declare]
  cases hscope : s.scopes[i]? with
  | none => simp [List.getElem?_eq_none_iff.1 hscope, Scopes.size]
  | some scope =>
    have hlt : i < s.size := (List.getElem?_eq_some_iff.1 hscope).1
    simp only [Option.map_some, Option.bind_some]
    by_cases hi : id = i
    · subst hi
      rw [if_pos rfl, Table.get?_insert]
      by_cases hother : other = name <;> simp [hother, hlt]
    · simp [hi, Ne.symm hi]

/-- The names that are visible along a path of scopes. -/
structure Sees (s : Scopes) (path : List Nat) (names : List String) : Prop where
  isPath : s.Path path
  mem_names (name : String) : name ∈ names ↔ ∃ i ∈ path, (s.own? i name).isSome

namespace Sees

variable {s s' : Scopes} {path rest : List Nat} {names : List String} {id : Nat}

theorem isSome_local? (h : s.Sees (id :: rest) names) (name : String) :
    (s.local? id name).isSome ↔ name ∈ names := by
  rw [h.mem_names, local?, h.isPath.enclosing, List.findSome?_isSome_iff]
  constructor
  · rintro ⟨scope, hscope, hget⟩
    obtain ⟨i, hi, hfound⟩ := List.mem_filterMap.1 hscope
    exact ⟨i, hi, by rwa [own?, hfound]⟩
  · rintro ⟨i, hi, hown⟩
    obtain ⟨value, hvalue⟩ := Option.isSome_iff_exists.1 hown
    obtain ⟨scope, hscope, hget⟩ := Option.bind_eq_some_iff.1 hvalue
    exact ⟨scope, List.mem_filterMap.2 ⟨i, hi, hscope⟩, Option.isSome_iff_exists.2 ⟨value, hget⟩⟩

theorem congr_names {names' : List String} (h : s.Sees path names)
    (hnames : ∀ name, name ∈ names' ↔ name ∈ names) : s.Sees path names' :=
  ⟨h.isPath, fun name => (hnames name).trans (h.mem_names name)⟩

/-- Other scopes may change. -/
theorem congr (h : s.Sees path names) (hscopes : ∀ i ∈ path, s'.scopes[i]? = s.scopes[i]?) :
    s'.Sees path names := by
  refine ⟨h.isPath.congr fun i hi => by rw [hscopes i hi], fun name => ?_⟩
  rw [h.mem_names]
  refine exists_congr fun i => and_congr_right fun hi => ?_
  rw [own?, own?, hscopes i hi]

theorem push (h : s.Sees path names) (parent : Option Nat) (kind : ScopeKind) :
    (s.push parent kind).Sees path names :=
  h.congr fun i hi => by rw [scopes_push, if_pos (h.isPath.lt_size i hi)]

theorem own?_push_size (s : Scopes) (parent : Option Nat) (kind : ScopeKind) (name : String) :
    (s.push parent kind).own? s.size name = none := by
  rw [own?, scopes_push, if_neg (Nat.lt_irrefl _), if_pos rfl]
  rfl

/-- A scope that is opened on the path sees what the path sees. -/
theorem nested (h : s.Sees (id :: rest) names) (kind : ScopeKind) :
    (s.push (some id) kind).Sees (s.size :: id :: rest) names := by
  refine ⟨h.isPath.nested kind, fun name => ?_⟩
  rw [(h.push (some id) kind).mem_names]
  simp [own?_push_size]

/-- A scope that is opened in none sees nothing. -/
theorem isolated (s : Scopes) (kind : ScopeKind) : (s.push none kind).Sees [s.size] [] := by
  refine ⟨⟨?_, trivial⟩, fun name => ?_⟩
  · rw [scopes_push, if_neg (Nat.lt_irrefl _), if_pos rfl]
    rfl
  · simp [own?_push_size]

/-- What is declared elsewhere is not seen. -/
theorem declare_elsewhere (h : s.Sees path names) (hid : id ∉ path) (name : String)
    (value : Local) : (s.declare id name value).Sees path names := by
  refine h.congr fun i hi => ?_
  have hne : id ≠ i := fun heq => hid (heq ▸ hi)
  simp [scopes_declare, hne]

/-- What is declared in the first scope is seen. -/
theorem declare (h : s.Sees (id :: rest) names) (name : String) (value : Local) :
    (s.declare id name value).Sees (id :: rest) (name :: names) := by
  refine ⟨h.isPath.declare id name value, fun other => ?_⟩
  have hid := h.isPath.lt_size id List.mem_cons_self
  simp only [isSome_own?_declare, List.mem_cons, h.mem_names other]
  constructor
  · rintro (rfl | ⟨i, hi, hown⟩)
    · exact ⟨id, .inl rfl, .inl ⟨rfl, hid, rfl⟩⟩
    · exact ⟨i, hi, .inr hown⟩
  · rintro ⟨i, hi, ⟨-, -, rfl⟩ | hown⟩
    · exact .inl rfl
    · exact .inr ⟨i, hi, hown⟩

end Sees

end Scopes

end ScriptCheck
