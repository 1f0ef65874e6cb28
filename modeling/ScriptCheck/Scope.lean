import ScriptCheck.Symbols.Lookup

/-!
# Scopes

The local variables of a body. Scopes are numbered in the order in which they are opened and each
knows the number of the scope around it, which was opened before (`Nested`). `Scopes.enclosing`
lists a scope and those around it, from the inside out; what a scope can see is read off that list:

* `local?` is the innermost variable of a name;
* `inLoop` asks for a loop that is reached without leaving a function;
* `returnType?` is the result that the innermost function declares.
-/

namespace ScriptCheck

/-- What a scope belongs to. -/
inductive ScopeKind where
  | block
  | loop
  /-- The body of a function or lambda, and the type of what it returns. -/
  | function (result : Ty)
deriving DecidableEq

/-- A local variable or parameter. -/
structure Local where
  ty : Ty
  definition : Option Definition := none
  isConst : Bool := false
  isParam : Bool := false
deriving DecidableEq

/-- One scope with the number of the scope around it. -/
structure Scope where
  parent : Option Nat
  kind : ScopeKind
  locals : Table String Local := {}
deriving DecidableEq

/-- Every scope was opened after the scope around it. -/
def Nested (scopes : List Scope) : Prop :=
  ∀ (i : Nat) (scope : Scope), scopes[i]? = some scope → ∀ p, scope.parent = some p → p < i

theorem nested_nil : Nested [] := by
  intro i scope h
  simp at h

theorem Nested.append_singleton {scopes : List Scope} (h : Nested scopes) {scope : Scope}
    (hscope : ∀ p, scope.parent = some p → p < scopes.length) : Nested (scopes ++ [scope]) := by
  intro i found hi p hp
  rw [List.getElem?_append] at hi
  split at hi
  · exact h i found hi p hp
  · rename_i hlen
    rw [List.getElem?_singleton] at hi
    split at hi
    · obtain rfl := Option.some.inj hi
      have := hscope p hp
      omega
    · simp at hi

theorem Nested.take {scopes : List Scope} (h : Nested scopes) (count : Nat) :
    Nested (scopes.take count) := by
  intro i scope hi
  rw [List.getElem?_take] at hi
  split at hi
  · exact h i scope hi
  · simp at hi

theorem Nested.modify {scopes : List Scope} (h : Nested scopes) (id : Nat) {f : Scope → Scope}
    (hf : ∀ scope, (f scope).parent = scope.parent) : Nested (scopes.modify id f) := by
  intro i scope hi p hp
  rw [List.getElem?_modify] at hi
  obtain ⟨old, hold, rfl⟩ := Option.map_eq_some_iff.1 hi
  refine h i old hold p ?_
  rw [← hp]
  split
  · exact (hf old).symm
  · rfl

/-- All scopes of the item that is being checked. -/
structure Scopes where
  scopes : List Scope := []
  nested : Nested scopes := by exact nested_nil
deriving DecidableEq

/-- Where a plain name was found. -/
inductive Origin where
  | var (isConst isParam : Bool)
  | constant
  | function
deriving DecidableEq

/-- What a plain name stands for. -/
structure Resolved where
  ty : Ty
  definition : Option Definition
  description : String
  origin : Origin
deriving DecidableEq

namespace Scopes

/-- The number of scopes, which is the number of the next one. -/
def size (s : Scopes) : Nat := s.scopes.length

/-- Opens a scope. A scope around it that is not open counts as none. -/
def push (s : Scopes) (parent : Option Nat) (kind : ScopeKind) : Scopes :=
  ⟨s.scopes ++ [{ parent := parent.filter fun p => p < s.scopes.length, kind := kind }],
    s.nested.append_singleton fun p hp => by simpa using (Option.filter_eq_some_iff.1 hp).2⟩

/-- Forgets every scope but the first `count`. -/
def truncate (s : Scopes) (count : Nat) : Scopes := ⟨s.scopes.take count, s.nested.take count⟩

/-- Declares a variable in a scope. One of the same name in that scope is replaced, one in a scope
around it is hidden. -/
def declare (s : Scopes) (id : Nat) (name : String) (value : Local) : Scopes :=
  ⟨s.scopes.modify id fun scope => { scope with locals := scope.locals.insert name value },
    s.nested.modify id fun _ => rfl⟩

@[simp]
theorem size_push (s : Scopes) (parent : Option Nat) (kind : ScopeKind) :
    (s.push parent kind).size = s.size + 1 := by
  simp [size, push]

@[simp]
theorem size_declare (s : Scopes) (id : Nat) (name : String) (value : Local) :
    (s.declare id name value).size = s.size := by
  simp [size, declare]

/-- Forgetting scopes undoes opening them. -/
@[simp]
theorem truncate_push (s : Scopes) (parent : Option Nat) (kind : ScopeKind) :
    (s.push parent kind).truncate s.size = s := by
  simp [size, push, truncate]

/-- The variable that a scope itself holds. -/
def own? (s : Scopes) (id : Nat) (name : String) : Option Local :=
  (s.scopes[id]?).bind fun scope => scope.locals.get? name

/-- At most `count` scopes, from `id` outwards. -/
def chain (s : Scopes) : (count : Nat) → (id : Option Nat) → List Scope
  | 0, _ => []
  | _ + 1, none => []
  | count + 1, some id =>
    match s.scopes[id]? with
    | none => []
    | some scope => scope :: s.chain count scope.parent

/-- A scope and all those around it, innermost first. There are no more than scopes in all, because
a scope is opened after the one around it. -/
def enclosing (s : Scopes) (id : Nat) : List Scope := s.chain s.size (some id)

/-- The innermost variable called `name`. -/
def local? (s : Scopes) (id : Nat) (name : String) : Option Local :=
  (s.enclosing id).findSome? fun scope => scope.locals.get? name

/-- Whether the innermost scope that is no block is a loop. -/
def inLoop (s : Scopes) (id : Nat) : Bool :=
  ((s.enclosing id).find? fun scope => scope.kind != .block).any fun scope => scope.kind == .loop

/-- The result of the innermost function. -/
def returnType? (s : Scopes) (id : Nat) : Option Ty :=
  (s.enclosing id).findSome? fun scope =>
    match scope.kind with
    | .function result => some result
    | _ => none

/-- What a plain name stands for: a local variable, or else a constant, or else a function. The
hint is the function type expected at the place of use. -/
def resolve? (s : Scopes) (symbols : Symbols) (id : Nat) (name : String) (hint : Option Ty) :
    Option Resolved :=
  match s.local? id name with
  | some v => some ⟨v.ty, v.definition, "", .var v.isConst v.isParam⟩
  | none =>
    match symbols.constant? none name with
    | some c => some ⟨c.ty, c.definition, c.description, .constant⟩
    | none =>
      (symbols.function? none name hint).map fun f =>
        ⟨f.ty, f.definition, f.description, .function⟩

end Scopes

end ScriptCheck
