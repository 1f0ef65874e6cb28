import ScriptCheck.Proofs.ItemFaults

/-!
# What the check of a function body works with

Before a body is checked, the result and the parameters of the function are (`Check.opening`). The
types that are found there are those that the annotations stand for, the scope of the body expects
the result, and a parameter is a variable of it, the first one if there are several of its name
(`InBody.functionParams`). All of this is as in the signature of the function
(`upholds_signature`).
-/

namespace ScriptCheck

open Check

namespace Check

/-! ## Types of parameters -/

/-- The state in which parameters are checked: the scope of the body expects the result and holds
the given variables. -/
structure InBody (v : View) (body : Nat) (result : Ty) (locals : Table String Local) (c : Checker) :
    Prop where
  view : c.view = v
  scope : c.scopes.scopes[body]? = some { parent := none, kind := .function result, locals }

namespace InBody

variable {v : View} {body : Nat} {result : Ty} {locals : Table String Local} {c c' : Checker}

theorem noted {added : List Diagnostic} (h : InBody v body result locals c)
    (hnoted : c.Noted added c') : InBody v body result locals c' :=
  ⟨hnoted.view.trans h.view, hnoted.scopes ▸ h.scope⟩

/-- What happens in later scopes does not matter. -/
theorem confined (h : InBody v body result locals c) (hconfined : Confined (body + 1) c c') :
    InBody v body result locals c' := by
  refine ⟨hconfined.view.trans h.view, ?_⟩
  have htruncated := congrArg (·.scopes[body]?) hconfined.scopes
  simp only [Scopes.scopes_truncate, if_pos (Nat.lt_succ_self body)] at htruncated
  rw [htruncated, h.scope]

theorem declare (h : InBody v body result locals c) (name : String) (value : Local) :
    InBody v body result (locals.insert name value)
      { c with scopes := c.scopes.declare body name value } := by
  refine ⟨h.view, ?_⟩
  rw [Scopes.scopes_declare, h.scope]
  simp

theorem local?_eq (h : InBody v body result locals c) (name : String) :
    c.scopes.local? body name = locals.get? name := by
  rw [Scopes.local?, Scopes.enclosing_eq h.scope]
  simp

theorem returnType?_eq (h : InBody v body result locals c) :
    c.scopes.returnType? body = some result := by
  rw [Scopes.returnType?, Scopes.enclosing_eq h.scope]
  simp

variable (h : InBody v body result locals c)

include h

theorem paramType (param : ParamDecl) (isReceiver : Bool) :
    InBody v body result locals ((paramType param isReceiver).run c).2 ∧
      ∀ spec, param.type = some spec →
        ((Check.paramType param isReceiver).run c).1 = spec.resolve v := by
  unfold Check.paramType
  cases param.type with
  | some spec =>
    obtain ⟨htype, hnoted⟩ := spec.writes_check c h.view
    exact ⟨h.noted hnoted, fun _ hspec => Option.some.inj hspec ▸ htype⟩
  | none =>
    refine ⟨?_, nofun⟩
    cases isReceiver with
    | true => exact h
    | false => exact h.noted ((Writes.error _ _) c h.view).2

theorem checkDefault (param : ParamDecl) (ty : Ty) :
    InBody v body result locals ((checkDefault Expr.part param ty (body + 1)).run c).2 := by
  unfold Check.checkDefault
  cases param.default with
  | none => exact h
  | some value =>
    have hsize : body + 1 ≤ c.scopes.size := (List.getElem?_eq_some_iff.1 h.scope).1
    have hstart : Confined (body + 1) c c := ⟨rfl, rfl, fun _ => rfl, hsize, rfl⟩
    have hsame : Sim (confinement.rel (body + 1, c)) (require value.part ty (body + 1))
        (require value.part ty (body + 1)) :=
      confinement.require (confinement.keeps_part value) ty ⟨rfl, Nat.le_refl _⟩
    exact h.confined (hsame ⟨rfl, hstart⟩).2.2

theorem enterParam (name : Ident) (ty : Ty) :
    ∃ value : Local, value.ty = ty ∧ InBody v body result (locals.insert name.name value)
      ((enterParam body name ty).run c).2 := by
  have htoken : Writes v (token name.range .parameter [.declaration]) () [] := .token _ _ _
  have hhover : Writes v (hover name.range name.name ty "") () [] := .hoverText _ _
  have hnoted := h.noted ((htoken.bind (k := fun _ => _) hhover) c h.view).2
  exact ⟨_, rfl, hnoted.declare name.name _⟩

/-- A parameter is entered if its name is new, and nothing that was seen is changed. -/
theorem enterUnseen (seen : List String) (name : Ident) (ty : Ty) :
    ∃ locals', InBody v body result locals' ((enterUnseen body seen name ty).run c).2 ∧
      (∀ other ∈ seen, locals'.get? other = locals.get? other) ∧
      (name.name ∉ seen → (locals'.get? name.name).map Local.ty = some ty) := by
  unfold Check.enterUnseen
  split
  · rename_i hseen
    refine ⟨locals, h.noted ((Writes.error _ _) c h.view).2, fun _ _ => rfl, fun hnew => ?_⟩
    exact absurd (List.contains_iff_mem.1 hseen) hnew
  · rename_i hnew
    obtain ⟨value, rfl, hbody⟩ := h.enterParam name ty
    refine ⟨_, hbody, fun other hother => Table.get?_insert_of_ne _ ?_ _, fun _ => ?_⟩
    · rintro rfl
      exact hnew (List.contains_iff_mem.2 hother)
    · rw [Table.get?_insert_self]
      rfl

omit h in
/-- Annotated parameters have the types that they are annotated with, and of several parameters of
one name the first is the variable of the body. -/
theorem functionParams (role : Role) : (first : Bool) → (seen : List String) →
    (params : List ParamDecl) → {locals : Table String Local} → {c : Checker} →
    InBody v body result locals c →
    (∀ (i : Nat) (p : ParamDecl) (spec : TypeSpec), params[i]? = some p → p.type = some spec →
      ((functionParams Expr.part role body (body + 1) first seen params).run c).1[i]? =
        some (spec.resolve v)) ∧
    ∃ locals',
      InBody v body result locals'
        ((Check.functionParams Expr.part role body (body + 1) first seen params).run c).2 ∧
      (∀ name ∈ seen, locals'.get? name = locals.get? name) ∧
      ∀ (i : Nat) (p : ParamDecl), params[i]? = some p → p.name.name ∉ seen →
        (∀ q ∈ params.take i, q.name.name ≠ p.name.name) →
        (locals'.get? p.name.name).map Local.ty =
          ((Check.functionParams Expr.part role body (body + 1) first seen params).run c).1[i]?
  | _, _, [], locals, _, h => ⟨by simp, locals, h, fun _ _ => rfl, by simp⟩
  | first, seen, param :: rest, locals, c, h => by
    obtain ⟨htyped, hannotated⟩ :=
      h.paramType param (role == .method && first && param.name.name == "self")
    generalize htype :
      (Check.paramType param (role == .method && first && param.name.name == "self")).run c = typed
      at htyped hannotated
    obtain ⟨locals₁, hentered, hseen₁, hnew⟩ :=
      (htyped.checkDefault param typed.1).enterUnseen seen param.name typed.1
    -- the name is seen from here on, so that the rest leaves its variable alone
    obtain ⟨hrest, locals₂, hend, hseen₂, hlocals⟩ :=
      functionParams role false (param.name.name :: seen) rest hentered
    generalize htypes : (Check.functionParams Expr.part role body (body + 1) false
      (param.name.name :: seen) rest).run _ = types at hrest hend hlocals
    have hrun : (Check.functionParams Expr.part role body (body + 1) first seen
        (param :: rest)).run c = (typed.1 :: types.1, types.2) := by
      subst htypes htype
      rfl
    rw [hrun]
    refine ⟨fun i p spec hp hspec => ?_, locals₂, hend, fun name hname => ?_,
      fun i p hp hunseen hfirst => ?_⟩
    · cases i with
      | zero =>
        obtain rfl : param = p := by simpa using hp
        simp [hannotated spec hspec]
      | succ i => simpa using hrest i p spec (by simpa using hp) hspec
    · rw [hseen₂ name (List.mem_cons_of_mem _ hname), hseen₁ name hname]
    · cases i with
      | zero =>
        obtain rfl : param = p := by simpa using hp
        rw [hseen₂ _ List.mem_cons_self, hnew hunseen]
        rfl
      | succ i =>
        have hother : param.name.name ≠ p.name.name := hfirst param (by simp)
        have hlater : ∀ q ∈ rest.take i, q.name.name ≠ p.name.name :=
          fun q hq => hfirst q (by simp [hq])
        simpa using hlocals i p (by simpa using hp) (by simp [hunseen, hother.symm]) hlater

end InBody

/-- The scopes for the body and for the default values are opened. -/
theorem inBody_push {v : View} {c : Checker} (h : c.view = v) (result : Ty) :
    InBody v c.scopes.size result {}
      { c with scopes := (c.scopes.push none (.function result)).push none .block } := by
  refine ⟨h, ?_⟩
  rw [Scopes.scopes_push, Scopes.size_push, if_pos (Nat.lt_succ_self _), Scopes.scopes_push,
    if_neg (Nat.lt_irrefl _), if_pos rfl]
  rfl

theorem writes_showRegistered {v : View} (role : Role) (decl : FunctionDecl) :
    Writes v (showRegistered role decl) () [] := by
  refine .get fun c hc => ?_
  cases registered? c.view decl.name role with
  | none => exact .pure ()
  | some ty => exact .hoverText _ _

/-- What the check of a body works with from the given state on, and the state that it begins in. -/
abbrev opened (role : Role) (decl : FunctionDecl) (c : Checker) : Opening × Checker :=
  (opening Expr.part role decl).run c

/-- The opening finds the result, opens two scopes and then checks the parameters. -/
theorem exists_opened (role : Role) (decl : FunctionDecl) (c : Checker) :
    ∃ c₁ : Checker, c₁.view = c.view ∧
      opened role decl c =
        let params := (functionParams Expr.part role c₁.scopes.size (c₁.scopes.size + 1) true []
          decl.params).run
          { c₁ with scopes :=
              (c₁.scopes.push none (.function (decl.result.resolve c.view))).push none .block }
        (⟨c₁.scopes.size, decl.result.resolve c.view, params.1⟩, params.2) := by
  let start : CheckM Ty := do
    let result ← decl.result.check
    token decl.name.range role.token [.declaration]
    showRegistered role decl
    return result
  have hstart : Writes c.view start (decl.result.resolve c.view) _ :=
    decl.result.writes_check.bind ((Writes.token _ _ _).bind
      ((writes_showRegistered role decl).bind (.pure _)))
  obtain ⟨hresult, hnoted⟩ := hstart c rfl
  refine ⟨(start.run c).2, hnoted.view, ?_⟩
  rw [← hresult, ← Scopes.size_push _ none (.function (start.run c).1)]
  rfl

/-! ## Signatures -/

/-- How many parameters are left out of the signature of a function. -/
def Role.skipped (role : Role) : Nat := if role = .method then 1 else 0

/-- From the given state on, the body of a function is checked under a signature: the result is
that of the signature, annotated parameters have the types of the signature, and the variables of
the body that stand for them too. -/
structure Upholds (role : Role) (decl : FunctionDecl) (c : Checker) (sig : Signature Ty) :
    Prop where
  run : (function Expr.part role decl).run c =
    (checkBody Expr.part decl (opened role decl c).1).run (opened role decl c).2
  result : (opened role decl c).1.result = sig.result
  returnType? :
    (opened role decl c).2.scopes.returnType? (opened role decl c).1.body = some sig.result
  param : ∀ (i : Nat) (p : ParamDecl), decl.params[role.skipped + i]? = some p → p.type.isSome →
    ∃ q, sig.params[i]? = some q ∧ q.name = p.name.name ∧
      (opened role decl c).1.params[role.skipped + i]? = some q.ty ∧
      ((∀ other ∈ decl.params.take (role.skipped + i), other.name.name ≠ p.name.name) →
        ((opened role decl c).2.scopes.local? (opened role decl c).1.body
          p.name.name).map Local.ty = some q.ty)

/-- The body of a function is checked under its signature, if annotations stand for the same types
in both. -/
theorem upholds_signature (role : Role) (decl : FunctionDecl) {c : Checker} {v : View}
    (hresolve : ∀ spec : TypeSpec, spec.resolve v = spec.resolve c.view) :
    Upholds role decl c (Declare.signature v decl (role = .method)) := by
  obtain ⟨c₁, hview, hopened⟩ := exists_opened role decl c
  obtain ⟨htypes, locals, hbody, -, hlocals⟩ :=
    (inBody_push hview (decl.result.resolve c.view)).functionParams role true [] decl.params
  refine ⟨rfl, ?_, ?_, fun i p hp htype => ?_⟩
  · rw [hopened]
    exact (hresolve _).symm
  · rw [hopened]
    exact hbody.returnType?_eq.trans (congrArg some (hresolve _).symm)
  · obtain ⟨spec, hspec⟩ := Option.isSome_iff_exists.1 htype
    have hty := htypes _ p spec hp hspec
    refine ⟨⟨p.name.name, spec.resolve v, p.default.isSome⟩, ?_, rfl, ?_, fun hfirst => ?_⟩
    · simp only [Declare.signature, decide_eq_true_eq, List.getElem?_map, List.getElem?_drop]
      rw [← Role.skipped, hp, Option.map_some, hspec]
      rfl
    · rw [hopened, hresolve]
      exact hty
    · rw [hopened, hresolve, ← hty, ← hlocals _ p hp List.not_mem_nil hfirst]
      exact congrArg _ (hbody.local?_eq _)

end Check

end ScriptCheck
