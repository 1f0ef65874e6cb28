import ScriptCheck.Proofs.SettledSymbols

/-!
# Checks that fail or find settled types

A check has failed if the first thing it complains about is an error; it stays failed, whatever
comes after. Before that, it is in a settled state: it has complained about nothing and all its
variables have settled types. `Check.Steady` says of a computation that it keeps failed checks
failed and that from a settled state it ends in a failed or in a settled one, in the latter case
with a result of some property. A condition goes before it: where the condition is false, only
failed checks come to the computation.

Every rule is steady if its parts are. What the parts have to find depends on the rule: some need
values of settled type, for others any saturated type will do, and the hint is saturated always.
-/

namespace ScriptCheck

/-! ## States -/

/-- The check sees what the view shows, and its first complaint is an error. -/
def Checker.Failed (v : View) (c : Checker) : Prop :=
  c.view = v ∧ ∃ d rest, c.report.diagnostics = d :: rest ∧ d.isError = true

theorem Checker.Failed.noted {v : View} {c c' : Checker} (h : c.Failed v) {more : List Diagnostic}
    (hmore : Noted more c c') : c'.Failed v := by
  obtain ⟨hview, d, rest, hd, herror⟩ := h
  exact ⟨hmore.view.trans hview, d, _, by rw [hmore.diagnostics, hd, List.cons_append], herror⟩

/-- The check sees what the view shows, has not complained yet, and all its variables have settled
types. -/
structure Checker.Settled (v : View) (c : Checker) : Prop where
  view : c.view = v
  muted : c.muted = 0
  diagnostics : c.report.diagnostics = []
  locals : c.scopes.All fun _ value => value.ty.Settled v.symbols.registry
  results : ∀ scope ∈ c.scopes.scopes, ∀ t, scope.kind = .function t →
    t.Saturated v.symbols.registry

namespace Check

variable {α β : Type} {v : View} {p q : Prop} {Q R : α → Prop} {S : β → Prop}

/-- The computation keeps failed checks failed. Under the condition `p`, from a settled state it
fails or ends in a settled state with a result of the property `Q`. -/
structure Steady (v : View) (p : Prop) (Q : α → Prop) (m : CheckM α) : Prop where
  failed : ∀ c : Checker, c.Failed v → (m.run c).2.Failed v
  settled : p → ∀ c : Checker, c.Settled v →
    (m.run c).2.Failed v ∨ ((m.run c).2.Settled v ∧ Q (m.run c).1)

/-- Any result will do. -/
abbrev Whatever : α → Prop := fun _ => True

namespace Steady

theorem pure {a : α} (h : p → Q a) : Steady v p Q (pure a) :=
  ⟨fun _ hc => hc, fun hp _ hc => .inr ⟨hc, h hp⟩⟩

/-- A computation whose result is as stated in every state, even in a failed one. -/
theorem bindOn {P : α → Prop} {m : CheckM α} {k : α → CheckM β} (hreturns : Returns P m)
    (hm : Steady v p Q m) (hk : ∀ a, P a → Steady v (p ∧ Q a) S (k a)) :
    Steady v p S (m >>= k) where
  failed c hc := (hk _ (hreturns c)).failed _ (hm.failed c hc)
  settled hp c hc := by
    obtain hfailed | ⟨hsettled, hQ⟩ := hm.settled hp c hc
    · exact .inl ((hk _ (hreturns c)).failed _ hfailed)
    · exact (hk _ (hreturns c)).settled ⟨hp, hQ⟩ _ hsettled

/-- What comes next may rely on what has been found. -/
theorem bind {m : CheckM α} {k : α → CheckM β} (hm : Steady v p Q m)
    (hk : ∀ a, Steady v (p ∧ Q a) S (k a)) : Steady v p S (m >>= k) :=
  bindOn (.any m) hm fun a _ => hk a

theorem imp {m : CheckM α} (hm : Steady v q Q m) (hq : p → q) (hQ : ∀ a, p → Q a → R a) :
    Steady v p R m where
  failed := hm.failed
  settled hp c hc := (hm.settled (hq hp) c hc).imp_right fun h => ⟨h.1, hQ _ hp h.2⟩

/-- A computation whose result does not matter. -/
theorem andThen {m : CheckM α} {k : CheckM β} (hm : Steady v p Whatever m) (hk : Steady v p S k) :
    Steady v p S (m >>= fun _ => k) :=
  hm.bind fun _ => hk.imp And.left fun _ _ h => h

theorem map {m : CheckM α} {f : α → β} (hm : Steady v p (fun a => S (f a)) m) :
    Steady v p S (f <$> m) :=
  ⟨hm.failed, hm.settled⟩

theorem get {k : Checker → CheckM α} (hk : ∀ c, Steady v (p ∧ c.Settled v) Q (k c)) :
    Steady v p Q (get >>= k) :=
  ⟨fun c hc => (hk c).failed c hc, fun hp c hc => (hk c).settled ⟨hp, hc⟩ c hc⟩

/-- The symbols are those of the view, in a failed check as well. -/
theorem symbols {k : Symbols → CheckM α} (hk : Steady v p Q (k v.symbols)) :
    Steady v p Q (symbols >>= k) where
  failed c hc := by
    rw [run_symbols_bind, hc.1]
    exact hk.failed c hc
  settled hp c hc := by
    rw [run_symbols_bind, hc.view]
    exact hk.settled hp c hc

/-! ## Writing to the report -/

/-- A computation that does no more than to complain about errors. -/
theorem of_writes {m : CheckM α} {a : α} {added : List Diagnostic} (h : Writes v m a added)
    (herror : ∀ d ∈ added, d.isError = true) : Steady v p (fun b => b = a ∧ added = []) m where
  failed c hc := hc.noted (h c hc.1).2
  settled _ c hc := by
    obtain ⟨hresult, hnoted⟩ := h c hc.view
    have hview := hnoted.view.trans hc.view
    have hdiagnostics := hnoted.diagnostics
    rw [hc.diagnostics, hc.muted, if_pos rfl, List.nil_append] at hdiagnostics
    cases added with
    | nil =>
      refine .inr ⟨⟨hview, hnoted.muted.trans hc.muted, hdiagnostics, ?_, ?_⟩, hresult, rfl⟩
      · rw [hnoted.scopes]
        exact hc.locals
      · rw [hnoted.scopes]
        exact hc.results
    | cons d rest => exact .inl ⟨hview, d, rest, hdiagnostics, herror d List.mem_cons_self⟩

/-- A computation that does no more than to write, without complaints. -/
theorem silent {m : CheckM Unit} (h : Writes v m () []) : Steady v p Whatever m :=
  (of_writes (p := p) h (by simp)).imp id fun _ _ _ => trivial

/-- With an error the check has failed. -/
theorem error {Q : Unit → Prop} (problem : Problem) (range : Range) :
    Steady v p Q (error problem range) :=
  (of_writes (p := p) (.error problem range) (by simp [Diagnostic.isError])).imp id
    fun _ _ h => nomatch h.2

/-- What comes after an error comes too late. -/
theorem errorThen (problem : Problem) (range : Range) {k : CheckM β} (hk : Steady v False S k) :
    Steady v p S (do Check.error problem range; k) :=
  (error (Q := fun _ => False) problem range).bind fun _ => hk.imp And.right fun _ _ h => h

/-- A rule that gives up with an error may return anything. -/
theorem fails (problem : Problem) (range : Range) {a : β} :
    Steady v p S (do Check.error problem range; return a) :=
  errorThen problem range (pure False.elim)

/-- Only a failed check warns. -/
theorem warn (hp : ¬p) (problem : Problem) (range : Range) :
    Steady v p Whatever (warn problem range) where
  failed c hc :=
    have h : Writes v (Check.warn problem range) () [⟨.warn, problem, range⟩] := .note fun _ => rfl
    hc.noted (h c hc.1).2
  settled h := absurd h hp

theorem token (range : Range) (kind : TokenKind) (modifiers : List TokenModifier) :
    Steady v p Whatever (token range kind modifiers) :=
  silent (.token range kind modifiers)

theorem link (range : Range) (definition : Option Definition) :
    Steady v p Whatever (link range definition) :=
  silent (.link range definition)

theorem hoverText (range : Range) (text : String) : Steady v p Whatever (hoverText range text) :=
  silent (.hoverText range text)

theorem hover (range : Range) (name : String) (ty : Ty) (description : String) :
    Steady v p Whatever (hover range name ty description) :=
  hoverText range _

theorem inlay (range : Range) (ty : Ty) : Steady v p Whatever (inlay range ty) :=
  silent (.note fun _ => (List.append_nil _).symm)

/-- The type is noted for the range. -/
theorem typed (range : Range) {rule : CheckM Ty} {Q : Ty → Prop} (h : Steady v p Q rule) :
    Steady v p Q (typed range rule) :=
  have hset (ty : Ty) : Steady v (p ∧ Q ty) Whatever (setType range ty) :=
    silent (.note fun _ => (List.append_nil _).symm)
  h.bind fun ty => (hset ty).andThen (pure And.right)

/-! ## Scopes -/

/-- The scopes may change as long as variables have settled types and functions saturated
results. -/
theorem scopes (change : Scopes → Scopes)
    (hlocals : p → ∀ s, s.All (fun _ value => value.ty.Settled v.registry) →
      (change s).All fun _ value => value.ty.Settled v.registry)
    (hresults : p → ∀ s : Scopes, ∀ scope ∈ (change s).scopes, ∀ t, scope.kind = .function t →
      t.Saturated v.registry ∨ ∃ old ∈ s.scopes, old.kind = .function t) :
    Steady v p Whatever (modify fun c => { c with scopes := change c.scopes }) where
  failed _ hc := hc
  settled hp c hc := by
    refine .inr ⟨⟨hc.view, hc.muted, hc.diagnostics, hlocals hp _ hc.locals,
      fun scope hscope t ht => ?_⟩, trivial⟩
    obtain hsaturated | ⟨old, hold, hkind⟩ := hresults hp c.scopes scope hscope t ht
    · exact hsaturated
    · exact hc.results old hold t hkind

/-- A scope of a function has a saturated result. -/
theorem openScope (parent : Option Nat) {kind : ScopeKind}
    (hkind : p → ∀ t, kind = .function t → t.Saturated v.registry) :
    Steady v p Whatever (openScope parent kind) := by
  refine get fun c => (scopes (·.push parent kind) (fun _ s h => h.push parent kind)
    fun hp s scope hscope t ht => ?_).andThen (pure fun _ => trivial)
  rcases List.mem_append.1 hscope with hscope | hscope
  · exact .inr ⟨scope, hscope, ht⟩
  · obtain rfl := List.mem_singleton.1 hscope
    exact .inl (hkind hp.1 t ht)

theorem openBlock (parent : Option Nat) : Steady v p Whatever (Check.openScope parent .block) :=
  openScope parent fun _ _ => nofun

theorem openLoop (parent : Option Nat) : Steady v p Whatever (Check.openScope parent .loop) :=
  openScope parent fun _ _ => nofun

theorem closeScopes : Steady v p Whatever closeScopes :=
  scopes (·.truncate 0) (fun _ _ h => h.truncate 0) fun _ _ _ hscope _ ht =>
    .inr ⟨_, List.mem_of_mem_take hscope, ht⟩

/-- A variable of settled type enters its scope. -/
theorem enter (id : Nat) (name : String) {value : Local}
    (hvalue : p → value.ty.Settled v.registry) :
    Steady v p Whatever (enter id name value) := by
  refine scopes (·.declare id name value) (fun hp _ h => h.declare id (hvalue hp))
    fun _ s scope hscope t ht => ?_
  obtain ⟨i, hi⟩ := List.mem_iff_getElem?.1 hscope
  rw [Scopes.scopes_declare] at hi
  obtain ⟨old, hold, rfl⟩ := Option.map_eq_some_iff.1 hi
  refine .inr ⟨old, List.mem_of_getElem? hold, ?_⟩
  rw [← ht]
  split <;> rfl

theorem enterParam (id : Nat) (name : Ident) {ty : Ty}
    (hty : p → ty.Settled v.registry) : Steady v p Whatever (enterParam id name ty) :=
  (token _ _ _).andThen <| (hover _ _ _ _).andThen <| symbols (enter id name.name hty)

theorem declareVar (id : Nat) (name : Ident) {ty : Ty} (hty : p → ty.Settled v.registry)
    (isConst : Bool) : Steady v p Whatever (declareVar id name ty isConst) := by
  refine (token _ _ _).andThen <| (hover _ _ _ _).andThen <| get fun c =>
    (enter id name.name fun hp => hty hp.1).andThen ?_
  split
  · exact error _ _
  · exact pure fun _ => trivial

/-! ## Types -/

/-- A type that is not accepted is an error. -/
theorem expect (expected found : Ty) (range : Range) :
    Steady v p (fun _ => v.symbols.accepts expected found = true)
      (expect expected found range) := by
  have herror : Steady v p (fun _ => v.symbols.accepts expected found = true)
      (Check.error (.mismatch expected found) range) := error _ _
  refine ⟨fun c hc => ?_, fun hp c hc => ?_⟩
  · rw [run_expect]
    split
    · exact hc
    · exact herror.failed c hc
  · rw [run_expect, hc.view]
    split
    · rename_i haccepts
      exact .inr ⟨hc, haccepts⟩
    · exact herror.settled hp c hc

/-- A comparison changes nothing. -/
theorem ask {expected found : Ty} {k : Bool → CheckM α} (hk : ∀ answer, Steady v p Q (k answer)) :
    Steady v p Q (Comparing.ask expected found >>= k) where
  failed c hc := by
    rw [run_ask_bind]
    exact (hk _).failed c hc
  settled hp c hc := by
    rw [run_ask_bind]
    exact (hk _).settled hp c hc

/-- A saturated annotation is settled, or it is complained about. -/
theorem checkSpec {knows : String → Prop} (hv : v.Settled knows) {spec : TypeSpec}
    (hspec : p → spec.saturated v = true) :
    Steady v p (fun t => t.Settled v.registry) spec.check :=
  (of_writes (p := p) spec.writes_check fun _ => spec.isError_of_mem_faults).imp id
    fun _ hp ht => ht.1 ▸ hv.resolve (hspec hp) ht.2

theorem checkSpecs {knows : String → Prop} (hv : v.Settled knows) {specs : List TypeSpec}
    (hspecs : p → TypeSpec.saturatedList v specs = true) :
    Steady v p (fun ts => ∀ t ∈ ts, t.Settled v.registry) (TypeSpec.checkList specs) := by
  induction specs with
  | nil => exact pure fun _ => nofun
  | cons spec rest ih =>
    simp only [TypeSpec.saturatedList, Bool.and_eq_true] at hspecs
    refine (checkSpec hv fun hp => (hspecs hp).1).bind fun t => ?_
    refine ((ih fun hp => (hspecs hp).2).imp And.left fun _ _ h => h).bind fun ts => ?_
    exact pure fun hp => List.forall_mem_cons.2 ⟨hp.1.2, hp.2⟩

end Steady

end Check

/-! ## Names, fields and elements -/

/-- Under a saturated hint, the part is steady and finds types with the property. -/
def Part.Steady (v : View) (Q : Ty → Prop) (part : Part) : Prop :=
  ∀ (p : Prop) (id : Nat) (hint : Option Ty),
    (p → ∀ t ∈ hint, t.Saturated v.symbols.registry) → Check.Steady v p Q (part.check id hint)

namespace Check.Steady

variable {v : View} {knows : String → Prop} {p : Prop} {id : Nat} {Q : Ty → Prop}

/-- A part that is checked without a hint. -/
theorem unhinted {part : Part} (h : part.Steady v Q) : Steady v p Q (part.check id none) :=
  h p id none fun _ => nofun

/-- A part whose type does not matter. -/
theorem ignored {part : Part} (h : part.Steady v Q) :
    Steady v p Whatever (part.check id none) :=
  (unhinted h).imp (fun h => h) fun _ _ _ => trivial

/-- A saturated type may be required of any part. -/
theorem require {part : Part} (h : part.Steady v Q) {expected : Ty}
    (hexpected : p → expected.Saturated v.registry) :
    Steady v p Whatever (require part expected id) :=
  (h p id (some expected) fun hp _ ht => Option.some.inj ht ▸ hexpected hp).bind fun _ =>
    (expect _ _ _).imp And.left fun _ _ _ => trivial

/-- Only a failed check infers. -/
theorem infer {part : Part} (h : part.Steady v Q) (hp : ¬p) (hint : Option Ty) :
    Steady v p Whatever (infer part id hint) where
  failed c hc := by
    rw [run_infer]
    exact (h False c.scopes.size hint False.elim).failed (c.silenced id) hc
  settled h := absurd h hp

/-- A module that is not known is an error. -/
theorem moduleName (name : Ident) : Steady v p (fun known => known = true) (moduleName name) := by
  refine symbols ?_
  split
  · exact fails _ _
  · exact (token _ _ _).andThen (pure fun _ => rfl)

theorem markToken (range : Range) (found : Resolved) :
    Steady v p Whatever (markToken range found) := by
  unfold Check.markToken
  split <;> exact token _ _ _

theorem mark (name : Ident) (found : Resolved) : Steady v p Whatever (mark name found) :=
  (markToken _ _).andThen <| (link _ _).andThen (hover _ _ _ _)

theorem markConstant (name : Ident) (found : Value) :
    Steady v p Whatever (markConstant name found) :=
  (token _ _ _).andThen (hover _ _ _ _)

theorem markFunction (name : Ident) (found : Value) :
    Steady v p Whatever (markFunction name found) :=
  (token _ _ _).andThen (hover _ _ _ _)

theorem markField (name : Ident) (modifiers : List TokenModifier) (found : FieldType) :
    Steady v p Whatever (markField name modifiers found) :=
  (token _ _ _).andThen <| (link _ _).andThen (hover _ _ _ _)

/-- Nothing of a settled type is unknown. -/
theorem known {ty : Ty} (hty : p → ty.Settled v.registry) {unknown known : CheckM Ty}
    (hunknown : Steady v False Q unknown) (hknown : Steady v p Q known) :
    Steady v p Q (if ty.isUnknown then unknown else known) := by
  split
  · rename_i hisUnknown
    exact hunknown.imp (fun hp => by simp [(hty hp).isUnknown_eq_false] at hisUnknown)
      fun _ _ h => h
  · exact hknown

/-- What is taken out of a value of settled type is of settled type, whatever the way. -/
theorem elementOf {find : Symbols → Ty → Option Ty} {owner : Ty}
    (howner : p → owner.Settled v.registry)
    (hfind : ∀ t ∈ find v.symbols owner, p → t.Settled v.registry)
    (what : Ty → Unsupported) (range : Range) :
    Steady v p (Ty.Settled v.registry) (elementOf find what range owner) := by
  refine known howner (pure False.elim) (symbols ?_)
  split
  · rename_i element helement
    exact pure (hfind element helement)
  · exact fails _ _

/-- An overload is searched for under the symbols of the view. -/
theorem search {α : Type} {S : α → Prop} {overloads : Symbols → List Overload} {other : Ty}
    {k : Option Overload → CheckM α}
    (hk : Steady v p S (k (v.symbols.pick? (overloads v.symbols) other))) :
    Steady v p S (search overloads other >>= k) := by
  rw [search_eq, bind_assoc]
  refine symbols ?_
  rw [pure_bind]
  exact hk

section Settled

variable (hv : v.Settled knows)

include hv

/-- A plain name stands for something of a settled type, or for a function as it is without a
hint. -/
theorem lookup {name : String} (hname : knows name) {hint : Option Ty}
    (hhint : p → ∀ t ∈ (hint.bind Ty.signature?).map Signature.result,
      t.Settled v.registry) :
    Steady v p (fun found => ∀ f ∈ found, f.ty.Settled v.registry ∨
      ∃ value, v.symbols.function? none name none = some value ∧ value.ty = f.ty)
      (lookup name id hint) := by
  refine get fun c => pure fun hp f hf => ?_
  obtain ⟨hp, hc⟩ := hp
  rw [hc.view] at hf
  exact hv.symbols.resolve? hc.locals hname (hhint hp) hf

/-- A member of a module is a constant of settled type or a function. -/
theorem memberVar (module name : Ident)
    (hQ : ∀ t, t.Settled v.registry → Q t)
    (hfunction : ∀ value, v.symbols.function? (some module.name) name.name none = some value →
      Q value.ty) : Steady v p Q (memberVar module name) := by
  refine (moduleName _).bind fun known => ?_
  split
  · refine symbols ?_
    split
    · rename_i found hfound
      exact (markConstant _ _).andThen (pure fun _ => hQ _ (hv.symbols.memberConstant? hfound))
    · split
      · rename_i found hfound
        exact (markFunction _ _).andThen (pure fun _ => hfunction found hfound)
      · exact fails _ _
  · rename_i hknown
    exact pure fun hp => absurd hp.2 hknown

/-- A name has the property if values of settled type have it, and the function has it that the name
may stand for. -/
theorem var {module : Option Ident} {name : Ident}
    (hname : module = none → knows name.name) (hQ : ∀ t, t.Settled v.registry → Q t)
    (hfunction : ∀ value, v.symbols.function? (module.map Ident.name) name.name none = some value →
      Q value.ty) : Steady v p Q (var module name id) := by
  cases module with
  | some module => exact memberVar hv module name hQ hfunction
  | none =>
    refine (lookup hv (hname rfl) (by simp)).bind fun found => ?_
    cases found with
    | none => exact fails _ _
    | some found =>
      refine (mark _ _).andThen (pure fun hp => ?_)
      obtain hsettled | ⟨value, hvalue, hty⟩ := hp.2 found rfl
      · exact hQ _ hsettled
      · exact hty ▸ hfunction value hvalue

/-- What a value of settled type holds is of settled type as well. -/
theorem field {target : Part}
    (ht : target.Steady v (Ty.Settled v.registry)) (name : Ident) :
    Steady v p (Ty.Settled v.registry) (field target name id) := by
  refine (unhinted ht).bind fun owner => known And.right (pure False.elim) (symbols ?_)
  split
  · rename_i found hfound
    exact (markField _ _ _).andThen (pure fun hp => hv.symbols.field? hp.2 hfound)
  · exact fails _ _

/-- An element of a value of settled type, at a position of whatever type. -/
theorem index {target position : Part}
    (ht : target.Steady v (Ty.Settled v.registry)) (hp : position.Steady v Q) :
    Steady v p (Ty.Settled v.registry) (index target position id) :=
  (unhinted ht).bind fun _ => (require hp fun _ => Ty.settled_int.loosen).andThen <|
    elementOf And.right (fun _ helement howner => hv.symbols.indexed? howner.2 helement) _ _

/-! ## Operators -/

/-- An operator gives a settled type to an operand of settled type. -/
theorem unary (range : Range) (op : Operator) {operand : Part}
    (h : operand.Steady v (Ty.Settled v.registry)) :
    Steady v p (Ty.Settled v.registry) (unary range op operand id) := by
  refine (unhinted h).bind fun ty => known And.right (pure False.elim) (search ?_)
  split
  · rename_i found hfound
    exact pure fun hp => hv.symbols.prefixOperator? hp.2 hfound
  · exact fails _ _

/-- An operator gives a settled type to operands of settled types, whichever of them has it. -/
theorem apply (range : Range) {left right : Ty} (op : Operator)
    (hl : p → left.Settled v.registry) (hr : p → right.Settled v.registry) :
    Steady v p (Ty.Settled v.registry) (apply range left op right) := by
  unfold Check.apply
  split
  · rename_i hunknown
    exact pure fun hp => absurd hunknown
      (by simp [(hl hp).isUnknown_eq_false, (hr hp).isUnknown_eq_false])
  · refine search ?_
    split
    · rename_i found hfound
      exact pure fun hp => hv.symbols.suffixOperator? (hl hp) hfound
    · refine search ?_
      split
      · rename_i found hfound
        exact pure fun hp => hv.symbols.prefixOperator? (hr hp) hfound
      · exact fails _ _

/-- The operands need settled types, unless only truth values are asked for. -/
theorem binary (range : Range) {left right : Part} (op : Operator)
    (hl : left.Steady v
      (Ty.Sound v.registry (if op.isLogical then .anything else .only [])))
    (hr : right.Steady v
      (Ty.Sound v.registry (if op.isLogical then .anything else .only []))) :
    Steady v p (Ty.Settled v.registry) (binary range left op right id) := by
  unfold Check.binary
  split_ifs at hl hr ⊢
  · exact (require hl fun _ => Ty.settled_bool.loosen).andThen <|
      (require hr fun _ => Ty.settled_bool.loosen).andThen (pure fun _ => Ty.settled_bool)
  · exact (unhinted hl).bind fun l => (unhinted hr).bind fun r =>
      apply hv range op (fun hp => hp.1.2) fun hp => hp.2

end Settled

/-! ## Calls -/

/-- Arguments that no parameter tells anything about are checked after an error only. -/
theorem unguided : {args : List Part} → (∀ arg ∈ args, arg.Steady v Q) → (p → args = []) →
    Steady v p Whatever (unguided id args)
  | [], _, _ => pure fun _ => trivial
  | arg :: rest, h, hp => by
    obtain ⟨harg, hrest⟩ := List.forall_mem_cons.1 h
    have hfalse : ¬p := fun h => nomatch hp h
    have hrest : Steady v p Whatever (Check.unguided id rest) :=
      unguided hrest fun h => absurd h hfalse
    rw [Check.unguided]
    split
    · exact (infer harg hfalse none).andThen hrest
    · exact (ignored harg).andThen hrest

end Check.Steady

/-- A checked argument. If only settled types are found, and if its parameter accepts it under
whatever bindings, the argument has bound the pins of the parameter. -/
structure Check.Argument.Done (v : View) (slack : Slack) (bound : Bindings) (arg : Argument)
    (t : Ty) : Prop where
  found : arg.found = some t
  sound : t.Sound v.symbols.registry slack
  pins : slack = .only [] → ∀ filled,
    v.symbols.accepts (arg.param.ty.fill v.symbols.registry filled) t = true →
    ∀ name ∈ arg.param.ty.pins, bound.contains name = true

theorem Check.Argument.Done.mono {v : View} {slack : Slack} {bound more : Bindings}
    {arg : Argument} {t : Ty} (h : arg.Done v slack bound t) (hmore : more.Fewer bound) :
    arg.Done v slack more t :=
  ⟨h.found, h.sound, fun hslack filled haccepts name hname =>
    hmore.contains (h.pins hslack filled haccepts name hname)⟩

namespace Check.Steady

variable {v : View} {knows : String → Prop} {p : Prop} {id : Nat} {Q : Ty → Prop} {slack : Slack}

/-- The arguments that come out are those that went in, now with their types. -/
theorem returns_guided (r : Registry) (lambdas : Bool) : (bound : Bindings) →
    (args : List Argument) →
    Returns (fun found => found.2.map (fun arg => (arg.part, arg.param)) =
      args.map fun arg => (arg.part, arg.param)) (guided r lambdas id bound args)
  | _, [] => fun _ => rfl
  | bound, arg :: rest => by
    rw [guided]
    split
    · refine .bind (.any _) fun found _ => .bind (returns_guided r lambdas _ rest)
        fun found hfound => .pure ?_
      simpa using hfound
    · refine .bind (returns_guided r lambdas _ rest) fun found hfound => .pure ?_
      simpa using hfound

/-- Checks of arguments find sound types and bind generic parameters to such. Whoever has been
checked before, as `K` says, stays so. -/
theorem guided (slack : Slack) (lambdas : Bool) (K : Bindings → Argument → Prop)
    (hK : ∀ bound more arg, Bindings.Fewer more bound → K bound arg → K more arg) :
    {p : Prop} → (bound : Bindings) → (args : List Argument) →
    (∀ arg ∈ args, arg.part.Steady v (Ty.Sound v.registry slack)) →
    (p → bound.All fun _ t => t.Sound v.registry slack) →
    (p → ∀ arg ∈ args, arg.param.ty.Saturated v.registry) →
    (p → ∀ arg ∈ args, arg.part.isLambda = lambdas ∨ K bound arg) →
    Steady v p (fun found => found.1.Fewer bound ∧
      (found.1.All fun _ t => t.Sound v.registry slack) ∧
      ∀ arg ∈ found.2, K found.1 arg ∨ ∃ t, arg.Done v slack found.1 t)
      (guided v.registry lambdas id bound args)
  | _, bound, [], _, hbound, _, _ => pure fun hp => ⟨.refl bound, hbound hp, nofun⟩
  | p, bound, arg :: rest, hargs, hbound, hparams, hdone => by
    obtain ⟨harg, hargs⟩ := List.forall_mem_cons.1 hargs
    rw [Check.guided]
    split
    · have hhint (hp : p) : (arg.param.ty.fill v.registry bound).Saturated v.registry :=
        (hparams hp arg List.mem_cons_self).fill_saturated
          fun entry hentry => (hbound hp entry hentry).saturated
      refine (harg p id _ fun hp _ ht => Option.some.inj ht ▸ hhint hp).bind fun found => ?_
      have hfewer := Ty.fewer_guess bound arg.param.ty found
      refine (guided slack lambdas K hK _ rest hargs (fun hp => ?_) (fun hp a ha => ?_)
        fun hp a ha => ?_).bind fun rest => pure fun hp => ?_
      · exact hp.2.guess (hbound hp.1) _
      · exact hparams hp.1 a (List.mem_cons_of_mem _ ha)
      · exact (hdone hp.1 a (List.mem_cons_of_mem _ ha)).imp_right (hK _ _ _ hfewer)
      · obtain ⟨⟨hp, hfound⟩, hmore, hall, hrest⟩ := hp
        refine ⟨hmore.trans hfewer, hall, List.forall_mem_cons.2 ⟨.inr ⟨found, ?_⟩, hrest⟩⟩
        have hchecked : Argument.Done v slack (Ty.guess bound arg.param.ty found)
            { arg with found := some found } found := by
          refine ⟨rfl, hfound, fun hslack filled haccepts name hname => ?_⟩
          subst hslack
          exact Ty.contains_guess_of_mem_pins _ _ bound hfound
            (Symbols.accepts_eq_true_iff.1 haccepts) hname
        exact hchecked.mono hmore
    · rename_i hother
      refine (guided slack lambdas K hK bound rest hargs hbound (fun hp a ha => ?_)
        fun hp a ha => ?_).bind fun rest => pure fun hp => ?_
      · exact hparams hp a (List.mem_cons_of_mem _ ha)
      · exact hdone hp a (List.mem_cons_of_mem _ ha)
      · obtain ⟨hp, hmore, hall, hrest⟩ := hp
        refine ⟨hmore, hall, List.forall_mem_cons.2 ⟨.inl (hK _ _ _ hmore ?_), hrest⟩⟩
        exact (hdone hp arg List.mem_cons_self).resolve_left (by simpa using hother)

/-- Every argument is accepted, or else there is an error. -/
theorem compare (r : Registry) (bound : Bindings) : (args : List Argument) →
    Steady v p (fun _ => ∀ arg ∈ args, ∀ t ∈ arg.found,
      v.symbols.accepts (arg.param.ty.fill r bound) t = true) (compare r bound args)
  | [] => pure fun _ => nofun
  | arg :: rest => by
    have hrest : Steady v p _ (Check.compare r bound rest) := compare r bound rest
    rw [Check.compare]
    split
    · rename_i found hfound
      refine (expect _ _ _).bind fun _ => hrest.imp And.left fun _ hp h => ?_
      refine List.forall_mem_cons.2 ⟨fun t ht => ?_, h⟩
      obtain rfl := Option.some.inj (hfound.symm.trans ht)
      exact hp.2
    · rename_i hfound
      refine hrest.imp (fun h => h) fun _ _ h => List.forall_mem_cons.2 ⟨fun t ht => ?_, h⟩
      cases hfound.symm.trans ht

/-- A wrong number of arguments is an error. -/
theorem countArguments (name : Ident) (callee : Signature Ty) (found : Nat) :
    Steady v p (fun _ => callee.required ≤ found ∧ found ≤ callee.params.length)
      (countArguments name callee found) := by
  unfold Check.countArguments
  dsimp only
  split_ifs with hfew hmany
  · exact error _ _
  · exact error _ _
  · exact pure fun _ => ⟨not_lt.1 hfew, not_lt.1 hmany⟩

/-- Explicit type arguments bind all generic parameters. -/
theorem explicitBindings (hv : v.Settled knows) (name : Ident) (generics : List String)
    {typeArgs : List TypeSpec} (htypes : p → TypeSpec.saturatedList v typeArgs = true) :
    Steady v p (fun bound => (bound.All fun _ t => t.Settled v.registry) ∧
      (typeArgs ≠ [] → ∀ g ∈ generics, bound.contains g = true))
      (explicitBindings name generics typeArgs) := by
  unfold Check.explicitBindings
  split
  · rename_i hempty
    exact pure fun _ => ⟨.empty, fun h => absurd (List.isEmpty_iff.1 hempty) h⟩
  · refine (checkSpecs hv htypes).bind fun types => ?_
    split
    · rename_i hlength
      refine pure fun hp => ⟨.ofList fun entry hentry => hp.2 _ (List.of_mem_zip hentry).2,
        fun _ g hg => ?_⟩
      obtain ⟨t, -, ht⟩ := Table.exists_mem_get?_ofList_zip hlength.ge hg
      exact Option.isSome_of_eq_some ht
    · exact fails _ _

/-- What holds of the parts and parameters of all arguments. -/
theorem forall_of_map_eq {P : Part → Param Ty → Prop} {args found : List Argument}
    (h : found.map (fun arg => (arg.part, arg.param)) = args.map fun arg => (arg.part, arg.param))
    (hP : ∀ arg ∈ args, P arg.part arg.param) : ∀ arg ∈ found, P arg.part arg.param := by
  intro arg harg
  have hmem : (arg.part, arg.param) ∈ args.map fun arg => (arg.part, arg.param) :=
    h ▸ List.mem_map_of_mem (f := fun arg : Argument => (arg.part, arg.param)) harg
  obtain ⟨old, hold, heq⟩ := List.mem_map.1 hmem
  obtain ⟨hpart, hparam⟩ := Prod.mk.inj heq
  exact hpart ▸ hparam ▸ hP old hold

/-- Lambdas are checked after the other arguments. -/
theorem guidedTwice (slack : Slack) {β : Type} {S : β → Prop} {bound : Bindings}
    {args : List Argument}
    (hargs : ∀ arg ∈ args, arg.part.Steady v (Ty.Sound v.registry slack))
    (hbound : p → bound.All fun _ t => t.Sound v.registry slack)
    (hparams : p → ∀ arg ∈ args, arg.param.ty.Saturated v.registry)
    {k : Bindings × List Argument → CheckM β}
    (hk : ∀ found, found.2.map (fun arg => (arg.part, arg.param)) =
        args.map (fun arg => (arg.part, arg.param)) →
      Steady v (p ∧ found.1.Fewer bound ∧
        (found.1.All fun _ t => t.Sound v.registry slack) ∧
        ∀ arg ∈ found.2, ∃ t, arg.Done v slack found.1 t) S (k found)) :
    Steady v p S (do
      let first ← Check.guided v.registry false id bound args
      let second ← Check.guided v.registry true id first.1 first.2
      k second) := by
  refine .bindOn (returns_guided _ false bound args)
    (guided slack false (fun _ arg => arg.part.isLambda = true) (fun _ _ _ _ h => h) bound
      args hargs hbound hparams fun _ arg _ => by cases arg.part.isLambda <;> simp)
    fun first hfirst => ?_
  refine .bindOn (returns_guided _ true first.1 first.2)
    (guided slack true (fun bound arg => ∃ t, arg.Done v slack bound t)
      (fun _ _ _ hmore h => h.imp fun _ h => h.mono hmore) first.1 first.2
      (forall_of_map_eq (P := fun part _ => part.Steady v (Ty.Sound v.registry slack))
        hfirst hargs)
      (fun hp => hp.2.2.1)
      (fun hp => forall_of_map_eq (P := fun _ param => param.ty.Saturated v.registry) hfirst
        (hparams hp.1))
      fun hp arg harg => hp.2.2.2 arg harg)
    fun second hsecond => ?_
  refine (hk second (hsecond.trans hfirst)).imp (fun hp => ?_) fun _ _ h => h
  obtain ⟨⟨hp, hfewer, -⟩, hmore, hall, hdone⟩ := hp
  exact ⟨hp, hmore.trans hfewer, hall, fun arg harg => or_self_iff.1 (hdone arg harg)⟩

/-- Generic parameters are bound to a hint only if it is concrete. -/
theorem settled_of_mem_resultHint {r : Registry} {hint : Option Ty}
    (h : ∀ t ∈ hint, t.Saturated r) : ∀ t ∈ resultHint hint, t.Settled r := by
  intro t ht
  obtain ⟨ht, hconcrete⟩ := Option.filter_eq_some_iff.1 ht
  simp only [Bool.and_eq_true] at hconcrete
  exact (h t ht).settled_of_isConcrete hconcrete.1

/-- Arguments are paired with the first parameters. -/
theorem params_paired : (args : List Part) → (params : List (Param Ty)) →
    (List.zipWith (fun part param => { part, param : Argument }) args params).map Argument.param =
      params.take args.length
  | [], _ | _ :: _, [] => by simp
  | _ :: args, param :: params => by simpa using params_paired args params

/-- What a hint binds besides the type arguments is of settled type. -/
theorem settled_guessed {r : Registry} {bound : Bindings}
    (hbound : bound.All fun _ t => t.Settled r) {hint : Option Ty}
    (hhint : ∀ t ∈ hint, t.Saturated r) (callee : Signature Ty) :
    (guessed callee hint bound).All fun _ t => t.Settled r := by
  unfold guessed
  split
  · rename_i expected hexpected
    exact (settled_of_mem_resultHint hhint expected hexpected).guess hbound callee.result
  · exact hbound

/-- A hint takes no binding back. -/
theorem fewer_guessed (callee : Signature Ty) (hint : Option Ty) (bound : Bindings) :
    (guessed callee hint bound).Fewer bound := by
  unfold guessed
  split
  · exact Ty.fewer_guess _ _ _
  · exact .refl bound

/-- A call binds generic parameters to sound types, all of them if it has type arguments. If only
settled types are found, it binds those that are pinned. -/
theorem arguments (hv : v.Settled knows) {callee : Signature Ty}
    (hcallee : p → callee.Usable v.registry) {typeArgs : List TypeSpec}
    (htypes : p → TypeSpec.saturatedList v typeArgs = true) {args : List Part}
    (hargs : ∀ arg ∈ args, arg.Steady v (Ty.Sound v.registry slack)) (name : Ident)
    {hint : Option Ty} (hhint : p → ∀ t ∈ hint, t.Saturated v.registry) :
    Steady v p (fun t => ∃ bound : Bindings,
      t = (callee.result.fill v.registry bound).erase ∧
      (bound.All fun _ u => u.Sound v.registry slack) ∧
      (typeArgs ≠ [] → ∀ g ∈ callee.generics, bound.contains g = true) ∧
      (slack = .only [] → ∀ g ∈ callee.pinned, bound.contains g = true))
      (arguments callee typeArgs args name id hint) := by
  refine symbols <| (countArguments _ _ _).bind fun _ =>
    (explicitBindings hv name callee.generics fun hp => htypes hp.1).bind fun bound => ?_
  have hmem : ∀ arg ∈ List.zipWith (fun part param => { part, param : Argument }) args
      callee.params, arg.part ∈ args ∧ arg.param ∈ callee.params := by
    intro arg harg
    rw [← List.map_uncurry_zip_eq_zipWith] at harg
    obtain ⟨⟨part, param⟩, hmem, rfl⟩ := List.mem_map.1 harg
    exact List.of_mem_zip hmem
  refine guidedTwice slack (fun arg harg => hargs _ (hmem arg harg).1) (fun hp => ?_)
    (fun hp arg harg => (hcallee hp.1.1).params _ (hmem arg harg).2) fun found hfound => ?_
  · exact fun entry hentry => (settled_guessed hp.2.1 (hhint hp.1.1) callee entry hentry).loosen
  refine .andThen (unguided (fun arg harg => hargs arg (List.mem_of_mem_drop harg)) fun hp => ?_) <|
    (compare _ _ _).bind fun _ => pure fun hp => ?_
  · exact List.drop_eq_nil_of_le hp.1.1.2.2
  · obtain ⟨⟨⟨⟨hp, hcount, -⟩, -, hexplicit⟩, hfewer, hall, hdone⟩, haccepts⟩ := hp
    refine ⟨found.1, rfl, hall, fun htypes g hg => ?_, fun hslack g hg => ?_⟩
    · exact (hfewer.trans (fewer_guessed callee hint bound)).contains (hexplicit htypes g hg)
    -- a pinned parameter is among the first ones, for which there is an argument
    · obtain ⟨param, hparam, hpin⟩ := List.mem_flatMap.1 hg
      have hparams : found.2.map Argument.param = callee.params.take args.length := by
        rw [← params_paired]
        simpa [Function.comp_def] using congrArg (List.map Prod.snd) hfound
      have hmem : param ∈ found.2.map Argument.param :=
        hparams ▸ List.take_subset_take_left _ hcount hparam
      obtain ⟨arg, harg, rfl⟩ := List.mem_map.1 hmem
      obtain ⟨t, ht⟩ := hdone arg harg
      exact ht.pins hslack found.1 (haccepts arg harg t ht.found) g hpin

end Check.Steady

/-- A function can be called, and where the type of the call is needed, the call determines it: the
function is not generic, or else settled arguments or type arguments bind what its result
mentions. -/
structure Signature.Serves (r : Registry) (slack : Slack) (typeArgs : List TypeSpec) (needed : Prop)
    (s : Signature Ty) : Prop where
  usable : s.Usable r
  determined : needed → s.generics = [] ∨ slack = .only [] ∧ (typeArgs ≠ [] ∨ s.Determined r)

namespace Check.Steady

variable {v : View} {knows : String → Prop} {p : Prop} {id : Nat} {Q : Ty → Prop} {slack : Slack}
  {typeArgs : List TypeSpec} {args : List Part} {hint : Option Ty}

/-- The type of a call is settled if all that its result mentions is bound to settled types. -/
theorem settled_call {r : Registry} {bound : Bindings} {names : List String} {result : Ty}
    (hresult : result.Sound r (.only names)) (hbound : bound.All fun _ t => t.Settled r)
    (hnames : ∀ g ∈ names, bound.contains g = true) :
    (result.fill r bound).erase.Settled r := by
  have hfill : (result.fill r bound).Settled r := by
    refine hresult.fill (Slack.covers_only names _) fun name hname => ?_
    obtain ⟨t, ht⟩ := Option.isSome_iff_exists.1
      (hnames name (List.contains_iff_mem.1 hname))
    rw [ht]
    exact hbound.get? ht
  rwa [hfill.rigid]

/-- A function with a settled type serves every call. -/
theorem serves_of_settled {r : Registry} {needed : Prop} {t : Ty} (h : t.Settled r) :
    t.isUnknown = false ∧ ∀ s, t = .function s →
      s.Serves r slack typeArgs needed := by
  refine ⟨h.isUnknown_eq_false, ?_⟩
  rintro s rfl
  exact ⟨(Signature.usable_of_settled h).1,
    fun _ => .inl ((Ty.sound_function.1 h).1.resolve_left nofun)⟩

section Call

variable (hv : v.Settled knows) (htypes : p → TypeSpec.saturatedList v typeArgs = true)
  (hargs : ∀ arg ∈ args, arg.Steady v (Ty.Sound v.registry slack))
  (hhint : p → ∀ t ∈ hint, t.Saturated v.registry)

include hv htypes hargs hhint

/-- The type of a call is saturated, and settled if it is needed. -/
theorem callArguments (needed : Prop) {callee : Signature Ty}
    (hcallee : p → callee.Serves v.registry slack typeArgs needed) (name : Ident) :
    Steady v p (fun t => t.Saturated v.registry ∧ (needed → t.Settled v.registry))
      (Check.arguments callee typeArgs args name id hint) := by
  refine (arguments hv (fun hp => (hcallee hp).usable) htypes hargs name hhint).imp (fun h => h) ?_
  rintro t hp ⟨bound, rfl, hbound, hexplicit, hpinned⟩
  obtain ⟨husable, hdetermined⟩ := hcallee hp
  refine ⟨?_, fun hneeded => ?_⟩
  · exact (husable.result.saturated.fill_saturated
      fun entry hentry => (hbound entry hentry).saturated).erase
  · obtain hplain | ⟨rfl, hbinds⟩ := hdetermined hneeded
    · have hresult := husable.result
      rw [hplain] at hresult
      have hfill : (callee.result.fill v.registry bound).Settled v.registry :=
        hresult.fill (Slack.covers_only [] _) nofun
      rwa [hfill.rigid]
    · obtain htypes | hdetermined := hbinds
      · exact settled_call husable.result hbound (hexplicit htypes)
      · exact settled_call hdetermined hbound (hpinned rfl)

/-- The rule for a call of something that is no unknown. -/
theorem callee {needed : Prop} {found : Option Ty}
    (hfound : p → ∀ t ∈ found, t.isUnknown = false ∧ ∀ s, t = .function s →
      s.Serves v.registry slack typeArgs needed) (module : Option Ident) (name : Ident) :
    Steady v p (fun t => t.Saturated v.registry ∧ (needed → t.Settled v.registry))
      (callee found module name typeArgs args id hint) := by
  unfold Check.callee
  split
  · exact callArguments hv htypes hargs hhint needed (fun hp => (hfound hp _ rfl).2 _ rfl) name
  · have hfalse : ¬p := fun hp => nomatch (hfound hp _ rfl).1
    exact (unguided hargs fun hp => absurd hp hfalse).andThen (pure fun hp => absurd hp hfalse)
  · exact errorThen _ _ ((unguided hargs False.elim).andThen (pure False.elim))
  · exact errorThen _ _ ((unguided hargs False.elim).andThen (pure False.elim))

/-- A call of a name, if the function serves that the name may stand for. -/
theorem call {needed : Prop} {module : Option Ident} {name : Ident}
    (hname : module = none → knows name.name) (hfunction : ∀ value s,
      v.symbols.function? (module.map Ident.name) name.name none = some value →
      value.ty = .function s → s.Serves v.registry slack typeArgs needed) :
    Steady v p (fun t => t.Saturated v.registry ∧ (needed → t.Settled v.registry))
      (call module name typeArgs args id hint) := by
  have hserves {value : Value} {t : Ty}
      (hvalue : v.symbols.function? (module.map Ident.name) name.name none = some value)
      (hty : value.ty = t) : t.isUnknown = false ∧ ∀ s, t = .function s →
        s.Serves v.registry slack typeArgs needed := by
    obtain ⟨s, hs, -⟩ := hv.symbols.function? hvalue
    subst hty
    refine ⟨by rw [hs]; rfl, fun s hs => hfunction value s hvalue hs⟩
  cases module with
  | some qualifier =>
    refine (moduleName _).bind fun known => ?_
    split
    · have hcallee : Steady v (p ∧ known = true)
          (fun t => t.Saturated v.registry ∧ (needed → t.Settled v.registry))
          (Check.callee ((v.symbols.function? (some qualifier.name) name.name none).map Value.ty)
            (some qualifier) name typeArgs args id hint) := by
        refine callee hv (fun hp => htypes hp.1) hargs (fun hp => hhint hp.1)
          (fun hp t ht => ?_) _ _
        obtain ⟨value, hvalue, hty⟩ := Option.map_eq_some_iff.1 ht
        exact hserves hvalue hty
      refine symbols ?_
      dsimp only
      split
      · exact (markFunction _ _).andThen hcallee
      · exact hcallee
    · rename_i hknown
      exact (unguided hargs fun hp => absurd hp.2 hknown).andThen
        (pure fun hp => absurd hp.2 hknown)
  | none =>
    refine (lookup hv (hname rfl) fun hp => ?_).bind fun found => ?_
    · simpa [Option.bind_map, Function.comp_def, Ty.fn, Ty.signature?] using
        settled_of_mem_resultHint (hhint hp)
    · cases found with
      | none =>
        exact callee hv (fun hp => htypes hp.1) hargs (fun hp => hhint hp.1) (by simp) _ _
      | some found =>
        refine (mark _ _).andThen (callee hv (fun hp => htypes hp.1) hargs (fun hp => hhint hp.1)
          (fun hp t ht => ?_) _ _)
        obtain rfl := Option.some.inj ht
        obtain hsettled | ⟨value, hvalue, hty⟩ := hp.2 found rfl
        · exact serves_of_settled hsettled
        · exact hserves hvalue hty

end Call

/-- A value of settled type has methods that determine the types of calls. -/
theorem method? (hv : v.Settled knows) {owner : Ty} (howner : p → owner.Settled v.registry)
    (name : Ident) : Steady v p (fun found => ∀ s ∈ found, s.Usable v.registry ∧
      s.Determined v.registry) (method? owner name) := by
  refine symbols ?_
  split
  · rename_i m hm
    exact (token _ _ _).andThen <| (link _ _).andThen <| (hover _ _ _ _).andThen <|
      pure fun hp s hs => Option.some.inj hs ▸ hv.symbols.method? (howner hp) hm
  · split
    · rename_i f hf
      split
      · rename_i signature hty
        refine (markField _ _ _).andThen (pure fun hp s hs => ?_)
        obtain rfl := Option.some.inj hs
        exact Signature.usable_of_settled (hty ▸ hv.symbols.field? (howner hp) hf)
      · exact pure fun _ => nofun
    · exact pure fun _ => nofun

/-- A call of a method gives a settled type to settled arguments. -/
theorem methodCall (hv : v.Settled knows) {target : Part}
    (ht : target.Steady v (Ty.Settled v.registry)) (name : Ident)
    (hargs : ∀ arg ∈ args, arg.Steady v (Ty.Settled v.registry))
    (hhint : p → ∀ t ∈ hint, t.Saturated v.registry) :
    Steady v p (Ty.Settled v.registry) (methodCall target name args id hint) := by
  refine (unhinted ht).bind fun owner => known And.right
    ((unguided hargs False.elim).andThen (pure False.elim))
    ((method? hv And.right name).bind fun found => ?_)
  cases found with
  | some signature =>
    refine (callArguments hv (fun _ => rfl) hargs (fun hp => hhint hp.1.1) True (fun hp => ?_)
      name).imp (fun h => h) fun _ _ h => h.2 trivial
    obtain ⟨husable, hdetermined⟩ := hp.2 signature rfl
    exact ⟨husable, fun _ => .inr ⟨rfl, .inr hdetermined⟩⟩
  | none => exact errorThen _ _ ((unguided hargs False.elim).andThen (pure False.elim))

end Check.Steady

end ScriptCheck
