import ScriptCheck.Proofs.ClosedChecks

/-!
# No placeholder leaks

Every entry of the first pass keeps the symbols closed: annotations resolve to rigid types, library
descriptions to closed ones, and the type of a constant is found by a check in closed symbols. The
second pass therefore starts from a closed state and stays in closed states
(`placeholders_never_leak`).
-/

namespace ScriptCheck

open Declare

/-! ## Declarations -/

/-- The type of a function declaration has nothing open. -/
theorem rigid_signature {v : View} (hv : v.Rigid) (decl : FunctionDecl) (isMethod : Bool) :
    (Ty.function (signature v decl isMethod)).Rigid := by
  refine Ty.rigid_iff.2 ⟨nofun, ?_, fun t ht => ?_⟩
  · rintro s hs
    obtain rfl := Ty.function.inj hs
    rfl
  · simp only [Ty.children, signature, List.map_map, List.mem_append, List.mem_map,
      List.mem_singleton] at ht
    rcases ht with ⟨p, -, rfl⟩ | rfl
    · dsimp only [Function.comp]
      cases p.type with
      | none => rfl
      | some spec => exact spec.rigid_resolve hv
    · exact decl.result.rigid_resolve hv

theorem rigid_of_classify {v : View} (hv : v.Rigid) {self : Ty} {decl : FunctionDecl}
    {op : Operator} {side : Side} {overload : Overload}
    (h : classify v self decl = .ok (op, side, overload)) : overload.result.Rigid := by
  obtain ⟨-, -, hchildren⟩ := Ty.rigid_iff.1 (rigid_signature hv decl false)
  exact (types_of_classify (by rfl)
    (fun p hp => hchildren _ (List.mem_append_left _ (List.mem_map_of_mem hp)))
    (hchildren _ (List.mem_append_right _ List.mem_cons_self)) h).2

namespace Symbols.Closed

variable {s : Symbols}

theorem withInfo (h : s.Closed) (name : String) {change : StructInfo → StructInfo}
    (hchange : ∀ info : StructInfo, info.Closed → (change info).Closed) :
    (withInfo s name change).Closed :=
  { h with structs := h.structs.insert (hchange _ (h.info name)) }

theorem withStruct (h : s.Closed) (decl : StructDecl) : (withStruct decl s).Closed := by
  have hfields : ∀ item ∈ resolvedFields decl s, item.2.Rigid := by
    intro item hitem
    obtain ⟨f, -, rfl⟩ := List.mem_map.1 hitem
    exact f.type.rigid_resolve h.root
  have hty : (structType s decl.name.name (resolvedFields decl s)).Rigid := by
    refine Ty.rigid_iff.2 ⟨nofun, nofun, fun t ht => ?_⟩
    obtain ⟨item, hitem, rfl⟩ := List.mem_map.1 ht
    exact hfields item hitem
  have hconstructor : (constructor decl (structType s decl.name.name (resolvedFields decl s))
      (resolvedFields decl s)).Closed := by
    refine Ty.closed_of_children nofun fun t ht => ?_
    simp only [constructor, Ty.children, List.map_map, List.mem_append, List.mem_map,
      List.mem_singleton] at ht
    rcases ht with ⟨item, hitem, rfl⟩ | rfl
    · exact (hfields item hitem).closed
    · exact hty.closed
  have hinfo := h.info decl.name.name
  refine ⟨h.constants, ?_, ?_, h.structs.insert ?_⟩
  · dsimp only [Declare.withStruct]
    split
    · exact h.functions
    · exact h.functions.insert hconstructor
  · dsimp only [Declare.withStruct]
    split
    · exact h.types.insert hty
    · exact h.types
  · exact ⟨hfields, hinfo.prefixOperators, hinfo.suffixOperators⟩

/-- The type that is inferred for a constant is closed. -/
theorem inferred (h : s.Closed) (value : Expr) : (inferred s value).Closed := by
  have hrun := closure_grounds.inferred (w := ()) (e := value) (fun _ => trivial)
    (.of_any rfl (fun _ _ => trivial) fun _ _ => trivial)
  exact (hrun ⟨rfl, .start h []⟩).1.2

/-- Every entry of the first pass keeps the symbols closed. -/
theorem entry (h : s.Closed) {xs : List Item} {phase : Phase} {s' : Symbols}
    (hentry : Entry xs s phase s') : s'.Closed := by
  have hroot := h.root
  cases hentry with
  | importedConstant _ info =>
    exact { h with constants := h.constants.insert (info.type.closed_resolve .empty) }
  | importedFunction _ info =>
    exact { h with functions := h.functions.insert (s.registry.closed_functionType info) }
  | importedType => exact { h with types := h.types.insert (by rfl) }
  | module => exact { h with }
  | struct =>
    exact { h with types := h.types.insert (by rfl), structs := h.structs.insert .empty }
  | fields decl => exact h.withStruct decl
  | typeAlias decl =>
    exact { h with types := h.types.insert (decl.type.rigid_resolve hroot) }
  | function decl =>
    exact { h with functions := h.functions.insert (rigid_signature hroot decl false).closed }
  | method block _ self _ decl =>
    exact h.withInfo self.name fun info hinfo =>
      ⟨hinfo.fields, hinfo.prefixOperators, hinfo.suffixOperators⟩
  | operator block _ self hself decl _ op side overload hclassify =>
    have hview : View.Rigid { symbols := s, self } := by
      refine h.view fun t ht => h.selfOf? block.name.name t ?_
      rwa [hself]
    have hresult := (rigid_of_classify hview hclassify).closed
    refine h.withInfo self.name fun info hinfo => ?_
    cases side with
    | prefixSide =>
      exact { hinfo with prefixOperators := all_addOverload hinfo.prefixOperators op hresult }
    | suffixSide =>
      exact { hinfo with suffixOperators := all_addOverload hinfo.suffixOperators op hresult }
  | constant decl =>
    refine { h with constants := h.constants.insert ?_ }
    unfold constValue constType
    split
    · exact (TypeSpec.rigid_resolve hroot _).closed
    · exact h.inferred decl.value

end Symbols.Closed

/-- The declarations of a script are closed. -/
theorem Script.closed_declarations (script : Script) (registry : Registry) :
    (script.declarations registry).symbols.Closed :=
  symbols_induction (I := Symbols.Closed) ⟨.empty, .empty, .empty, .empty⟩
    fun hentry hd => hd.entry hentry

/-! ## Calls -/

/-- Calls of functions and methods. -/
def Expr.isCall : Expr → Bool
  | .call .. | .methodCall .. => true
  | _ => false

namespace Check

theorem returns_arguments (callee : Signature Ty) (typeArgs : List TypeSpec) (args : List Part)
    (name : Ident) (id : Nat) (hint : Option Ty) :
    Returns Ty.Ground (arguments callee typeArgs args name id hint) :=
  fun _ => Ty.ground_erase _

theorem ground_unknown : Ty.unknown.Ground := Ty.ground_iff.2 ⟨nofun, nofun⟩

theorem returns_callee (found : Option Ty) (module : Option Ident) (name : Ident)
    (typeArgs : List TypeSpec) (args : List Part) (id : Nat) (hint : Option Ty) :
    Returns Ty.Ground (callee found module name typeArgs args id hint) := by
  unfold callee
  split
  · exact returns_arguments _ _ _ _ _ _
  · exact fun _ => ground_unknown
  · exact fun _ => ground_unknown
  · exact fun _ => ground_unknown

theorem returns_call (module : Option Ident) (name : Ident) (typeArgs : List TypeSpec)
    (args : List Part) (id : Nat) (hint : Option Ty) :
    Returns Ty.Ground (call module name typeArgs args id hint) := by
  cases module with
  | some qualifier =>
    refine .bind (.any _) fun known _ => ?_
    split
    · refine .bind (.any _) fun s _ => ?_
      dsimp only
      split
      · exact .bind (.any _) fun _ _ => returns_callee _ _ _ _ _ _ _
      · exact returns_callee _ _ _ _ _ _ _
    · exact fun _ => ground_unknown
  | none =>
    refine .bind (.any _) fun found _ => ?_
    cases found with
    | some found => exact .bind (.any _) fun _ _ => returns_callee _ _ _ _ _ _ _
    | none => exact returns_callee _ _ _ _ _ _ _

theorem returns_methodCall (target : Part) (name : Ident) (args : List Part) (id : Nat)
    (hint : Option Ty) : Returns Ty.Ground (methodCall target name args id hint) := by
  refine .bind (.any _) fun owner _ => ?_
  unfold methodOf
  split
  · exact fun _ => ground_unknown
  · refine .bind (.any _) fun found _ => ?_
    split
    · exact returns_arguments _ _ _ _ _ _
    · exact fun _ => ground_unknown

end Check

/-- The result of a call has no placeholder, whatever the state and the hint. -/
theorem Expr.ground_of_isCall {e : Expr} (h : e.isCall = true) (id : Nat) (hint : Option Ty)
    (c : Checker) : ((e.check id hint).run c).1.Ground := by
  cases e with
  | call r module name typeArgs args => exact Check.returns_call module name typeArgs _ id hint c
  | methodCall r target name args => exact Check.returns_methodCall _ name _ id hint c
  | _ => cases h

/-! ## Validation -/

/-- Every type that validation records, every constant and every function has a closed type. So has
every local variable during the second pass: an observer that leaves states with closed local
variables alone makes no difference. The result of a call has no placeholder at all. -/
theorem placeholders_never_leak (registry : Registry) (script : Script) :
    ((script.validate registry).report.types.All fun _ t => t.Closed) ∧
      ((script.validate registry).symbols.constants.All fun _ value => value.ty.Closed) ∧
      ((script.validate registry).symbols.functions.All fun _ value => value.ty.Closed) ∧
      (∀ watch : Checker → Checker, (∀ c, c.scopes.Closed → watch c = c) →
        script.observed watch registry = script.validate registry) ∧
      ∀ e : Expr, e.isCall = true → ∀ id hint c, ((e.check id hint).run c).1.Ground := by
  have hsymbols := script.closed_declarations registry
  have hrun {watch : Checker → Checker} (hwatch : LeavesClosed watch) :=
    (Check.Guarded.items hwatch script.items
      ⟨rfl, .start hsymbols (script.declarations registry).diagnostics⟩).2
  have hself : LeavesClosed fun c => c := fun _ _ => rfl
  refine ⟨(hrun hself).2.types, hsymbols.constants, hsymbols.functions,
    fun watch hwatch => ?_, fun e he id hint c => e.ground_of_isCall he id hint c⟩
  rw [Script.observed, Script.validate, Script.validateWith, Script.validateWith, (hrun hwatch).1]

/-- The script `const make = Some`, `fn wrap() -> Unit = { let wrapped = make }`. -/
def maker : Script :=
  .ofItems
    [.const (.ofValue "make" (.ofName "Some")),
      .function (.ofBody "wrap" [] "Unit" (.block {} [.ofLet "wrapped" (.ofName "make")]))]

/-- The constant is generic, and its placeholder is bound. An observer that throws the report away
when it sees a local variable with an open type lets the report pass. -/
theorem placeholders_never_leak_maker :
    ((maker.validate .empty).symbols.constants.get? "make").map Value.ty =
        some (.function
          { generics := ["T"], params := [⟨"value", .placeholder "T", false⟩]
            result := .option (.placeholder "T") }) ∧
      maker.observed (fun c => if c.scopes.Closed then c else { c with report := {} }) .empty =
        maker.validate .empty :=
  ⟨by decide +kernel,
    (placeholders_never_leak .empty maker).2.2.2.1 _ fun _ hc => if_pos hc⟩

-- An observer sees the local variable of the function.
example :
    (maker.observed (fun c => if (c.scopes.local? 2 "wrapped").isSome then
        { c with report := {} } else c) .empty).report.types.get? {} = none ∧
      (maker.validate .empty).report.types.get? {} = some Ty.unit := by
  decide +kernel

end ScriptCheck
