import ScriptCheck.Check.Expr

/-!
# What a hint can change

The surroundings of an expression pass on the type that they expect. Most forms of expressions do
not look at it: they drop it, or they hand it on to some of their parts. Lambdas, arrays and calls
are the ones that do look. An expression that is none of these, and hands its hint on to none of
these, is checked in the same way whatever is expected (`check_eq_of_unsteered`).
-/

namespace ScriptCheck

/-! ## Expressions that get the hint -/

namespace Expr

/-- The rule for the expression looks at the hint. -/
def isSteered : Expr → Bool
  | .lambda .. | .array .. | .call .. | .methodCall .. => true
  | .int .. | .float .. | .bool .. | .string .. | .var .. | .field .. | .index .. | .unary ..
  | .binary .. | .block .. | .declare .. | .assign .. | .fieldAssign .. | .ifThen .. | .whileLoop ..
  | .forLoop .. | .breakLoop .. | .continueLoop .. | .returnValue .. | .tuple .. | .record ..
  | .interval .. | .bracket .. => false

mutual
/-- The expressions that get the hint or a part of it, the expression itself first. -/
def receivers (e : Expr) : List Expr :=
  e :: match e with
    | .block _ expressions => receiversOfLast expressions
    | .ifThen _ _ thenBranch (some elseBranch) => thenBranch.receivers ++ elseBranch.receivers
    | .tuple _ items => receiversOfList items
    | .record _ items => receiversOfItems items
    | .bracket _ inner => inner.receivers
    | _ => []

/-- Those in the last expression of a block. -/
def receiversOfLast : List Expr → List Expr
  | [] => []
  | [last] => last.receivers
  | _ :: rest => receiversOfLast rest

/-- Those in the items of a tuple. -/
def receiversOfList : List Expr → List Expr
  | [] => []
  | e :: rest => e.receivers ++ receiversOfList rest

/-- Those in the items of a record. -/
def receiversOfItems : List (Ident × Expr) → List Expr
  | [] => []
  | (_, e) :: rest => e.receivers ++ receiversOfItems rest
end

end Expr

/-! ## Parts that do not depend on the hint -/

/-- The check of the part does not depend on the hint. -/
def Part.Unsteered (part : Part) : Prop :=
  ∀ (id : Nat) (hint hint' : Option Ty), part.check id hint = part.check id hint'

theorem Part.Unsteered.ofRule {range : Range} {rule : Nat → Option Ty → CheckM Ty}
    (h : ∀ id hint hint', rule id hint = rule id hint') : (Part.ofRule range rule).Unsteered :=
  fun id hint hint' => congrArg (Check.typed range) (h id hint hint')

namespace Check

variable {hint hint' : Option Ty}

theorem ifThen_eq {condition thenBranch elseBranch : Part} (hthen : thenBranch.Unsteered)
    (helse : elseBranch.Unsteered) (id : Nat) :
    ifThen condition thenBranch (some elseBranch) id hint =
      ifThen condition thenBranch (some elseBranch) id hint' := by
  refine bind_congr fun _ => bind_congr fun thenScope => ?_
  dsimp only
  rw [hthen thenScope hint hint']
  refine bind_congr fun _ => bind_congr fun elseScope => ?_
  rw [helse elseScope hint hint']

theorem tuple_eq {items : List Part} (h : ∀ item ∈ items, item.Unsteered) (id : Nat) :
    tuple items id hint = tuple items id hint' := by
  have hitems : ∀ hints hints', tupleItems id hints items = tupleItems id hints' items := by
    induction items with
    | nil => exact fun _ _ => rfl
    | cons item rest ih =>
      intro hints hints'
      obtain ⟨hitem, hrest⟩ := List.forall_mem_cons.1 h
      rw [tupleItems, tupleItems, hitem id hints.head? hints'.head?,
        ih hrest hints.tail hints'.tail]
  exact congrArg (· >>= fun types => pure (Ty.tuple types)) (hitems _ _)

theorem record_eq {items : List (Ident × Part)} (h : ∀ item ∈ items, item.2.Unsteered) (id : Nat) :
    record items id hint = record items id hint' := by
  have hitems : ∀ seen, recordItems id hint seen items = recordItems id hint' seen items := by
    induction items with
    | nil => exact fun _ => rfl
    | cons item rest ih =>
      intro seen
      obtain ⟨hitem, hrest⟩ := List.forall_mem_cons.1 h
      refine bind_congr fun s => ?_
      dsimp only
      rw [hitem id ((hint.bind fun t => s.field? t item.1.name).map FieldType.ty)
        ((hint'.bind fun t => s.field? t item.1.name).map FieldType.ty)]
      refine bind_congr fun ty => ?_
      rw [ih hrest, ih hrest]
  rw [record, record, hitems]

end Check

/-! ## Expressions -/

namespace Expr

mutual
/-- The check follows the receivers of the hint, and none of them looks at it. -/
theorem unsteered_part : (e : Expr) → (∀ x ∈ e.receivers, x.isSteered = false) → e.part.Unsteered
  | .int .., _ | .float .., _ | .bool .., _ | .string .., _ | .var .., _ | .field .., _
  | .index .., _ | .unary .., _ | .binary .., _ | .declare .., _ | .assign .., _
  | .fieldAssign .., _ | .whileLoop .., _ | .forLoop .., _ | .breakLoop .., _ | .continueLoop .., _
  | .returnValue .., _ | .interval .., _ => fun _ _ _ => rfl
  | .lambda .., h | .array .., h | .call .., h | .methodCall .., h => by
    cases h _ List.mem_cons_self
  | .block _ expressions, h =>
    .ofRule fun id hint hint' => bind_congr fun inner =>
      sequence_eq expressions (fun x hx => h x (List.mem_cons_of_mem _ hx)) inner hint hint'
  | .ifThen _ _ thenBranch elseBranch, h => by
    cases elseBranch with
    | none => exact fun _ _ _ => rfl
    | some e =>
      obtain ⟨hthen, helse⟩ := List.forall_mem_append.1 (List.forall_mem_cons.1 h).2
      exact .ofRule fun id _ _ =>
        Check.ifThen_eq (unsteered_part thenBranch hthen) (unsteered_part e helse) id
  | .tuple _ items, h =>
    .ofRule fun id _ _ => Check.tuple_eq (unsteered_parts items (List.forall_mem_cons.1 h).2) id
  | .record _ items, h =>
    .ofRule fun id _ _ => Check.record_eq (unsteered_items items (List.forall_mem_cons.1 h).2) id
  | .bracket _ inner, h =>
    .ofRule (unsteered_part inner (List.forall_mem_cons.1 h).2)

theorem sequence_eq : (es : List Expr) → (∀ x ∈ receiversOfLast es, x.isSteered = false) →
    (id : Nat) → (hint hint' : Option Ty) →
    Check.sequence id hint (parts es) = Check.sequence id hint' (parts es)
  | [], _, _, _, _ => rfl
  | [last], h, id, hint, hint' => unsteered_part last h id hint hint'
  | first :: second :: rest, h, id, hint, hint' => by
    have hrest := sequence_eq (second :: rest) h id hint hint'
    exact bind_congr fun _ => hrest

theorem unsteered_parts : (es : List Expr) → (∀ x ∈ receiversOfList es, x.isSteered = false) →
    ∀ part ∈ parts es, part.Unsteered
  | [], _ => List.forall_mem_nil _
  | e :: rest, h => by
    obtain ⟨he, hrest⟩ := List.forall_mem_append.1 h
    exact List.forall_mem_cons.2 ⟨unsteered_part e he, unsteered_parts rest hrest⟩

theorem unsteered_items : (items : List (Ident × Expr)) →
    (∀ x ∈ receiversOfItems items, x.isSteered = false) →
    ∀ item ∈ itemParts items, item.2.Unsteered
  | [], _ => List.forall_mem_nil _
  | (_, e) :: rest, h => by
    obtain ⟨he, hrest⟩ := List.forall_mem_append.1 h
    exact List.forall_mem_cons.2 ⟨unsteered_part e he, unsteered_items rest hrest⟩
end

end Expr

/-- If neither an expression nor any expression that its hint is handed on to is a lambda, an array
or a call, it is checked to the same type, and leaves the same state behind, whatever the hint. -/
theorem check_eq_of_unsteered (e : Expr) (h : ∀ x ∈ e.receivers, x.isSteered = false) (id : Nat)
    (hint hint' : Option Ty) (c : Checker) :
    (e.check id hint).run c = (e.check id hint').run c :=
  congrArg (StateT.run · c) (e.unsteered_part h id hint hint')

/-- The block `{ let xs = [fn(n) -> n]; if (true) (1, xs) else (( size : xs[0] )) }`. -/
def layered : Expr :=
  let var (name : String) : Expr := .var {} none ⟨name, {}⟩
  .block {}
    [.declare {} false (.single ⟨"xs", {}⟩) none
      (.array {} [.lambda {} [⟨⟨"n", {}⟩, none⟩] (var "n")]),
    .ifThen {} (.bool {} true) (.tuple {} [.int {} 1, var "xs"])
      (some (.bracket {} (.record {} [(⟨"size", {}⟩, .index {} (var "xs") (.int {} 0))])))]

/-- The array and the lambda do not get the hint of the block that they stand in. With and without
it, the lambda is complained about, since its parameter has no type. -/
theorem check_eq_of_unsteered_layered :
    let c : Checker :=
      { view := { symbols := { registry := .empty, moduleName := "main" } }
        scopes := ({} : Scopes).push none .block }
    (∀ x ∈ layered.receivers, x.isSteered = false) ∧
      ((layered.check 0 none).run c).2.report.diagnostics.length = 1 ∧
      (layered.check 0 none).run c =
        (layered.check 0 (some (.tuple [Ty.float, .array (.fn [Ty.int] Ty.int)]))).run c :=
  have hunsteered : ∀ x ∈ layered.receivers, x.isSteered = false := by decide
  ⟨hunsteered, by decide +kernel, check_eq_of_unsteered layered hunsteered 0 _ _ _⟩

/-- An empty array takes its type from the hint. -/
example (c : Checker) :
    (((Expr.array {} []).check 0 none).run c).1 = .unknown ∧
      (((Expr.array {} []).check 0 (some (.array Ty.int))).run c).1 = .array Ty.int := ⟨rfl, rfl⟩

end ScriptCheck
