import ScriptCheck.Check.Variable

/-!
# Blocks, branches and loops

The rules for expressions that decide what is run. Blocks, branches and loop bodies have a scope of
their own; a condition and the source of a loop belong to the scope around.
-/

namespace ScriptCheck.Check

/-- Checks the expressions of a block. The last one gets the hint and gives the type. -/
def sequence (id : Nat) (hint : Option Ty) : List Part → CheckM Ty
  | [] => return Ty.unit
  | [last] => last.check id hint
  | first :: rest => do
    let _ ← first.check id none
    sequence id hint rest

/-- The rule for a block. -/
def block (expressions : List Part) (id : Nat) (hint : Option Ty) : CheckM Ty := do
  let inner ← openScope (some id) .block
  sequence inner hint expressions

/-- The type of a value that comes from one of two branches. -/
def join [Comparing] (a b : Ty) : CheckM Ty := do
  if a.isUnknown then return b
  else if b.isUnknown then return a
  else if ← Comparing.ask a b then return a
  else if ← Comparing.ask b a then return b
  else return Ty.unit

/-- The rule for `if`. -/
def ifThen [Comparing] (condition thenBranch : Part) (elseBranch : Option Part) (id : Nat)
    (hint : Option Ty) : CheckM Ty := do
  require condition Ty.bool id
  let thenScope ← openScope (some id) .block
  match elseBranch with
  | none =>
    let _ ← thenBranch.check thenScope none
    return Ty.unit
  | some elseBranch =>
    let a ← thenBranch.check thenScope hint
    let elseScope ← openScope (some id) .block
    let b ← elseBranch.check elseScope hint
    join a b

/-- The rule for `while`. -/
def whileLoop [Comparing] (condition body : Part) (id : Nat) : CheckM Ty := do
  require condition Ty.bool id
  let inner ← openScope (some id) .loop
  let _ ← body.check inner none
  return Ty.unit

/-- The type of the elements that a loop runs through. -/
def elementType (source : Part) (id : Nat) : CheckM Ty := do
  elementOf Symbols.iterated? .iteration source.range (← source.check id none)

/-- The rule for `for`. -/
def forLoop (binding : Binding) (source body : Part) (id : Nat) : CheckM Ty := do
  let element ← elementType source id
  let inner ← openScope (some id) .loop
  match binding with
  | .single name =>
    unless element.isUnknown do inlay name.range element
    declareVar inner name element false
  | .tuple names => destructure inner names element false true source.range
  let _ ← body.check inner none
  return Ty.unit

/-- The rule for `break` and `continue`. -/
def leaveLoop (jump : Jump) (range : Range) (id : Nat) : CheckM Ty := do
  unless (← get).scopes.inLoop id do
    error (.misplaced jump) range
  return .unknown

/-- The rule for `return`. -/
def returnValue [Comparing] (range : Range) (value : Option Part) (id : Nat) : CheckM Ty := do
  match (← get).scopes.returnType? id with
  | none =>
    error (.misplaced .returnValue) range
    match value with
    | some value => let _ ← value.check id none
    | none => pure ()
  | some expected =>
    match value with
    | some value => require value expected id
    | none => expect expected Ty.unit range
  return .unknown

end ScriptCheck.Check
