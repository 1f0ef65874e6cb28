import ScriptCheck.Report.Basic
import ScriptCheck.Scope
import ScriptCheck.Script.Item
import ScriptCheck.Ty.Members

/-!
# The state of a check

A check reads the symbols of the script and writes what it finds into a report. `Check.note` is the
only way to write, and it does nothing while the check is muted: the type of an expression can thus
be inferred by checking it in silence (`Check.infer`).

The rules for the forms of expressions do not look into subexpressions. They are given each
subexpression as a `Part`, which says where it stands, whether it is a lambda, and how to check it
in a scope with a hint. The hint is the type that the surroundings expect; it only steers inference,
and whoever gives it compares it with the type found.

All comparisons of types are made by `Comparing.ask`. A check asks the symbols of the script;
another instance may keep a record of the questions.
-/

namespace ScriptCheck

/-- The state of a check. -/
structure Checker where
  view : View
  scopes : Scopes := {}
  report : Report := {}
  /-- How many inferences are under way. -/
  muted : Nat := 0

/-- A computation that checks something. -/
abbrev CheckM := StateM Checker

/-- A subexpression as its surroundings see it. -/
structure Part where
  range : Range
  isLambda : Bool := false
  /-- Checks the expression in the scope with the given number and returns its type. -/
  check : (scope : Nat) → (hint : Option Ty) → CheckM Ty

namespace Check

/-- The symbols of the script. -/
def symbols : CheckM Symbols := do return (← get).view.symbols

/-! ## Writing to the report -/

/-- Changes the report, unless the check is muted. -/
def note (change : Report → Report) : CheckM Unit :=
  modify fun c => if c.muted = 0 then { c with report := change c.report } else c

/-- Adds a diagnostic. -/
def complain (severity : Severity) (problem : Problem) (range : Range) : CheckM Unit :=
  note fun r => { r with diagnostics := r.diagnostics ++ [⟨severity, problem, range⟩] }

/-- Adds an error. -/
def error (problem : Problem) (range : Range) : CheckM Unit := complain .error problem range

/-- Adds a warning. -/
def warn (problem : Problem) (range : Range) : CheckM Unit := complain .warn problem range

/-- Adds a token. -/
def token (range : Range) (kind : TokenKind) (modifiers : List TokenModifier) : CheckM Unit :=
  note fun r => { r with tokens := r.tokens ++ [⟨kind, modifiers, range⟩] }

/-- Links a range to a definition, if there is one. -/
def link (range : Range) (definition : Option Definition) : CheckM Unit :=
  match definition with
  | none => pure ()
  | some d => note fun r => { r with definitions := r.definitions.insert range d }

/-- Sets the hover text of a range. -/
def hoverText (range : Range) (text : String) : CheckM Unit :=
  note fun r => { r with hover := r.hover.insert range text }

/-- Shows a name with its type, and its description if it has one. -/
def hover (range : Range) (name : String) (ty : Ty) (description : String) : CheckM Unit :=
  hoverText range
    (name ++ ": " ++ ty.display ++ (if description.isEmpty then "" else "\n\n" ++ description))

/-- Shows an inferred type behind a name. -/
def inlay (range : Range) (ty : Ty) : CheckM Unit :=
  note fun r => { r with hints := r.hints ++ [⟨range.stop, ": " ++ ty.display⟩] }

/-- Sets the type of a range. -/
def setType (range : Range) (ty : Ty) : CheckM Unit :=
  note fun r => { r with types := r.types.insert range ty }

/-- The modifiers of a token for a symbol with the given definition. -/
def libraryModifiers (definition : Option Definition) : List TokenModifier :=
  if definition.isNone then [.defaultLibrary] else []

/-! ## Scopes -/

/-- Opens a scope and returns its number. -/
def openScope (parent : Option Nat) (kind : ScopeKind) : CheckM Nat := do
  let id := (← get).scopes.size
  modify fun c => { c with scopes := c.scopes.push parent kind }
  return id

/-- Forgets all scopes. -/
def closeScopes : CheckM Unit := modify fun c => { c with scopes := c.scopes.truncate 0 }

/-- Enters a variable into a scope. -/
def enter (id : Nat) (name : String) (value : Local) : CheckM Unit :=
  modify fun c => { c with scopes := c.scopes.declare id name value }

/-- Enters a parameter into a scope, with its token and hover text. -/
def enterParam (id : Nat) (name : Ident) (ty : Ty) : CheckM Unit := do
  token name.range .parameter [.declaration]
  hover name.range name.name ty ""
  enter id name.name { ty, definition := some ((← symbols).define name.range), isParam := true }

/-- Enters a parameter into a scope. A name that was `seen` before is complained about. -/
def enterUnseen (id : Nat) (seen : List String) (name : Ident) (ty : Ty) : CheckM Unit :=
  if seen.contains name.name then error (.duplicate .parameter name.name) name.range
  else enterParam id name ty

/-! ## Types -/

/-- A way to compare types during a check. -/
class Comparing where
  /-- Whether a value of the type found may stand where the expected type is asked for. -/
  ask (expected found : Ty) : CheckM Bool

/-- Types are compared under the symbols of the script. -/
instance Comparing.plain : Comparing where
  ask expected found := return (← symbols).accepts expected found

/-- Complains unless a value of the type found may stand where the expected type is asked for. -/
def expect [Comparing] (expected found : Ty) (range : Range) : CheckM Unit := do
  unless ← Comparing.ask expected found do
    error (.mismatch expected found) range

/-- Checks an expression that has to be of a certain type. -/
def require [Comparing] (part : Part) (expected : Ty) (id : Nat) : CheckM Unit := do
  let found ← part.check id (some expected)
  expect expected found part.range

/-- Checks an expression and records its type at its range. -/
def typed (range : Range) (rule : CheckM Ty) : CheckM Ty := do
  let ty ← rule
  setType range ty
  return ty

/-- The type of an expression, without a trace in the report or the scopes. It is checked in a
block of its own. -/
def infer (part : Part) (id : Nat) (hint : Option Ty) : CheckM Ty := do
  let mark := (← get).scopes.size
  modify fun c => { c with muted := c.muted + 1 }
  let child ← openScope (some id) .block
  let ty ← part.check child hint
  modify fun c => { c with muted := c.muted - 1, scopes := c.scopes.truncate mark }
  return ty

end Check

end ScriptCheck
