import ScriptCheck.Report.Diagnostic
import ScriptCheck.Script.Item

/-!
# The state of the first pass

The first pass enters the names of a script into its symbol tables. The first declaration of a name
stays; `Declare.fail` complains about the others.
-/

namespace ScriptCheck

/-- Symbol tables that are being filled, and the complaints so far. -/
structure Declarations where
  symbols : Symbols
  diagnostics : List Diagnostic := []

/-- A computation that declares something. -/
abbrev DeclareM := StateM Declarations

namespace Declare

/-- The symbol tables so far. -/
def symbols : DeclareM Symbols := do return (← get).symbols

/-- Changes the symbol tables. -/
def update (change : Symbols → Symbols) : DeclareM Unit :=
  modify fun d => { d with symbols := change d.symbols }

/-- Adds an error. -/
def fail (problem : Problem) (range : Range) : DeclareM Unit :=
  modify fun d => { d with diagnostics := d.diagnostics ++ [⟨.error, problem, range⟩] }

/-- Complains that a name is already taken. -/
def duplicate (kind : SymbolKind) (name : Ident) : DeclareM Unit :=
  fail (.duplicate kind name.name) name.range

/-- Makes an entry. What stands in its way is complained about at `range`, if there is one. -/
def makeEntry (range : Option Range) (entry : Symbols → Except Problem Symbols) :
    DeclareM Unit := do
  match entry (← symbols) with
  | .ok s => update fun _ => s
  | .error problem =>
    match range with
    | some range => fail problem range
    | none => pure ()

/-- Enters something under a name that is not taken. -/
def enterNew (kind : SymbolKind) (name : String) (range : Option Range) (taken : Symbols → Bool)
    (add : Symbols → Symbols) : DeclareM Unit :=
  makeEntry range fun s => if taken s then .error (.duplicate kind name) else .ok (add s)

/-- Runs a declaration on each item of a list. -/
def each {α : Type} (declare : α → DeclareM Unit) : List α → DeclareM Unit
  | [] => pure ()
  | first :: rest => do
    declare first
    each declare rest

/-- Runs a declaration on each item of a list, and tells what the symbols before it show. -/
def collect {α β : Type} (look : Symbols → α → β) (declare : α → DeclareM Unit) :
    List α → DeclareM (List β)
  | [] => return []
  | first :: rest => do
    let seen := look (← symbols) first
    declare first
    return seen :: (← collect look declare rest)

/-- The type of a function declaration. The receiver of a method is left out. A parameter without a
type is unknown; the second pass complains about it. -/
def signature (view : View) (decl : FunctionDecl) (isMethod : Bool) : Signature Ty :=
  { isAsync := decl.isAsync
    params := (decl.params.drop (if isMethod then 1 else 0)).map fun p =>
      { name := p.name.name
        ty := (p.type.map fun spec => spec.resolve view).getD .unknown
        hasDefault := p.default.isSome }
    result := decl.result.resolve view }

end Declare

end ScriptCheck
