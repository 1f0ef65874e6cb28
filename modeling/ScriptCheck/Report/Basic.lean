import ScriptCheck.Report.Diagnostic
import ScriptCheck.Symbols.Basic

/-!
# Reports

What checking a script brings to light: diagnostics, and for an editor the tokens, inlay hints,
definitions, hover texts and types of the source. Tokens and hints are collected in the order in
which they are met; `Report.finish` brings them into the order of the source.

A query at a byte offset answers for the innermost range around it.
-/

namespace ScriptCheck

/-- What a name in the source stands for. -/
inductive TokenKind where
  | module | type | struct | parameter | var | property | function | method
deriving DecidableEq

/-- Further properties of a name in the source. -/
inductive TokenModifier where
  | declaration | readonly | defaultLibrary
deriving DecidableEq

/-- A name in the source that an editor shows in a color of its own. -/
structure Token where
  kind : TokenKind
  modifiers : List TokenModifier
  range : Range
deriving DecidableEq

/-- A text that an editor shows at a position of the source. -/
structure Hint where
  position : Position
  label : String
deriving DecidableEq

/-- Everything learned about a script. -/
structure Report where
  diagnostics : List Diagnostic := []
  tokens : List Token := []
  hints : List Hint := []
  definitions : Table Range Definition := {}
  hover : Table Range String := {}
  types : Table Range Ty := {}
deriving DecidableEq

/-- The value of the smallest range around a byte offset, the leftmost of equally small ones. -/
def innermost? {α : Type} (entries : List (Range × α)) (offset : Nat) : Option α :=
  let smaller (r s : Range) : Bool :=
    r.length < s.length || (r.length == s.length && r.start.offset < s.start.offset)
  let best := (entries.filter fun e => e.1.contains offset).foldl (fun best e =>
    match best with
    | none => some e
    | some b => if smaller e.1 b.1 then some e else best) none
  best.map Prod.snd

namespace Token

/-- Whether the first token starts earlier, or at the same offset and ends no later. -/
def before (a b : Token) : Bool :=
  a.range.start.offset < b.range.start.offset ||
    (a.range.start.offset == b.range.start.offset && a.range.stop.offset ≤ b.range.stop.offset)

/-- Whether two tokens mark the same range as the same kind. -/
def same (a b : Token) : Bool := a.range == b.range && a.kind == b.kind

/-- Drops each token that is the same as the one kept before it. -/
def dedupAfter (last : Token) : List Token → List Token
  | [] => []
  | t :: rest => if t.same last then dedupAfter last rest else t :: dedupAfter t rest

/-- Drops each token that is the same as the one kept before it. -/
def dedup : List Token → List Token
  | [] => []
  | t :: rest => t :: dedupAfter t rest

end Token

namespace Report

/-- Brings tokens and hints into the order of the source and drops repeated tokens. -/
def finish (r : Report) : Report :=
  { r with
    tokens := Token.dedup (r.tokens.mergeSort Token.before)
    hints := r.hints.mergeSort fun a b => decide (a.position.offset ≤ b.position.offset) }

/-- The errors of a report. -/
def errors (r : Report) : List Diagnostic := r.diagnostics.filter Diagnostic.isError

/-- The warnings of a report. -/
def warnings (r : Report) : List Diagnostic := r.diagnostics.filter fun d => !d.isError

/-- The type of the innermost expression around an offset. -/
def typeAt? (r : Report) (offset : Nat) : Option Ty := innermost? r.types.entries offset

/-- The hover text of the innermost range around an offset. -/
def hoverAt? (r : Report) (offset : Nat) : Option String := innermost? r.hover.entries offset

/-- The definition of the innermost range around an offset. -/
def definitionAt? (r : Report) (offset : Nat) : Option Definition :=
  innermost? r.definitions.entries offset

end Report

end ScriptCheck
