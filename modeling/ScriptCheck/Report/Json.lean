import ScriptCheck.Report.Basic
import ScriptCheck.Source.Json

/-!
# Reports in JSON

How diagnostics, tokens, hints and definitions are handed to an editor.
-/

namespace ScriptCheck

/-- The word for a severity. -/
def Severity.word : Severity → String
  | .warn => "warn"
  | .error => "error"

/-- The word for a kind of token. -/
def TokenKind.word : TokenKind → String
  | .module => "namespace"
  | .type => "type"
  | .struct => "struct"
  | .parameter => "parameter"
  | .var => "variable"
  | .property => "property"
  | .function => "function"
  | .method => "method"

/-- The word for a property of a token. -/
def TokenModifier.word : TokenModifier → String
  | .declaration => "declaration"
  | .readonly => "readonly"
  | .defaultLibrary => "defaultLibrary"

/-- A definition: the module and the range in it. -/
def Definition.toJson (d : Definition) : Json :=
  .obj [("moduleName", .str d.moduleName), ("range", d.range.toJson)]

/-- A diagnostic with its category, code and message. -/
def Diagnostic.toJson (d : Diagnostic) : Json :=
  let category := d.problem.category
  .obj
    [("status", .str d.severity.word), ("category", .str category.name),
      ("code", .str category.code), ("message", .str d.problem.message),
      ("range", d.range.toJson)]

/-- A token. Modifiers are left out if there are none. -/
def Token.toJson (t : Token) : Json :=
  .obj
    ([("type", .str t.kind.word)] ++
      (if t.modifiers.isEmpty then []
        else [("modifiers", .strs (t.modifiers.map TokenModifier.word))]) ++
      [("range", t.range.toJson)])

/-- A hint: the position and the text shown there. -/
def Hint.toJson (h : Hint) : Json :=
  .obj [("position", h.position.toJson), ("label", .str h.label)]

end ScriptCheck
