import ScriptCheck.Json.Writer
import ScriptCheck.Report.Json
import ScriptCheck.Source.LineIndex

/-!
# Diagnostics with their source

A diagnostic is shown to a person as an excerpt of the source with the place marked, and to a tool
as a JSON object on one line.
-/

namespace ScriptCheck

/-- The bytes that a diagnostic marks: its range within the source, widened to one character where
it is empty and the source has one. -/
def Range.marked (r : Range) (sourceLength : Nat) : Nat × Nat :=
  let start := min r.start.offset sourceLength
  let stop := max (min r.stop.offset sourceLength) start
  if start = stop then (start, min (stop + 1) sourceLength) else (start, stop)

namespace Diagnostic

/-- A diagnostic for a tool. The members stand in the order of their names. -/
def toLine (d : Diagnostic) (source fileName : String) : String :=
  let category := d.problem.category
  let (start, stop) := d.range.marked source.utf8ByteSize
  let span : Json := .obj
    [("column", .nat (d.range.start.character + 1)), ("end", .nat stop),
      ("label", .str d.problem.label), ("line", .nat (d.range.start.line + 1)),
      ("start", .nat start)]
  Json.render <| .obj
    [("category", .str category.name), ("code", .str category.code), ("file", .str fileName),
      ("fix", .opt .str d.problem.help?), ("message", .str d.problem.message),
      ("severity", .str d.severity.word), ("spans", .arr [span])]

end Diagnostic

/-! ## Excerpts -/

namespace Excerpt

/-- The characters that end a line: line feed, vertical tab, form feed and carriage return. -/
def isLineEnd (c : Char) : Bool := 10 ≤ c.toNat && c.toNat ≤ 13

/-- The characters that are left out at the end of a line. -/
def isBlank (c : Char) : Bool := c = ' ' || c = '\t' || isLineEnd c

/-- The lines of a source, each with the character that ends it; a carriage return and a line feed
end a line together. What follows the last line end is a line only if it is not empty. -/
def lines : List Char → List (List Char)
  | [] => []
  | '\r' :: '\n' :: rest => ['\r', '\n'] :: lines rest
  | c :: rest =>
    if isLineEnd c then [c] :: lines rest
    else
      match lines rest with
      | [] => [[c]]
      | line :: more => (c :: line) :: more

/-- A place in a source: the line that it falls on, counted from zero, how many characters of the
line stand before it, and the line. -/
structure Place where
  line : Nat
  column : Nat
  text : List Char
deriving DecidableEq

/-- The place at an offset. The end of the source belongs to its last line. -/
def locate : (lines : List (List Char)) → (offset : Nat) → Place
  | [], offset => ⟨0, offset, []⟩
  | [line], offset => ⟨0, offset, line⟩
  | line :: next :: rest, offset =>
    if offset < line.length then ⟨0, offset, line⟩
    else
      let place := locate (next :: rest) (offset - line.length)
      { place with line := place.line + 1 }

/-- A line as it is shown. -/
def shown (line : List Char) : String := String.ofList (line.reverse.dropWhile isBlank).reverse

/-- A character several times. -/
def times (count : Nat) (c : Char) : String := String.ofList (List.replicate count c)

/-- The characters under a line up to two columns beyond the marked ones. -/
def row (column count : Nat) (char : Nat → Char) : String :=
  String.ofList ((List.range (column + count + 2)).map char)

/-- The marks under `count` characters from `column` on. The note hangs from the middle one, and
where there is none from a bar. -/
def markRow (column count : Nat) : String :=
  row column count fun i =>
    if i = column + count / 2 then if count = 0 then '│' else '┬'
    else if column ≤ i ∧ i < column + count then '─'
    else ' '

/-- The line that leads from the middle of the marks to the note. -/
def noteRow (column count : Nat) : String :=
  row column count fun i =>
    if i < column + count / 2 then ' ' else if i = column + count / 2 then '╰' else '─'

end Excerpt

open Excerpt in
/-- An excerpt of the source with the place marked, for a source of single byte characters without
tabs and a place on one line. -/
def Diagnostic.toExcerpt (d : Diagnostic) (source : String) : String :=
  let (start, stop) := d.range.marked source.utf8ByteSize
  let count := stop - start
  let place := locate (lines source.toList) start
  let number := toString (place.line + 1)
  let margin := times (number.length + 2) ' '
  let title := if d.isError then "Error" else "Warning"
  let help := match d.problem.help? with
    | some help => [margin ++ "│ ", margin ++ "│ Help: " ++ help]
    | none => []
  let rows :=
    ["[" ++ d.problem.category.code ++ "] " ++ title ++ ": " ++ d.problem.message,
      margin ++ "╭─[ <unknown>:" ++ number ++ ":" ++ toString (place.column + 1) ++ " ]",
      margin ++ "│",
      " " ++ number ++ " │ " ++ shown place.text,
      margin ++ "│ " ++ markRow place.column count,
      margin ++ "│ " ++ noteRow place.column count ++ " " ++ d.problem.label] ++
    help ++ [times (number.length + 2) '─' ++ "╯"]
  String.join (rows.map (· ++ "\n"))

end ScriptCheck
