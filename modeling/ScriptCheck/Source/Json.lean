import ScriptCheck.Json.Decoder
import ScriptCheck.Source.Position

/-!
# Positions and ranges in JSON

A range is an object with a start and an end, each with its three numbers.
-/

namespace ScriptCheck

namespace Position

/-- The three numbers of a position under their names. -/
def toJson (p : Position) : Json :=
  .obj [("offset", .nat p.offset), ("line", .nat p.line), ("character", .nat p.character)]

/-- Accepts a position whose numbers have 32 bits. -/
def ofJson? : Decoder Position := Decoder.keyed ["offset", "line", "character"] fun json => do
  return {
    offset := ← Decoder.member "offset" Decoder.word json
    line := ← Decoder.member "line" Decoder.word json
    character := ← Decoder.member "character" Decoder.word json }

end Position

namespace Range

/-- The two ends of a range. -/
def toJson (r : Range) : Json := .obj [("start", r.start.toJson), ("end", r.stop.toJson)]

/-- Accepts a range; it may be reversed. -/
def ofJson? : Decoder Range := Decoder.keyed ["start", "end"] fun json => do
  return {
    start := ← Decoder.member "start" Position.ofJson? json
    stop := ← Decoder.member "end" Position.ofJson? json }

end Range

end ScriptCheck
