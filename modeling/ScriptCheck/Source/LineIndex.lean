import ScriptCheck.Source.Position

/-!
# Line index

A `LineIndex` of a source text knows the byte offset at which each line starts and turns byte
offsets into positions. Offsets past the end stand for the end. The character of a position is the
number of UTF-16 units between the start of its line and the offset; for an offset in the middle of
a character it is the number of bytes.
-/

namespace ScriptCheck

/-- The number of UTF-16 units of a character. -/
def utf16Size (c : Char) : Nat := if c.toNat < 0x10000 then 1 else 2

/-- The byte offsets at which the lines after the first begin, for a text that starts at
`offset`. -/
def lineStartsFrom (offset : Nat) : List Char → List Nat
  | [] => []
  | c :: rest =>
    let next := offset + c.utf8Size
    if c = '\n' then next :: lineStartsFrom next rest else lineStartsFrom next rest

/-- The size of a text as the sum of the sizes of its characters. -/
def sizeBy (size : Char → Nat) : List Char → Nat
  | [] => 0
  | c :: rest => size c + sizeBy size rest

/-- The characters in the first `count` bytes, unless the last one is cut. -/
def takeBytes? : Nat → List Char → Option (List Char)
  | 0, _ => some []
  | _ + 1, [] => none
  | count, c :: rest =>
    if c.utf8Size ≤ count then (takeBytes? (count - c.utf8Size) rest).map (c :: ·) else none

/-- The text after the first `count` bytes, which end at a character. -/
def dropBytes : Nat → List Char → List Char
  | 0, text => text
  | _ + 1, [] => []
  | count, c :: rest => dropBytes (count - c.utf8Size) rest

/-- A source text with the byte offsets of its line starts, the first of which is zero. -/
structure LineIndex where
  source : List Char
  starts : List Nat

namespace LineIndex

/-- The index of a text. -/
def ofString (source : String) : LineIndex :=
  ⟨source.toList, 0 :: lineStartsFrom 0 source.toList⟩

/-- The length of the text in bytes. -/
def byteLength (index : LineIndex) : Nat := sizeBy Char.utf8Size index.source

/-- The number of lines. -/
def lineCount (index : LineIndex) : Nat := index.starts.length

/-- The line that an offset lies in: the last one that starts at or before it. -/
def lineOf (index : LineIndex) (offset : Nat) : Nat :=
  (index.starts.takeWhile (· ≤ offset)).length - 1

/-- The position of a byte offset. -/
def position (index : LineIndex) (offset : Nat) : Position :=
  let offset := min offset index.byteLength
  let line := index.lineOf offset
  let start := index.starts.getD line 0
  let character :=
    match takeBytes? (offset - start) (dropBytes start index.source) with
    | some text => sizeBy utf16Size text
    | none => offset - start
  ⟨offset, line, character⟩

/-- The range between two byte offsets, which must be in order. -/
def range (index : LineIndex) (start stop : Nat) : Except ReversedRange Range :=
  Range.make (index.position start) (index.position stop)

end LineIndex

end ScriptCheck
