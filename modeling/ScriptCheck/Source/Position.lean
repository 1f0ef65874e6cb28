/-!
# Positions and ranges

A position is a byte offset into a source text, together with the line and the character that an
editor shows for it: both count from zero, characters in UTF-16 units. Positions are ordered by
offset, then line, then character.

A range is half open. Ranges are handed in from outside and may be reversed; a reversed range is
empty and covers nothing. `Range.make` is the constructor that insists on the right order.
-/

namespace ScriptCheck

/-- A place in a source text. -/
structure Position where
  offset : Nat := 0
  line : Nat := 0
  character : Nat := 0
deriving DecidableEq, Inhabited

namespace Position

/-- The order of positions: by offset, then by line, then by character. -/
def compare (p q : Position) : Ordering :=
  (Ord.compare p.offset q.offset).then
    ((Ord.compare p.line q.line).then (Ord.compare p.character q.character))

/-- Whether `p` comes before `q` or is `q`. -/
def before (p q : Position) : Bool := compare p q != .gt

/-- The earlier of two positions. -/
def min (p q : Position) : Position := if p.before q then p else q

/-- The later of two positions. -/
def max (p q : Position) : Position := if p.before q then q else p

end Position

/-- A half-open stretch of source text, from `start` up to and without `stop`. -/
structure Range where
  start : Position := {}
  stop : Position := {}
deriving DecidableEq, Inhabited

/-- A range whose start offset lies beyond its stop offset. -/
structure ReversedRange where
  start : Nat
  stop : Nat
deriving DecidableEq

/-- The wording of the complaint about a reversed range. -/
def ReversedRange.message (e : ReversedRange) : String :=
  "range start (" ++ toString e.start ++ ") must be <= end (" ++ toString e.stop ++ ")"

namespace Range

/-- The range between two positions, which must be in order. The refusal of a reversed range is a
debug assertion: a build without such assertions lets the range pass. -/
def make (start stop : Position) : Except ReversedRange Range :=
  if start.offset ≤ stop.offset then .ok ⟨start, stop⟩ else .error ⟨start.offset, stop.offset⟩

/-- The length in bytes, zero for a reversed range. -/
def length (r : Range) : Nat := r.stop.offset - r.start.offset

/-- Whether start and stop have the same offset. -/
def isEmpty (r : Range) : Bool := r.start.offset == r.stop.offset

/-- The smallest range that covers both. -/
def merge (r s : Range) : Range := ⟨r.start.min s.start, r.stop.max s.stop⟩

/-- The first `count` bytes of a range that starts on a single line, at most all of it. Each byte
counts as a character, which is right for ASCII text only. -/
def leading (r : Range) (count : Nat) : Range :=
  let n := Nat.min count r.length
  ⟨r.start, ⟨r.start.offset + n, r.start.line, r.start.character + n⟩⟩

/-- Whether a byte offset lies inside. -/
def contains (r : Range) (offset : Nat) : Bool :=
  decide (r.start.offset ≤ offset) && decide (offset < r.stop.offset)

/-- The order of ranges: by start, then by stop. -/
def compare (r s : Range) : Ordering := (r.start.compare s.start).then (r.stop.compare s.stop)

end Range

end ScriptCheck
