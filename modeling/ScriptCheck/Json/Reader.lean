import ScriptCheck.Json.Number

/-!
# Reading JSON

The reader is an automaton that takes a text one character at a time. Its state is a stack of the
containers that are still open and a `Mode` that says what may come next. `Json.read?` runs it over
a text; it gives nothing for a text that is not exactly one JSON value, that has a raw control
character or half a surrogate pair in a string, that has a number too large for a double, or that
opens more containers at once than allowed.

`Json.readMembers?` is for a caller that uses only some members of the outermost object. The others
are left out of the value. They have to be well formed, but since their values are never built they
may hold halves of surrogate pairs and numbers of any size, and may nest to any depth.
-/

namespace ScriptCheck.Json

/-- A container that is open: an array or an object with what it holds so far, latest first, an
object whose member `key` is being read, or an object while a member is passed over. -/
inductive Frame where
  | items (read : List Json)
  | members (read : List (String × Json))
  | member (read : List (String × Json)) (key : String)
  | skipped (read : List (String × Json))

/-- What the reader is in the middle of. Characters read so far stand latest first. -/
inductive Mode where
  /-- Before a value. -/
  | value
  /-- After an opening bracket: a value or the closing bracket. -/
  | firstItem
  /-- After an opening brace: a name or the closing brace. -/
  | firstName
  /-- After a comma in an object: a name. -/
  | name
  /-- After the name of a member. -/
  | colon (key : String)
  /-- After a value inside a container. -/
  | next
  /-- After the whole value. -/
  | done (json : Json)
  /-- Inside a string. -/
  | text (isName : Bool) (read : List Char)
  /-- After a backslash inside a string. -/
  | escape (isName : Bool) (read : List Char)
  /-- Inside the four digits of an escape; `high` is a leading surrogate that came before. -/
  | hex (isName : Bool) (read : List Char) (high : Option Nat) (value count : Nat)
  /-- After a leading surrogate: the backslash and then the mark of the escape that follows. -/
  | surrogate (isName : Bool) (read : List Char) (high : Nat) (backslash : Bool)
  /-- Inside a number. -/
  | number (read : List Char)
  /-- Inside one of the three literal names. -/
  | literal (read : List Char)

/-- The reader between two characters. It is `skipping` inside a member that is passed over. -/
structure State where
  mode : Mode := .value
  stack : List Frame := []
  skipping : Bool := false

/-- How a text is to be read: how many containers may be open at once, and which members of the
outermost object are of use. -/
structure Plan where
  limit : Nat
  keep : String → Bool := fun _ => true

/-- The four white space characters. -/
def isBlank (c : Char) : Bool := c = ' ' || c = '\n' || c = '\r' || c = '\t'

/-- The characters that a number text is made of. -/
def isNumeric (c : Char) : Bool :=
  (digit? c).isSome || c = '-' || c = '+' || c = '.' || c = 'e' || c = 'E'

/-- The value of a hexadecimal digit. -/
def hexValue? (c : Char) : Option Nat :=
  if '0' ≤ c ∧ c ≤ '9' then some (c.toNat - '0'.toNat)
  else if 'a' ≤ c ∧ c ≤ 'f' then some (c.toNat - 'a'.toNat + 10)
  else if 'A' ≤ c ∧ c ≤ 'F' then some (c.toNat - 'A'.toNat + 10)
  else none

/-- The value of a literal name. -/
def literal? (text : String) : Option Json :=
  if text = "null" then some .null
  else if text = "true" then some (.bool true)
  else if text = "false" then some (.bool false)
  else none

namespace State

/-- Goes on in another mode. -/
def become (state : State) (mode : Mode) : State := { state with mode := mode }

/-- Opens a container. -/
def enter (state : State) (mode : Mode) (frame : Frame) : State :=
  { state with mode := mode, stack := frame :: state.stack }

/-- Puts a complete value into the innermost open container of `stack`. A value that is passed over
goes nowhere, and with it the passing over ends. -/
def complete (state : State) (stack : List Frame) (json : Json) : Option State :=
  match stack with
  | [] => some { state with mode := .done json, stack := [] }
  | .items read :: rest => some { state with mode := .next, stack := .items (json :: read) :: rest }
  | .member read key :: rest =>
    some { state with mode := .next, stack := .members ((key, json) :: read) :: rest }
  | .skipped read :: rest =>
    some { mode := .next, stack := .members read :: rest, skipping := false }
  | .members _ :: _ => none

/-- Ends the innermost open container, which `bracket` closes. -/
def close (state : State) (bracket : Char) : Option State :=
  match state.stack with
  | .items read :: rest =>
    if bracket = ']' then state.complete rest (.arr read.reverse) else none
  | .members read :: rest =>
    if bracket = '\x7d' then state.complete rest (.obj read.reverse) else none
  | _ => none

/-- Ends a string, which is the name of a member or a value. -/
def closeText (state : State) (isName : Bool) (read : List Char) : Option State :=
  let text := String.ofList read.reverse
  if isName then some (state.become (.colon text)) else state.complete state.stack (.str text)

/-- Ends a number. One that is passed over only has to have the form of a number. -/
def closeNumber (state : State) (read : List Char) : Option State :=
  if state.skipping then
    if isNumber read.reverse then state.complete state.stack .null else none
  else (number? read.reverse).bind (state.complete state.stack)

/-- Ends a literal name. -/
def closeLiteral (state : State) (read : List Char) : Option State :=
  (literal? (String.ofList read.reverse)).bind (state.complete state.stack)

/-- Whether one more container may be opened. -/
def mayOpen (state : State) (limit : Nat) : Bool :=
  state.skipping || decide (state.stack.length < limit)

/-- The first character of a value. -/
def openValue (limit : Nat) (state : State) (c : Char) : Option State :=
  if c = '"' then some (state.become (.text false []))
  else if c = '[' then
    if state.mayOpen limit then some (state.enter .firstItem (.items [])) else none
  else if c = '\x7b' then
    if state.mayOpen limit then some (state.enter .firstName (.members [])) else none
  else if (digit? c).isSome || c = '-' then some (state.become (.number [c]))
  else if c.isAlpha then some (state.become (.literal [c]))
  else none

/-- The colon after the name `key`. A member of the outermost object that is of no use is passed
over. -/
def openMember (keep : String → Bool) (state : State) (key : String) : Option State :=
  match state.stack with
  | .members read :: rest =>
    if rest.isEmpty && !keep key then
      some { mode := .value, stack := [.skipped read], skipping := true }
    else some { state with mode := .value, stack := .member read key :: rest }
  | _ => none

/-- A character after a complete value. -/
def afterValue (state : State) (c : Char) : Option State :=
  if isBlank c then some state
  else
    match state.stack with
    | .items _ :: _ => if c = ',' then some (state.become .value) else state.close c
    | .members _ :: _ => if c = ',' then some (state.become .name) else state.close c
    | _ => none

/-- The end of a four digit escape: a character, the first half of a surrogate pair or, after a
first half, the second one. In a text that is passed over the halves need not match. -/
def closeEscape (state : State) (isName : Bool) (read : List Char) (high : Option Nat)
    (value : Nat) : Option State :=
  let isLow := 0xDC00 ≤ value ∧ value ≤ 0xDFFF
  if state.skipping then some (state.become (.text isName (Char.ofNat value :: read)))
  else
    match high with
    | some h =>
      if isLow then
        let c := Char.ofNat (0x10000 + (h - 0xD800) * 0x400 + (value - 0xDC00))
        some (state.become (.text isName (c :: read)))
      else none
    | none =>
      if isLow then none
      else if 0xD800 ≤ value ∧ value ≤ 0xDBFF then
        some (state.become (.surrogate isName read value false))
      else some (state.become (.text isName (Char.ofNat value :: read)))

end State

/-- The character that an escape of one letter stands for. -/
def unescape? (c : Char) : Option Char :=
  if c = '"' || c = '\\' || c = '/' then some c
  else if c = 'n' then some '\n'
  else if c = 'r' then some '\r'
  else if c = 't' then some '\t'
  else if c = 'b' then some (Char.ofNat 8)
  else if c = 'f' then some (Char.ofNat 12)
  else none

/-- Takes one character of a text. -/
def step (plan : Plan) (state : State) (c : Char) : Option State :=
  match state.mode with
  | .value => if isBlank c then some state else state.openValue plan.limit c
  | .firstItem =>
    if isBlank c then some state
    else if c = ']' then state.close c
    else state.openValue plan.limit c
  | .firstName =>
    if isBlank c then some state
    else if c = '"' then some (state.become (.text true []))
    else if c = '\x7d' then state.close c
    else none
  | .name =>
    if isBlank c then some state
    else if c = '"' then some (state.become (.text true []))
    else none
  | .colon key =>
    if isBlank c then some state
    else if c = ':' then state.openMember plan.keep key
    else none
  | .next | .done _ => state.afterValue c
  | .text isName read =>
    if c = '"' then state.closeText isName read
    else if c = '\\' then some (state.become (.escape isName read))
    else if c.toNat < 32 then none
    else some (state.become (.text isName (c :: read)))
  | .escape isName read =>
    if c = 'u' then some (state.become (.hex isName read none 0 0))
    else (unescape? c).map fun c => state.become (.text isName (c :: read))
  | .hex isName read high value count =>
    match hexValue? c with
    | none => none
    | some d =>
      let value := value * 16 + d
      if count = 3 then state.closeEscape isName read high value
      else some (state.become (.hex isName read high value (count + 1)))
  | .surrogate isName read high backslash =>
    if backslash then
      if c = 'u' then some (state.become (.hex isName read (some high) 0 0)) else none
    else if c = '\\' then some (state.become (.surrogate isName read high true))
    else none
  | .number read =>
    if isNumeric c then some (state.become (.number (c :: read)))
    else (state.closeNumber read).bind fun s => s.afterValue c
  | .literal read =>
    if c.isAlpha then some (state.become (.literal (c :: read)))
    else (state.closeLiteral read).bind fun s => s.afterValue c

/-- Takes the characters of a text one after the other. -/
def run (plan : Plan) : State → List Char → Option State
  | state, [] => some state
  | state, c :: rest =>
    match step plan state c with
    | none => none
    | some next => run plan next rest

/-- The value that a text has ended with. -/
def finish (state : State) : Option Json :=
  match state.mode, state.stack with
  | .done json, [] => some json
  | .number read, [] => number? read.reverse
  | .literal read, [] => literal? (String.ofList read.reverse)
  | _, _ => none

/-- Reads a text that keeps to `plan`. -/
def readBy? (plan : Plan) (text : String) : Option Json :=
  (run plan {} text.toList).bind finish

/-- Reads a text with at most `limit` containers open at once. -/
def readWithin? (limit : Nat) (text : String) : Option Json := readBy? { limit := limit } text

/-- Reads a text that nests no deeper than `maxDepth`. -/
def read? (text : String) : Option Json := readWithin? maxDepth text

/-- Reads a text of which only some members of the outermost object are of use. -/
def readMembers? (keep : String → Bool) (text : String) : Option Json :=
  readBy? { limit := maxDepth, keep := keep } text

end ScriptCheck.Json
