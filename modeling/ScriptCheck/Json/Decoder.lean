import ScriptCheck.Json.Basic
import ScriptCheck.Table

/-!
# Decoding JSON values

A decoder accepts a JSON value as a value of a type, or refuses it. There are no conversions: a real
is no integer, even without a fraction, and numbers have to fit the word they are meant for.

A record is an object with its members, in any order, or an array with the values of its members in
the order in which the record declares them. In an object, members that a decoder does not ask for
are ignored, and one that it asks for may stand only once. In an array, members may be missing at
the end only.

A node of a tree says which form it has: in an object by the member `kind`, in an array by its first
value. Decoders of trees are written for one level, given the decoder of the levels below;
`Decoder.nested` ties the knot for values up to a given depth, and `Decoder.tree` for all.
-/

namespace ScriptCheck

/-- A way to accept JSON values as values of type `α`. -/
abbrev Decoder (α : Type) := Json → Option α

namespace Decoder

variable {α β : Type}

/-! ## Scalars and lists -/

/-- Accepts a text. -/
def string : Decoder String
  | .str s => some s
  | _ => none

/-- Accepts a truth value. -/
def bool : Decoder Bool
  | .bool b => some b
  | _ => none

/-- Accepts a natural number of 32 bits. -/
def word : Decoder Nat
  | .int n => if 0 ≤ n ∧ n < 4294967296 then some n.toNat else none
  | _ => none

/-- Accepts an integer of 64 bits. -/
def integer : Decoder Int
  | .int n => if -9223372036854775808 ≤ n ∧ n < 9223372036854775808 then some n else none
  | _ => none

/-- Accepts any number. -/
def real : Decoder Float
  | .real x => some x
  | .int n => some (Float.ofInt n)
  | _ => none

/-- Accepts every value of a list, or else refuses the list. -/
def all (decode : Decoder α) : List Json → Option (List α)
  | [] => some []
  | json :: rest => do return (← decode json) :: (← all decode rest)

/-- Accepts an array. -/
def list (decode : Decoder α) : Decoder (List α)
  | .arr items => all decode items
  | _ => none

/-- Accepts every value among the members of an object. -/
def allMembers (decode : Decoder α) : List (String × Json) → Option (List (String × α))
  | [] => some []
  | (key, json) :: rest => do return (key, ← decode json) :: (← allMembers decode rest)

/-- Accepts an object as a table, in the order of its keys. -/
def table (decode : Decoder α) : Decoder (Table String α)
  | .obj members => do return ⟨(Table.ofList (← allMembers decode members)).sorted⟩
  | _ => none

/-! ## Members -/

/-- Accepts a value that may be `null`. -/
def nullable (decode : Decoder α) : Decoder (Option α)
  | .null => some none
  | json => (decode json).map some

/-- A member of an object that has to be there. -/
def member (key : String) (decode : Decoder α) : Decoder α
  | .obj members =>
    match Json.findOnce? key members with
    | some (some value) => decode value
    | _ => none
  | _ => none

/-- A member of an object that may be missing. -/
def memberD (key : String) (decode : Decoder α) (default : α) : Decoder α
  | .obj members =>
    match Json.findOnce? key members with
    | some (some value) => decode value
    | some none => some default
    | none => none
  | _ => none

/-- A member of an object that may be missing or `null`. -/
def member? (key : String) (decode : Decoder α) : Decoder (Option α) :=
  memberD key (nullable decode) none

/-- A record with the given members. An array gives their values in this order. -/
def keyed (keys : List String) (decode : Decoder α) : Decoder α
  | .arr items => if items.length ≤ keys.length then decode (.obj (keys.zip items)) else none
  | json => decode json

@[simp] theorem keyed_obj (keys : List String) (decode : Decoder α)
    (members : List (String × Json)) : keyed keys decode (.obj members) = decode (.obj members) :=
  rfl

/-! ## Trees -/

/-- Accepts the name of a form. -/
def formName (kinds : List String) : Decoder String
  | .str s => if kinds.contains s then some s else none
  | _ => none

/-- Accepts the name of a form or its place among all forms. -/
def formIndex (kinds : List String) : Decoder String
  | .int n => if 0 ≤ n then kinds[n.toNat]? else none
  | json => formName kinds json

/-- The form of a node, and the value that holds its members. -/
def node (form : Decoder String) : Decoder (String × Json)
  | .arr (kind :: rest) => (form kind).map fun name => (name, .arr rest)
  | json => (member "kind" form json).map fun name => (name, json)

@[simp] theorem node_obj (form : Decoder String) (members : List (String × Json)) :
    node form (.obj members) =
      (member "kind" form (.obj members)).map fun name => (name, .obj members) :=
  rfl

/-- Ties a decoder for one level to itself, for values of limited depth. -/
def nested (level : Decoder α → Decoder α) : (depth : Nat) → Decoder α
  | 0 => fun _ => none
  | depth + 1 => level (nested level depth)

/-- Ties a decoder for one level to itself. The depth of the value is enough, because the levels
below lie in its members. -/
def tree (level : Decoder α → Decoder α) : Decoder α := fun json => nested level json.depth json

end Decoder

end ScriptCheck
