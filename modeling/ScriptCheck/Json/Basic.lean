/-!
# JSON values

A JSON value with the distinction that readers of scripts and library descriptions rely on: a
number written without fraction and exponent is an integer, any other number is a real. Members of
an object keep the order in which they were written.

`Json.depth` counts nested containers, the outermost one being level 1. Texts may nest at most
`Json.maxDepth` levels deep.
-/

namespace ScriptCheck

/-- A JSON value. -/
inductive Json where
  | null
  | bool (value : Bool)
  | int (value : Int)
  | real (value : Float)
  | str (value : String)
  | arr (items : List Json)
  | obj (members : List (String × Json))
deriving Inhabited

namespace Json

/-- How many containers a text may nest. -/
def maxDepth : Nat := 127

mutual
/-- The number of containers around the innermost scalar, the value itself included. -/
def depth : Json → Nat
  | .arr items => 1 + depthItems items
  | .obj members => 1 + depthMembers members
  | _ => 0

/-- The greatest depth among the items of an array. -/
def depthItems : List Json → Nat
  | [] => 0
  | item :: rest => max item.depth (depthItems rest)

/-- The greatest depth among the values of an object. -/
def depthMembers : List (String × Json) → Nat
  | [] => 0
  | (_, value) :: rest => max value.depth (depthMembers rest)
end

/-- The value of the first member called `key`. -/
def find? (key : String) : List (String × Json) → Option Json
  | [] => none
  | (k, value) :: rest => if k = key then some value else find? key rest

/-- The member `key` of an object. -/
def get? (json : Json) (key : String) : Option Json :=
  match json with
  | .obj members => find? key members
  | _ => none

/-- The member `key` among members, where it may stand at most once. The outer level is empty if it
stands more often, the inner one if it is missing. -/
def findOnce? (key : String) : List (String × Json) → Option (Option Json)
  | [] => some none
  | (k, value) :: rest =>
    if k = key then if (find? key rest).isNone then some (some value) else none
    else findOnce? key rest

/-- An object with only some of its members. -/
def restrict (keep : String → Bool) : Json → Json
  | .obj members => .obj (members.filter fun m => keep m.1)
  | json => json

/-- A list of texts. -/
def strs (texts : List String) : Json := .arr (texts.map .str)

/-- A natural number. -/
def nat (n : Nat) : Json := .int n

/-- A value, or `null` in its absence. -/
def opt {α : Type} (encode : α → Json) : Option α → Json
  | none => .null
  | some a => encode a

end Json

end ScriptCheck
