/-!
# Tables

A `Table κ α` is a finite map from keys `κ` to values `α`, kept as the list of its entries. A key
stands in the list once, at the place where it was first entered: `insert` replaces the value of a
key that is present and appends one that is not. Lookup is by the first entry of the key.

The two laws that the rest of the library uses are `get?_insert_self` and `get?_insert_of_ne`.
-/

namespace ScriptCheck

/-- A finite map from keys to values, in the order in which the keys were first entered. -/
structure Table (κ α : Type) where
  entries : List (κ × α) := []
deriving DecidableEq, Inhabited

namespace Table

variable {κ α β : Type}

/-- The table without entries. -/
def empty : Table κ α := ⟨[]⟩

/-- The value of the first entry of `key` in a list of entries. -/
def find? [DecidableEq κ] (key : κ) : List (κ × α) → Option α
  | [] => none
  | (k, v) :: rest => if k = key then some v else find? key rest

/-- Sets the value of `key` in a list of entries, at its old place or else at the end. -/
def put [DecidableEq κ] (key : κ) (value : α) : List (κ × α) → List (κ × α)
  | [] => [(key, value)]
  | (k, v) :: rest => if k = key then (key, value) :: rest else (k, v) :: put key value rest

/-- The value stored under `key`. -/
def get? [DecidableEq κ] (t : Table κ α) (key : κ) : Option α := find? key t.entries

/-- Whether `key` has a value. -/
def contains [DecidableEq κ] (t : Table κ α) (key : κ) : Bool := (t.get? key).isSome

/-- Stores `value` under `key`, in place of any value it had. -/
def insert [DecidableEq κ] (t : Table κ α) (key : κ) (value : α) : Table κ α :=
  ⟨put key value t.entries⟩

/-- Stores `value` under `key` unless `key` already has a value. -/
def insertNew [DecidableEq κ] (t : Table κ α) (key : κ) (value : α) : Table κ α :=
  if t.contains key then t else t.insert key value

/-- The table that enters the given pairs one after the other; of a repeated key the last stays. -/
def ofList [DecidableEq κ] (pairs : List (κ × α)) : Table κ α :=
  pairs.foldl (fun t p => t.insert p.1 p.2) empty

/-- The keys in the order in which they were first entered. -/
def keys (t : Table κ α) : List κ := t.entries.map Prod.fst

/-- The number of entries. -/
def size (t : Table κ α) : Nat := t.entries.length

/-- The entries in the order of their names. -/
def sorted (t : Table String α) : List (String × α) :=
  t.entries.mergeSort fun a b => decide (a.1 ≤ b.1)

theorem find?_put_self [DecidableEq κ] (key : κ) (value : α) (entries : List (κ × α)) :
    find? key (put key value entries) = some value := by
  induction entries with
  | nil => simp [put, find?]
  | cons e rest ih =>
    obtain ⟨k, v⟩ := e
    by_cases h : k = key <;> simp [put, find?, h, ih]

theorem find?_put_of_ne [DecidableEq κ] {key other : κ} (h : other ≠ key) (value : α)
    (entries : List (κ × α)) : find? other (put key value entries) = find? other entries := by
  induction entries with
  | nil => simp [put, find?, Ne.symm h]
  | cons e rest ih =>
    obtain ⟨k, v⟩ := e
    by_cases hk : k = key
    · simp [put, find?, hk, Ne.symm h]
    · simp [put, find?, hk, ih]

@[simp]
theorem get?_empty [DecidableEq κ] (key : κ) : (empty : Table κ α).get? key = none := rfl

/-- A value that was just stored is found. -/
@[simp]
theorem get?_insert_self [DecidableEq κ] (t : Table κ α) (key : κ) (value : α) :
    (t.insert key value).get? key = some value :=
  find?_put_self key value t.entries

/-- Storing a value changes no other key. -/
theorem get?_insert_of_ne [DecidableEq κ] (t : Table κ α) {key other : κ} (h : other ≠ key)
    (value : α) : (t.insert key value).get? other = t.get? other :=
  find?_put_of_ne h value t.entries

end Table

end ScriptCheck
