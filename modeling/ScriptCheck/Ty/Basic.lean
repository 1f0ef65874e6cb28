import ScriptCheck.Table

/-!
# Types

The types of script expressions. A `Ty.named` is a type exported by a library module, or a type of
the prelude, which belongs to no module; `Ty.applied` is such a type with arguments for its generic
parameters. A record with a name is a struct declared in a script. `Ty.unknown` stands for what
could not be resolved and `Ty.placeholder` for a generic parameter that is still open.

Equality of types is decidable: `Ty.beq` compares two types part by part and `Ty.beq_iff` says that
it decides equality.
-/

namespace ScriptCheck

/-- A type name and the module it belongs to, which is empty for types of the prelude. -/
structure QName where
  module : String
  name : String
deriving DecidableEq, Inhabited

/-- A parameter of a function type. -/
structure Param (α : Type) where
  name : String
  ty : α
  hasDefault : Bool := false
deriving DecidableEq

/-- The parameters and the result of a function, and the generic parameters it leaves open. -/
structure Signature (α : Type) where
  isAsync : Bool := false
  generics : List String := []
  params : List (Param α)
  result : α
deriving DecidableEq

/-- A type. -/
inductive Ty where
  /-- What could not be resolved. It causes no further complaints. -/
  | unknown
  /-- A type of a library module or of the prelude. -/
  | named (name : QName)
  /-- A generic library type with arguments. -/
  | applied (base : QName) (args : List Ty)
  | array (element : Ty)
  | tuple (items : List Ty)
  /-- An anonymous record, or a struct if it has a name. -/
  | record (structName : Option QName) (items : List (String × Ty))
  | option (inner : Ty)
  | result (ok err : Ty)
  | function (signature : Signature Ty)
  /-- A generic parameter that is not bound. -/
  | placeholder (name : String)
deriving Inhabited

/-- Types for generic parameters. -/
abbrev Bindings := Table String Ty

namespace Ty

/-! ## Equality -/

mutual
/-- Compares two types part by part. -/
def beq : Ty → Ty → Bool
  | .unknown, .unknown => true
  | .named a, .named b => a == b
  | .applied a as, .applied b bs => a == b && beqList as bs
  | .array a, .array b => a.beq b
  | .tuple as, .tuple bs => beqList as bs
  | .record m as, .record n bs => m == n && beqItems as bs
  | .option a, .option b => a.beq b
  | .result a c, .result b d => a.beq b && c.beq d
  | .function f, .function g =>
    f.isAsync == g.isAsync && f.generics == g.generics && beqParams f.params g.params &&
      f.result.beq g.result
  | .placeholder a, .placeholder b => a == b
  | _, _ => false
termination_by structural a => a

/-- Compares two lists of types. -/
def beqList : List Ty → List Ty → Bool
  | [], [] => true
  | a :: as, b :: bs => a.beq b && beqList as bs
  | _, _ => false
termination_by structural a => a

/-- Compares two lists of record items. -/
def beqItems : List (String × Ty) → List (String × Ty) → Bool
  | [], [] => true
  | (m, a) :: as, (n, b) :: bs => m == n && a.beq b && beqItems as bs
  | _, _ => false
termination_by structural a => a

/-- Compares two parameter lists. -/
def beqParams : List (Param Ty) → List (Param Ty) → Bool
  | [], [] => true
  | p :: ps, q :: qs =>
    p.name == q.name && p.ty.beq q.ty && p.hasDefault == q.hasDefault && beqParams ps qs
  | _, _ => false
termination_by structural a => a
end

mutual
theorem beq_iff : (a b : Ty) → (a.beq b = true ↔ a = b)
  | .unknown, b => by cases b <;> simp [beq]
  | .named a, b => by cases b <;> simp [beq]
  | .applied a as, b => by cases b <;> simp [beq, beqList_iff as]
  | .array a, b => by cases b <;> simp [beq, beq_iff a]
  | .tuple as, b => by cases b <;> simp [beq, beqList_iff as]
  | .record m as, b => by cases b <;> simp [beq, beqItems_iff as]
  | .option a, b => by cases b <;> simp [beq, beq_iff a]
  | .result a c, b => by cases b <;> simp [beq, beq_iff a, beq_iff c]
  | .function ⟨x, g, ps, r⟩, b => by
    cases b <;> simp [beq]
    rename_i s
    cases s
    simp [beqParams_iff ps, beq_iff r, and_assoc]
  | .placeholder a, b => by cases b <;> simp [beq]

theorem beqList_iff : (as bs : List Ty) → (beqList as bs = true ↔ as = bs)
  | [], bs => by cases bs <;> simp [beqList]
  | a :: as, bs => by cases bs <;> simp [beqList, beq_iff a, beqList_iff as]

theorem beqItems_iff : (as bs : List (String × Ty)) → (beqItems as bs = true ↔ as = bs)
  | [], bs => by cases bs <;> simp [beqItems]
  | (m, a) :: as, bs => by
    cases bs <;> simp [beqItems, beqItems_iff as]
    rename_i h t
    cases h
    simp [beq_iff a]

theorem beqParams_iff : (ps qs : List (Param Ty)) → (beqParams ps qs = true ↔ ps = qs)
  | [], qs => by cases qs <;> simp [beqParams]
  | ⟨m, a, d⟩ :: ps, qs => by
    cases qs <;> simp [beqParams, beqParams_iff ps]
    rename_i h t
    cases h
    simp [beq_iff a, and_assoc]
end

instance : DecidableEq Ty := fun a b => decidable_of_iff _ (beq_iff a b)

/-! ## Common types -/

/-- A type of the prelude. -/
def prelude (name : String) : Ty := .named ⟨"", name⟩

def int : Ty := prelude "int"
def float : Ty := prelude "float"
def bool : Ty := prelude "bool"
def string : Ty := prelude "string"
def unit : Ty := prelude "Unit"
def range : Ty := prelude "Range"

/-- An anonymous record. -/
def anonymous (items : List (String × Ty)) : Ty := .record none items

/-- Positional parameters, which are called `arg0`, `arg1` and so on from `index`. -/
def positional (index : Nat) : List Ty → List (Param Ty)
  | [] => []
  | ty :: rest => ⟨"arg" ++ toString index, ty, false⟩ :: positional (index + 1) rest

/-- A function type with positional parameters. -/
def fn (params : List Ty) (result : Ty) : Ty :=
  .function { params := positional 0 params, result }

/-! ## Queries -/

def isUnknown : Ty → Bool
  | .unknown => true
  | _ => false

def isUnit (t : Ty) : Bool := t == unit

def isBool (t : Ty) : Bool := t == bool

def isFunction : Ty → Bool
  | .function _ => true
  | _ => false

/-- Unknown types and open placeholders go with every type. -/
def isOpen : Ty → Bool
  | .unknown | .placeholder _ => true
  | _ => false

/-- The signature of a function type. -/
def signature? : Ty → Option (Signature Ty)
  | .function signature => some signature
  | _ => none

mutual
/-- The number of type constructors in a type. -/
def size : Ty → Nat
  | .unknown | .named _ | .placeholder _ => 1
  | .applied _ args => 1 + sizeList args
  | .array element => 1 + element.size
  | .tuple items => 1 + sizeList items
  | .record _ items => 1 + sizeItems items
  | .option inner => 1 + inner.size
  | .result ok err => 1 + ok.size + err.size
  | .function s => 1 + sizeParams s.params + s.result.size

/-- The size of a list of types. -/
def sizeList : List Ty → Nat
  | [] => 0
  | t :: rest => t.size + sizeList rest

/-- The size of a list of record items. -/
def sizeItems : List (String × Ty) → Nat
  | [] => 0
  | (_, t) :: rest => t.size + sizeItems rest

/-- The size of a parameter list. -/
def sizeParams : List (Param Ty) → Nat
  | [] => 0
  | p :: rest => p.ty.size + sizeParams rest
end

end Ty

/-- The number of parameters that have no default value. -/
def Signature.required (s : Signature Ty) : Nat := (s.params.filter fun p => !p.hasDefault).length

/-- The type of the first item called `name`. -/
def findItem? (name : String) : List (String × Ty) → Option Ty
  | [] => none
  | (n, t) :: rest => if n = name then some t else findItem? name rest

end ScriptCheck
