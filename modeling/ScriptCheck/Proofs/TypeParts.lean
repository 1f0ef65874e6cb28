import Mathlib.Data.List.Basic
import ScriptCheck.Ty.Basic

/-!
# The parts of a type

`Ty.children` lists the types that stand directly below a type and `Ty.parts` all types inside it,
itself included, one for each type constructor. The parts of a type are closed under children, and
a child is smaller than its parent; `Ty.children_induction` is the induction that follows.
-/

namespace ScriptCheck.Ty

/-- The types directly below a type, in the order in which they are written. -/
def children : Ty → List Ty
  | .unknown | .named _ | .placeholder _ => []
  | .applied _ args => args
  | .array element => [element]
  | .tuple items => items
  | .record _ items => items.map Prod.snd
  | .option inner => [inner]
  | .result ok err => [ok, err]
  | .function s => s.params.map Param.ty ++ [s.result]

@[simp]
theorem map_ty_positional (index : Nat) (ts : List Ty) :
    (positional index ts).map Param.ty = ts := by
  induction ts generalizing index with
  | nil => rfl
  | cons t rest ih => simp [positional, ih]

/-! ## Sizes -/

theorem sizeItems_eq (items : List (String × Ty)) :
    sizeItems items = sizeList (items.map Prod.snd) := by
  induction items with
  | nil => rfl
  | cons item rest ih => simp [sizeItems, sizeList, ih]

theorem sizeParams_eq (params : List (Param Ty)) :
    sizeParams params = sizeList (params.map Param.ty) := by
  induction params with
  | nil => rfl
  | cons p rest ih => simp [sizeParams, sizeList, ih]

theorem sizeList_append (as bs : List Ty) : sizeList (as ++ bs) = sizeList as + sizeList bs := by
  induction as with
  | nil => simp [sizeList]
  | cons a rest ih => simp [sizeList, ih, Nat.add_assoc]

/-- A type is one constructor more than its children. -/
theorem size_eq (t : Ty) : t.size = 1 + sizeList t.children := by
  cases t with
  | function s =>
    simp only [size, children, sizeParams_eq, sizeList_append, sizeList]
    omega
  | record name items => rw [size, children, sizeItems_eq]
  | result ok err =>
    simp only [size, children, sizeList]
    omega
  | _ => simp [size, children, sizeList]

theorem size_le_sizeList {t : Ty} : {ts : List Ty} → t ∈ ts → t.size ≤ sizeList ts
  | u :: rest, h => by
    rw [sizeList]
    rcases List.mem_cons.1 h with rfl | h
    · omega
    · have := size_le_sizeList h
      omega

theorem size_lt_of_mem_children {t c : Ty} (h : c ∈ t.children) : c.size < t.size := by
  rw [size_eq t]
  have := size_le_sizeList h
  omega

theorem size_pos (t : Ty) : 0 < t.size := by
  rw [size_eq]
  omega

/-- Induction on types: what holds of a type whenever it holds of its children holds of all. -/
theorem children_induction {P : Ty → Prop} (h : ∀ t, (∀ c ∈ t.children, P c) → P t) (t : Ty) :
    P t :=
  h t fun c hc =>
    have := size_lt_of_mem_children hc
    children_induction h c
termination_by t.size

/-! ## Parts -/

mutual
/-- All types inside a type, itself first. -/
def parts : Ty → List Ty
  | .unknown => [.unknown]
  | .named q => [.named q]
  | .placeholder name => [.placeholder name]
  | .applied base args => .applied base args :: partsList args
  | .array element => .array element :: element.parts
  | .tuple items => .tuple items :: partsList items
  | .record name items => .record name items :: partsItems items
  | .option inner => .option inner :: inner.parts
  | .result ok err => .result ok err :: (ok.parts ++ err.parts)
  | .function s => .function s :: (partsParams s.params ++ s.result.parts)

/-- All types inside the types of a list. -/
def partsList : List Ty → List Ty
  | [] => []
  | t :: rest => t.parts ++ partsList rest

/-- All types inside the types of record items. -/
def partsItems : List (String × Ty) → List Ty
  | [] => []
  | (_, t) :: rest => t.parts ++ partsItems rest

/-- All types inside the types of parameters. -/
def partsParams : List (Param Ty) → List Ty
  | [] => []
  | p :: rest => p.ty.parts ++ partsParams rest
end

theorem partsList_eq (ts : List Ty) : partsList ts = ts.flatMap parts := by
  induction ts with
  | nil => rfl
  | cons t rest ih => simp [partsList, ih]

theorem partsItems_eq (items : List (String × Ty)) :
    partsItems items = (items.map Prod.snd).flatMap parts := by
  induction items with
  | nil => rfl
  | cons item rest ih => simp [partsItems, ih]

theorem partsParams_eq (params : List (Param Ty)) :
    partsParams params = (params.map Param.ty).flatMap parts := by
  induction params with
  | nil => rfl
  | cons p rest ih => simp [partsParams, ih]

/-- The parts of a type are itself and the parts of its children. -/
theorem parts_eq (t : Ty) : t.parts = t :: t.children.flatMap parts := by
  cases t <;> simp [parts, children, partsList_eq, partsItems_eq, partsParams_eq]

theorem mem_parts_self (t : Ty) : t ∈ t.parts := by
  rw [parts_eq]
  exact List.mem_cons_self

theorem length_flatMap_parts (ts : List Ty) (h : ∀ t ∈ ts, t.parts.length = t.size) :
    (ts.flatMap parts).length = sizeList ts := by
  induction ts with
  | nil => rfl
  | cons t rest ih =>
    rw [List.flatMap_cons, List.length_append, sizeList, h t List.mem_cons_self,
      ih fun u hu => h u (List.mem_cons_of_mem t hu)]

/-- A type has one part for each of its constructors. -/
@[simp]
theorem length_parts (t : Ty) : t.parts.length = t.size := by
  induction t using children_induction with
  | h t ih =>
    rw [parts_eq, size_eq, List.length_cons, length_flatMap_parts t.children ih]
    omega

/-- The children of a part are parts. -/
theorem mem_parts_of_mem_children {t u c : Ty} (hu : u ∈ t.parts) (hc : c ∈ u.children) :
    c ∈ t.parts := by
  induction t using children_induction with
  | h t ih =>
    rw [parts_eq, List.mem_cons, List.mem_flatMap] at hu ⊢
    rcases hu with rfl | ⟨d, hd, hu⟩
    · exact Or.inr ⟨c, hc, mem_parts_self c⟩
    · exact Or.inr ⟨d, hd, ih d hd hu⟩

end ScriptCheck.Ty
