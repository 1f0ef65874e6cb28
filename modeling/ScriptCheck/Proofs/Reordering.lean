import Mathlib.Data.List.FinRange
import Mathlib.Data.List.Perm.Basic
import Mathlib.Order.Basic

/-!
# Reordering a list by exchanges

A list can be brought into another order by exchanging neighbours. If only some neighbours may be
exchanged, those that are `free` of each other, the orders that can be reached are the permutations
in which every two members that change sides are free (`Reordered.of_perm`): the first member is
brought to its place by exchanging it with each of those that are to stand before it.
-/

namespace ScriptCheck

/-- One list comes from the other by exchanging neighbours that are free of each other. -/
inductive Reordered {α : Type} (free : α → α → Prop) : List α → List α → Prop
  | nil : Reordered free [] []
  | cons (x : α) {xs ys : List α} : Reordered free xs ys → Reordered free (x :: xs) (x :: ys)
  | swap {x y : α} (h : free x y) (xs : List α) : Reordered free (x :: y :: xs) (y :: x :: xs)
  | trans {xs ys zs : List α} : Reordered free xs ys → Reordered free ys zs →
      Reordered free xs zs

namespace Reordered

variable {α ι : Type} {free : α → α → Prop}

theorem refl : (xs : List α) → Reordered free xs xs
  | [] => .nil
  | x :: xs => .cons x (refl xs)

theorem perm {xs ys : List α} (h : Reordered free xs ys) : xs.Perm ys := by
  induction h with
  | nil => exact .nil
  | cons x _ ih => exact ih.cons x
  | swap _ xs => exact .swap _ _ xs
  | trans _ _ ih₁ ih₂ => exact ih₁.trans ih₂

/-- A member passes those that it is free of. -/
theorem move (x : α) (post : List α) : (pre : List α) → (∀ y ∈ pre, free x y) →
    Reordered free (x :: (pre ++ post)) (pre ++ x :: post)
  | [], _ => .refl _
  | y :: pre, h =>
    .trans (.swap (h y List.mem_cons_self) _)
      (.cons y (move x post pre fun z hz => h z (List.mem_cons_of_mem _ hz)))

/-- A permutation of ordered indices reorders what they stand for, if every two members that change
sides are free of each other. -/
theorem of_perm [Preorder ι] (f : ι → α) : {is js : List ι} → is.Perm js →
    is.Pairwise (· < ·) → js.Pairwise (fun j i => i < j → free (f i) (f j)) →
    Reordered free (is.map f) (js.map f)
  | [], js, hperm, _, _ => by
    obtain rfl : js = [] := hperm.nil_eq.symm
    exact .nil
  | i :: is, js, hperm, his, hjs => by
    obtain ⟨hi, his⟩ := List.pairwise_cons.1 his
    obtain ⟨pre, post, rfl⟩ := List.append_of_mem (hperm.subset List.mem_cons_self)
    have hrest : is.Perm (pre ++ post) := (hperm.trans List.perm_middle).cons_inv
    -- What stands before `i` in the new order stood after it in the old one.
    have hpass : ∀ j ∈ pre, free (f i) (f j) := fun j hj =>
      (List.pairwise_append.1 hjs).2.2 j hj i List.mem_cons_self
        (hi j (hrest.symm.subset (List.mem_append_left _ hj)))
    have ih := of_perm f hrest his
      (hjs.sublist ((List.Sublist.refl pre).append (List.sublist_cons_self i post)))
    rw [List.map_append] at ih
    rw [List.map_cons, List.map_append, List.map_cons]
    refine .trans (.cons (f i) ih) (.move (f i) _ _ fun y hy => ?_)
    obtain ⟨j, hj, rfl⟩ := List.mem_map.1 hy
    exact hpass j hj

end Reordered

/-- The members of a list in the order that a permutation of their positions gives. -/
def reorder {α : Type} (xs : List α) (σ : Equiv.Perm (Fin xs.length)) : List α :=
  List.ofFn fun i => xs.get (σ i)

/-- If every two members that change sides are free of each other, neighbours can be exchanged one
pair after the other. -/
theorem Reordered.of_reorder {α : Type} {free : α → α → Prop} (xs : List α)
    (σ : Equiv.Perm (Fin xs.length))
    (h : ∀ i j, i < j → σ j < σ i → free (xs.get (σ j)) (xs.get (σ i))) :
    Reordered free xs (reorder xs σ) := by
  have hold : (List.finRange xs.length).map xs.get = xs := by
    rw [← List.ofFn_eq_map, List.ofFn_get]
  have hnew : ((List.finRange xs.length).map σ).map xs.get = reorder xs σ := by
    rw [List.map_map, reorder, List.ofFn_eq_map]
    rfl
  have hsorted := List.pairwise_lt_finRange xs.length
  have hfree := of_perm xs.get σ.map_finRange_perm.symm hsorted
    (List.pairwise_map.2 (hsorted.imp fun {i j} hij => h i j hij))
  rwa [hold, hnew] at hfree

end ScriptCheck
