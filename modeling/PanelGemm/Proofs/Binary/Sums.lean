import Mathlib.Algebra.BigOperators.Group.Finset.Basic
import Mathlib.Algebra.Order.BigOperators.Group.Finset
import PanelGemm.Proofs.Binary.Integers

/-!
# Sums of products of integers

As long as the magnitudes of the products, and of the number that a sum starts with, add up to no
more than `2 ^ 24`, no partial sum is rounded, in whatever order the products are taken.
`IntegerTerms` says of the factors and weights of a sum which integers they are.
-/

set_option autoImplicit false
set_option relaxedAutoImplicit false

namespace PanelGemm

open Finset

/-- Factors `x` and weights `y` that are the integers `u` and `v` up to a depth. -/
structure IntegerTerms (depth : Nat) (x y : Nat → Single) (u v : Nat → Int) : Prop where
  factor : ∀ p < depth, (x p).IsInteger (u p)
  weight : ∀ p < depth, (y p).IsInteger (v p)

variable {depth : Nat} {x y : Nat → Single} {u v : Nat → Int} {old : Single} {c : Int}

/-- The terms from a depth on, up to another one. -/
theorem IntegerTerms.shift {start more : Nat} (h : IntegerTerms more x y u v)
    (hle : start + depth ≤ more) :
    IntegerTerms depth (fun p ↦ x (start + p)) (fun p ↦ y (start + p)) (fun p ↦ u (start + p))
      fun p ↦ v (start + p) where
  factor := fun p hp ↦ h.factor (start + p) (Nat.lt_of_lt_of_le (Nat.add_lt_add_left hp start) hle)
  weight := fun p hp ↦ h.weight (start + p) (Nat.lt_of_lt_of_le (Nat.add_lt_add_left hp start) hle)

theorem IntegerTerms.mono {more : Nat} (h : IntegerTerms more x y u v) (hle : depth ≤ more) :
    IntegerTerms depth x y u v where
  factor := fun p hp ↦ h.factor p (Nat.lt_of_lt_of_le hp hle)
  weight := fun p hp ↦ h.weight p (Nat.lt_of_lt_of_le hp hle)

/-- A sum is no larger than the magnitudes of its terms together. -/
theorem abs_add_sum_le (c : Int) (t : Nat → Int) (depth : Nat) :
    |c + ∑ p ∈ range depth, t p| ≤ |c| + ∑ p ∈ range depth, |t p| :=
  (abs_add_le _ _).trans (Int.add_le_add_left (abs_sum_le_sum_abs _ _) _)

/-- The magnitudes of the first terms together are no larger than those of all terms. -/
theorem sum_abs_le_sum_abs (t : Nat → Int) {depth more : Nat} (hle : depth ≤ more) :
    ∑ p ∈ range depth, |t p| ≤ ∑ p ∈ range more, |t p| :=
  sum_le_sum_of_subset_of_nonneg (range_subset_range.mpr hle) fun _ _ _ ↦ abs_nonneg _

/-- One more fused multiply-add on integers is exact. -/
theorem IntegerTerms.fma_next (hterms : IntegerTerms (depth + 1) x y u v)
    (hold : old.IsInteger (c + ∑ p ∈ range depth, u p * v p))
    (hbound : |c| + ∑ p ∈ range (depth + 1), |u p * v p| ≤ 2 ^ 24) :
    ((x depth).fma (y depth) old).IsInteger (c + ∑ p ∈ range (depth + 1), u p * v p) := by
  have hreorder : c + ∑ p ∈ range (depth + 1), u p * v p =
      u depth * v depth + (c + ∑ p ∈ range depth, u p * v p) := by
    rw [sum_range_succ]
    ring
  have hsum := (abs_add_sum_le c (fun p ↦ u p * v p) (depth + 1)).trans hbound
  rw [hreorder] at hsum ⊢
  exact (hterms.factor depth (Nat.lt_succ_self depth)).fma
    (hterms.weight depth (Nat.lt_succ_self depth)) hold hsum

/-- A chain of fused multiply-adds on integers is exact. -/
theorem isInteger_chain (hterms : IntegerTerms depth x y u v) (hold : old.IsInteger c)
    (hbound : |c| + ∑ p ∈ range depth, |u p * v p| ≤ 2 ^ 24) :
    ((List.range depth).foldl (fun value p ↦ (x p).fma (y p) value) old).IsInteger
      (c + ∑ p ∈ range depth, u p * v p) := by
  induction depth with
  | zero => simpa using hold
  | succ depth ih =>
    have hle := sum_abs_le_sum_abs (fun p ↦ u p * v p) (Nat.le_succ depth)
    have hprevious := ih (hterms.mono (Nat.le_succ depth))
      ((Int.add_le_add_left hle _).trans hbound)
    rw [List.range_succ, List.foldl_append]
    exact hterms.fma_next hprevious hbound

end PanelGemm
