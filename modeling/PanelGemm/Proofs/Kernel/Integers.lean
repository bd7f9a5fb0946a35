import PanelGemm.Proofs.Binary.Sums
import PanelGemm.Proofs.Kernel.Contract

/-!
# Kernels on integers

Both kinds of kernels compute the same integer, the scaled old element and the sum of the products
(`Kernel.isInteger_element`): a scalar kernel starts its chain at the scaled old element, and a
vector kernel merges its sum with the old element at the end.
-/

set_option autoImplicit false
set_option relaxedAutoImplicit false

namespace PanelGemm

open Finset

variable {depth : Nat} {x y : Nat → Single} {u v : Nat → Int} {beta old : Single} {b c : Int}

namespace ScalarKernel

/-- A scalar kernel on integers is exact. The old element counts only if its factor is not
zero. -/
theorem isInteger_element (hdepth : 0 < depth) (hterms : IntegerTerms depth x y u v)
    (hbeta : beta.IsInteger b) (hold : b ≠ 0 → old.IsInteger c)
    (hbound : |b * c| + ∑ p ∈ range depth, |u p * v p| ≤ 2 ^ 24) :
    (element beta depth x y old).IsInteger (b * c + ∑ p ∈ range depth, u p * v p) := by
  unfold element
  induction depth, hdepth using Nat.le_induction with
  | base =>
    have hsum := (abs_add_sum_le (b * c) (fun p ↦ u p * v p) 1).trans hbound
    have hx := hterms.factor 0 Nat.one_pos
    have hy := hterms.weight 0 Nat.one_pos
    rw [sum_range_one] at hsum hbound ⊢
    change (advance beta 0 (x 0) (y 0) old).IsInteger _
    rw [advance, if_neg (Nat.lt_irrefl 0)]
    by_cases hzero : b = 0
    · rw [if_pos (hbeta.isZero_iff.mpr hzero)]
      rw [hzero, Int.zero_mul, Int.zero_add] at hsum ⊢
      exact hx.mul hy hsum
    · rw [if_neg fun h ↦ hzero (hbeta.isZero_iff.mp h)]
      rw [Int.add_comm] at hsum ⊢
      have hscaled : (beta.mul old).IsInteger (b * c) :=
        hbeta.mul (hold hzero) ((le_add_of_nonneg_right (abs_nonneg _)).trans hbound)
      exact hx.fma hy hscaled hsum
  | succ depth hdepth ih =>
    have hle := sum_abs_le_sum_abs (fun p ↦ u p * v p) (Nat.le_succ depth)
    have hprevious := ih (hterms.mono (Nat.le_succ depth))
      ((Int.add_le_add_left hle _).trans hbound)
    have hlater : 0 < depth := hdepth
    rw [List.range_succ, List.foldl_append]
    change (advance beta depth (x depth) (y depth) _).IsInteger _
    rw [advance, if_pos hlater]
    exact hterms.fma_next hprevious hbound

end ScalarKernel

/-- The merge of a staged integer is exact. -/
theorem Engine.isInteger_mergeElement {staged : Single} {sum : Int} (hbeta : beta.IsInteger b)
    (hold : b ≠ 0 → old.IsInteger c) (hstaged : staged.IsInteger sum)
    (hbound : |b * c + sum| ≤ 2 ^ 24) :
    (mergeElement beta old staged).IsInteger (b * c + sum) := by
  unfold mergeElement
  by_cases hzero : b = 0
  · rw [if_pos (hbeta.isZero_iff.mpr hzero), hzero, Int.zero_mul, Int.zero_add]
    exact hstaged
  · rw [if_neg fun h ↦ hzero (hbeta.isZero_iff.mp h)]
    exact hbeta.fma (hold hzero) hstaged hbound

namespace Kernel

/-- A kernel on integers is exact. -/
theorem isInteger_element (kernel : Kernel) (hdepth : 0 < depth)
    (hterms : IntegerTerms depth x y u v) (hbeta : beta.IsInteger b)
    (hold : b ≠ 0 → old.IsInteger c)
    (hbound : |b * c| + ∑ p ∈ range depth, |u p * v p| ≤ 2 ^ 24) :
    (kernel.element beta depth x y old).IsInteger (b * c + ∑ p ∈ range depth, u p * v p) := by
  cases kernel with
  | scalar rows => exact ScalarKernel.isInteger_element hdepth hterms hbeta hold hbound
  | vector lanes rows =>
    have hsum := isInteger_chain hterms Binary.isInteger_zero
      ((Int.add_le_add_right (abs_zero.trans_le (abs_nonneg _)) _).trans hbound)
    rw [Int.zero_add] at hsum
    exact Engine.isInteger_mergeElement hbeta hold hsum
      ((abs_add_sum_le (b * c) (fun p ↦ u p * v p) depth).trans hbound)

/-- The product of a kernel on integers is exact. -/
theorem isInteger_product (kernel : Kernel) (hdepth : 0 < depth)
    (hterms : IntegerTerms depth x y u v) (hbound : ∑ p ∈ range depth, |u p * v p| ≤ 2 ^ 24) :
    (kernel.product depth x y).IsInteger (∑ p ∈ range depth, u p * v p) := by
  have hnone : |0 * (0 : Int)| + ∑ p ∈ range depth, |u p * v p| ≤ 2 ^ 24 := by
    rw [Int.zero_mul, abs_zero, Int.zero_add]
    exact hbound
  have hproduct := kernel.isInteger_element hdepth hterms Binary.isInteger_zero
    (fun _ ↦ Binary.isInteger_zero) hnone
  rw [Int.zero_mul, Int.zero_add] at hproduct
  exact hproduct

end Kernel

end PanelGemm
