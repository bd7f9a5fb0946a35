import PanelGemm.Matrix.Naive
import PanelGemm.Proofs.Binary.Sums
import PanelGemm.Proofs.Window

/-!
# The naive product, element by element

The naive product takes the output row by row and each row as often as there are products to a sum.
Element by element it is a chain that starts at the scaled old element and adds one rounded product
after another (`Naive.element`). `naiveGemm_eq` says that a product of matrices that their buffers
hold succeeds, and that it leaves this chain in every element and the rest of the buffer as it is.
-/

set_option autoImplicit false
set_option relaxedAutoImplicit false

namespace PanelGemm

namespace Naive

/-- The buffers of a problem hold its matrices. -/
structure Problem.Fits (problem : Problem) (a b c : Array Single) : Prop where
  left : ∀ i < problem.m, ∀ p < problem.k,
    problem.orientation.offset problem.leftStride i p < a.size
  right : problem.k * problem.n ≤ b.size
  output : problem.m * problem.n ≤ c.size

/-- The scaled element of the left operand at a row and a depth. -/
def Problem.factor (problem : Problem) (a : Array Single) (i p : Nat) : Single :=
  problem.alpha.mul (a.getD (problem.orientation.offset problem.leftStride i p) .zero)

/-- The element of the right operand at a depth and a column. -/
def Problem.weight (problem : Problem) (b : Array Single) (j p : Nat) : Single :=
  b.getD (p * problem.n + j) .zero

/-- An old element scaled, and left out if the factor is zero. -/
def scaled (beta old : Single) : Single := if beta.isZero then .zero else old.mul beta

/-- The value that an element of the output gets. -/
def element (beta : Single) (depth : Nat) (x y : Nat → Single) (old : Single) : Single :=
  (List.range depth).foldl (fun value p ↦ value.add ((x p).mul (y p))) (scaled beta old)

variable {problem : Problem} {a b c row right : Array Single} {beta factor : Single} {i : Nat}

theorem row?_eq_ok {matrix : Array Single} {width rows : Nat} (h : rows * width ≤ matrix.size)
    (hi : i < rows) :
    row? matrix width i = .ok (matrix.extract (i * width) ((i + 1) * width)) :=
  if_pos (Nat.le_trans (Nat.mul_le_mul_right width hi) h)

theorem size_extract_row {matrix : Array Single} {width rows : Nat}
    (h : rows * width ≤ matrix.size) (hi : i < rows) :
    (matrix.extract (i * width) ((i + 1) * width)).size = width := by
  have hle : (i + 1) * width ≤ matrix.size := Nat.le_trans (Nat.mul_le_mul_right width hi) h
  rw [Array.size_extract, Nat.min_eq_left hle, Nat.succ_mul, Nat.add_sub_cancel_left]

theorem scaledRow_eq : scaledRow beta row = row.mapIdx fun _ ↦ scaled beta := by
  rw [eq_comm, Array.mapIdx_eq_iff]
  intro j
  unfold scaledRow scaled
  split_ifs
  · rw [Array.getElem?_map]
  · rw [Array.getElem?_map]

theorem addMultiple_eq (hsize : right.size = row.size) :
    addMultiple factor row right =
      row.mapIdx fun j x ↦ x.add (factor.mul (right.getD j .zero)) := by
  rw [eq_comm, Array.mapIdx_eq_iff]
  intro j
  unfold addMultiple
  by_cases hj : j < row.size
  · have hright : j < right.size := hsize ▸ hj
    simp [hj, hright, Array.getD]
  · have hright : ¬ j < right.size := hsize ▸ hj
    simp [hj, hright]

/-- Every element of an output row gets its value. -/
theorem computeRow_eq (hfits : problem.Fits a b c) (hi : i < problem.m)
    (hsize : row.size = problem.n) :
    computeRow problem a b i row = .ok (row.mapIdx fun j ↦
      element problem.beta problem.k (problem.factor a i) (problem.weight b j)) := by
  have hstep : ∀ p ∈ List.range problem.k, ∀ buffer : Array Single, buffer.size = problem.n →
      (do
        let x ← orPanic a[problem.orientation.offset problem.leftStride i p]?
        let right ← row? b problem.n p
        return addMultiple (problem.alpha.mul x) buffer right : Except Failure (Array Single)) =
      pure (buffer.mapIdx fun j value ↦
        value.add ((problem.factor a i p).mul (problem.weight b j p))) := by
    intro p hp buffer hbuffer
    have hp := List.mem_range.mp hp
    have hleft := hfits.left i hi p hp
    have hright := size_extract_row hfits.right hp
    have hx : a[problem.orientation.offset problem.leftStride i p]? =
        some (a.getD (problem.orientation.offset problem.leftStride i p) .zero) := by
      rw [Array.getElem?_eq_getElem hleft, Array.getD, dif_pos hleft]
      rfl
    rw [hx, row?_eq_ok hfits.right hp]
    change Except.ok (addMultiple (problem.factor a i p) buffer _) = Except.ok _
    rw [addMultiple_eq (hright.trans hbuffer.symm)]
    refine congrArg Except.ok (Array.mapIdx_eq_mapIdx_iff.mpr fun j hj ↦ ?_)
    have hweight : (b.extract (p * problem.n) ((p + 1) * problem.n)).getD j .zero =
        problem.weight b j p := by
      have hposition : p * problem.n + j < b.size :=
        Nat.lt_of_lt_of_le (offset_lt hp (hbuffer ▸ hj)) hfits.right
      simp [Problem.weight, Array.getD, hright, hbuffer ▸ hj, hposition]
    rw [hweight]
  have hfold : computeRow problem a b i row = pure _ :=
    foldlM_pure_mapIdx hstep (scaledRow_eq ▸ (Array.size_mapIdx.trans hsize))
  rw [hfold, scaledRow_eq, Array.mapIdx_mapIdx]
  rfl

/-- Every element of one row of the output gets its value, and nothing else changes. -/
theorem updateRow_eq (hfits : problem.Fits a b c) (hi : i < problem.m) {buffer : Array Single}
    (hsize : buffer.size = c.size) :
    updateRow problem a b buffer i = .ok (buffer.mapIdx
      ((⟨i * problem.n, problem.n, 1, problem.n⟩ : Window).rewrite fun _ j ↦
        element problem.beta problem.k (problem.factor a i) (problem.weight b j))) := by
  have houtput : problem.m * problem.n ≤ buffer.size := hsize ▸ hfits.output
  have hrow := size_extract_row houtput hi
  have hstart : i * problem.n ≤ (i + 1) * problem.n :=
    Nat.mul_le_mul_right problem.n (Nat.le_succ i)
  have hstop : (i + 1) * problem.n ≤ buffer.size :=
    Nat.le_trans (Nat.mul_le_mul_right problem.n hi) houtput
  rw [updateRow, row?_eq_ok houtput hi]
  change computeRow problem a b i _ >>= _ = _
  rw [computeRow_eq hfits hi hrow, ← splice_mapIdx hstart hstop]
  · refine congrArg (fun middle ↦ Except.ok (buffer.extract 0 (i * problem.n) ++ middle ++
      buffer.extract ((i + 1) * problem.n))) (Array.mapIdx_eq_mapIdx_iff.mpr fun j hj ↦ ?_)
    rw [hrow] at hj
    let window : Window := ⟨i * problem.n, problem.n, 1, problem.n⟩
    have hposition : i * problem.n + j = window.position 0 j := by
      rw [Window.position, Nat.zero_mul, Nat.zero_add]
    have hrows : 0 < window.rows := Nat.one_pos
    rw [hposition]
    change _ = window.rewrite _ (window.position 0 j) _
    rw [Window.rewrite_position hrows hj (Nat.le_refl problem.n)]
  · intro q hq x
    exact Window.rewrite_of_lt hq x
  · intro q hq x
    refine Window.rewrite_of_forall_ne (fun row hrow j hj hposition ↦ ?_) x
    rw [Nat.lt_one_iff.mp hrow, Nat.zero_mul] at hposition
    rw [Nat.succ_mul] at hq
    omega

open Finset in
/-- The chain of an element is exact on integers. The old element counts only if its factor is not
zero. -/
theorem isInteger_element {depth : Nat} {x y : Nat → Single} {u v : Nat → Int} {old : Single}
    {s t : Int} (hterms : IntegerTerms depth x y u v) (hbeta : beta.IsInteger s)
    (hold : s ≠ 0 → old.IsInteger t)
    (hbound : |s * t| + ∑ p ∈ range depth, |u p * v p| ≤ 2 ^ 24) :
    (element beta depth x y old).IsInteger (s * t + ∑ p ∈ range depth, u p * v p) := by
  have hscaled : (scaled beta old).IsInteger (s * t) := by
    have hsmall : |s * t| ≤ 2 ^ 24 :=
      (le_add_of_nonneg_right (sum_nonneg fun _ _ ↦ abs_nonneg _)).trans hbound
    unfold scaled
    by_cases hzero : s = 0
    · rw [if_pos (hbeta.isZero_iff.mpr hzero), hzero, Int.zero_mul]
      exact Binary.isInteger_zero
    · rw [if_neg fun h ↦ hzero (hbeta.isZero_iff.mp h)]
      rw [Int.mul_comm] at hsmall ⊢
      exact (hold hzero).mul hbeta hsmall
  unfold element
  induction depth with
  | zero => simpa using hscaled
  | succ depth ih =>
    have hle := sum_abs_le_sum_abs (fun p ↦ u p * v p) (Nat.le_succ depth)
    have hprevious := ih (hterms.mono (Nat.le_succ depth))
      ((Int.add_le_add_left hle _).trans hbound)
    have hsum := (abs_add_sum_le (s * t) (fun p ↦ u p * v p) (depth + 1)).trans hbound
    have hproduct : |u depth * v depth| ≤ 2 ^ 24 :=
      calc |u depth * v depth| ≤ ∑ p ∈ range (depth + 1), |u p * v p| :=
            single_le_sum (f := fun p ↦ |u p * v p|) (fun _ _ ↦ abs_nonneg _)
              (self_mem_range_succ depth)
        _ ≤ 2 ^ 24 := (le_add_of_nonneg_left (abs_nonneg _)).trans hbound
    rw [sum_range_succ, ← Int.add_assoc] at hsum ⊢
    rw [List.range_succ, List.foldl_append]
    exact hprevious.add ((hterms.factor depth (Nat.lt_succ_self depth)).mul
      (hterms.weight depth (Nat.lt_succ_self depth)) hproduct) hsum

end Naive

open Naive

/-- The naive product of matrices that their buffers hold succeeds. Every element of the output gets
its value, and the rest of the buffer is kept. -/
theorem naiveGemm_eq {problem : Problem} {a b c : Array Single} (hfits : problem.Fits a b c) :
    naiveGemm problem a b c = .ok (c.mapIdx
      ((⟨0, problem.n, problem.m, problem.n⟩ : Window).rewrite fun i j ↦
        element problem.beta problem.k (problem.factor a i) (problem.weight b j))) := by
  have hfold : naiveGemm problem a b c = pure _ :=
    foldlM_pure_mapIdx (fun i hi buffer hbuffer ↦
      updateRow_eq hfits (List.mem_range.mp hi) hbuffer) rfl
  rw [hfold]
  refine congrArg Except.ok (Array.mapIdx_eq_mapIdx_iff.mpr fun q hq ↦ ?_)
  rw [← Window.foldl_rows (Nat.le_refl problem.n)]
  simp only [Nat.zero_add]

end PanelGemm
