import Mathlib.Algebra.BigOperators.Intervals
import PanelGemm.Proofs.Engine.Tile
import PanelGemm.Proofs.Kernel.Integers

/-!
# Tiles on integers

In a K-block an element goes one of two ways, in place or through the staging area, and on integers
both arrive at the same integer (`isInteger_blockElement`). The K-blocks of a tile add up to the
whole sum, the scaled old element among them once (`isInteger_tileElement`), whatever the kernels,
the block height and the shape of the tile are.
-/

set_option autoImplicit false
set_option relaxedAutoImplicit false

namespace PanelGemm

namespace Engine

open Finset

variable {engine : Engine} {request : Request} {row column : Nat} {old : Single}
  {u v : Nat → Int} {b c : Int}

/-- An element is exact in one K-block, whichever way it goes. -/
theorem isInteger_blockElement (kernel : Kernel) (masked : Bool) {start : Nat}
    (hstart : start ∈ request.panel.shape.blockStarts)
    (hterms : IntegerTerms request.k (request.factor row)
      (fun p ↦ request.panel.entry p column) u v)
    (hbeta : (blockBeta request start).IsInteger b) (hold : b ≠ 0 → old.IsInteger c)
    (hbound : |b * c| + ∑ p ∈ range (request.panel.shape.blockDepth start),
      |u (start + p) * v (start + p)| ≤ 2 ^ 24) :
    (blockElement kernel request masked start row column old).IsInteger
      (b * c + ∑ p ∈ range (request.panel.shape.blockDepth start),
        u (start + p) * v (start + p)) := by
  have hdepth := PanelShape.blockDepth_pos hstart
  have hblock := hterms.shift (PanelShape.blockDepth_le_rows hstart)
  unfold blockElement
  split_ifs
  · refine isInteger_mergeElement hbeta hold (kernel.isInteger_product hdepth hblock ?_) ?_
    · exact (le_add_of_nonneg_left (abs_nonneg _)).trans hbound
    · exact (abs_add_sum_le _ _ _).trans hbound
  · exact kernel.isInteger_element hdepth hblock hbeta hold hbound

/-- The rows of the K-blocks up to one of them. -/
theorem min_succ_mul_blockRows {count : Nat} (hcount : count < request.panel.shape.rowBlocks) :
    min ((count + 1) * request.panel.shape.blockRows) request.k =
      count * request.panel.shape.blockRows +
        request.panel.shape.blockDepth (count * request.panel.shape.blockRows) :=
  (request.panel.shape.add_blockDepth hcount).symm

/-- A K-block adds its products to what the K-blocks above it have made of an element. -/
theorem isInteger_nextBlock (kernel : Kernel) (masked : Bool) {count : Nat}
    (hcount : count < request.panel.shape.rowBlocks)
    (hterms : IntegerTerms request.k (request.factor row)
      (fun p ↦ request.panel.entry p column) u v)
    (scale value : Int)
    (hbeta : (blockBeta request (count * request.panel.shape.blockRows)).IsInteger scale)
    (hold : scale ≠ 0 → old.IsInteger value)
    (habove : scale * value =
      b * c + ∑ p ∈ range (count * request.panel.shape.blockRows), u p * v p)
    (hbound : |b * c| + ∑ p ∈ range request.k, |u p * v p| ≤ 2 ^ 24) :
    (blockElement kernel request masked (count * request.panel.shape.blockRows) row column
        old).IsInteger
      (b * c + ∑ p ∈ range (min ((count + 1) * request.panel.shape.blockRows) request.k),
        u p * v p) := by
  have hstart : count * request.panel.shape.blockRows ∈ request.panel.shape.blockStarts :=
    List.mem_map.mpr ⟨count, List.mem_range.mpr hcount, rfl⟩
  rw [min_succ_mul_blockRows hcount, sum_range_add, ← Int.add_assoc, ← habove]
  refine isInteger_blockElement kernel masked hstart hterms hbeta hold ?_
  rw [habove]
  calc |b * c + ∑ p ∈ range (count * request.panel.shape.blockRows), u p * v p| + _
      ≤ |b * c| + ∑ p ∈ range (count * request.panel.shape.blockRows), |u p * v p| + _ :=
        Int.add_le_add_right (abs_add_sum_le _ _ _) _
    _ = |b * c| + ∑ p ∈ range (count * request.panel.shape.blockRows +
          request.panel.shape.blockDepth (count * request.panel.shape.blockRows)), |u p * v p| := by
        rw [sum_range_add, Int.add_assoc]
    _ ≤ |b * c| + ∑ p ∈ range request.k, |u p * v p| :=
        Int.add_le_add_left (sum_abs_le_sum_abs _ (PanelShape.blockDepth_le_rows hstart)) _
    _ ≤ 2 ^ 24 := hbound

/-- After the first K-blocks an element is the scaled old one and the sum of their products. Only
the first of them scales it. -/
theorem isInteger_blocks (kernel : Kernel) (masked : Bool)
    (hterms : IntegerTerms request.k (request.factor row)
      (fun p ↦ request.panel.entry p column) u v)
    (hbeta : request.beta.IsInteger b) (hold : b ≠ 0 → old.IsInteger c)
    (hbound : |b * c| + ∑ p ∈ range request.k, |u p * v p| ≤ 2 ^ 24) {count : Nat}
    (hcount : 0 < count) (hle : count ≤ request.panel.shape.rowBlocks) :
    ((List.range count).foldl (fun old block ↦ blockElement kernel request masked
        (block * request.panel.shape.blockRows) row column old) old).IsInteger
      (b * c + ∑ p ∈ range (min (count * request.panel.shape.blockRows) request.k),
        u p * v p) := by
  induction count, hcount using Nat.le_induction with
  | base =>
    refine isInteger_nextBlock kernel masked hle hterms b c ?_ hold ?_ hbound
    · rw [blockBeta, if_pos (Nat.zero_mul _)]
      exact hbeta
    · rw [Nat.zero_mul, sum_range_zero, Int.add_zero]
  | succ count hcount ih =>
    have hlater : 0 < count := hcount
    have hstart : count * request.panel.shape.blockRows ≠ 0 :=
      Nat.ne_of_gt (Nat.mul_pos hlater request.panel.shape.blockRows_pos)
    have habove : min (count * request.panel.shape.blockRows) request.k =
        count * request.panel.shape.blockRows :=
      Nat.min_eq_left (Nat.le_of_lt (request.panel.shape.rowBlocks_mul_lt hle))
    have hprevious := ih (Nat.le_of_succ_le hle)
    rw [habove] at hprevious
    rw [List.range_succ, List.foldl_append]
    refine isInteger_nextBlock kernel masked hle hterms 1 _ ?_ (fun _ ↦ hprevious)
      (Int.one_mul _) hbound
    rw [blockBeta, if_neg hstart]
    exact Binary.isInteger_one

/-- A tile is exact in every element. -/
theorem isInteger_tileElement (hdepth : 0 < request.k) (tile : Tile)
    (hterms : IntegerTerms request.k (request.factor row)
      (fun p ↦ request.panel.entry p column) u v)
    (hbeta : request.beta.IsInteger b) (hold : b ≠ 0 → old.IsInteger c)
    (hbound : |b * c| + ∑ p ∈ range request.k, |u p * v p| ≤ 2 ^ 24) :
    (tileElement engine request tile row column old).IsInteger
      (b * c + ∑ p ∈ range request.k, u p * v p) := by
  have hcover : request.k ≤ request.panel.shape.rowBlocks * request.panel.shape.blockRows :=
    request.panel.shape.rows_le_rowBlocks_mul
  have hcount := request.panel.shape.rowBlocks_pos hdepth
  have hblocks := isInteger_blocks (Kernel.ofLevel engine.level tile.kernelRows) tile.isMasked
    hterms hbeta hold hbound hcount (Nat.le_refl _)
  rw [Nat.min_eq_right hcover] at hblocks
  rw [tileElement, PanelShape.blockStarts, List.foldl_map]
  exact hblocks

end Engine

end PanelGemm
