import PanelGemm.Proofs.Engine.Span
import PanelGemm.Proofs.Tiling.Cover

/-!
# Stacked tiles on the output

Stacked tiles cover disjoint rows. An element in their rows is therefore computed by exactly one of
them (`tilesRewrite_at`), and what lies above their first row, below their last one or beside
the columns of the output stays as it is.
-/

set_option autoImplicit false
set_option relaxedAutoImplicit false

namespace PanelGemm

namespace Engine

variable {engine : Engine} {request : Request} {tile : Tile} {tiles rest : List Tile}
  {row stop q : Nat}

/-! ### One tile -/

theorem tileRewrite_of_lt (h : q < tile.row * request.outputStride) (x : Single) :
    tileRewrite engine request tile q x = x :=
  Window.rewrite_of_lt h x

theorem tileRewrite_of_le (hstride : request.n ≤ request.outputStride)
    (h : tile.stop * request.outputStride ≤ q) (x : Single) :
    tileRewrite engine request tile q x = x := by
  refine Window.rewrite_of_forall_ne (fun i hi j hj hq ↦ ?_) x
  have hrow : (tile.row + i + 1) * request.outputStride ≤ tile.stop * request.outputStride :=
    Nat.mul_le_mul_right _ (Nat.add_lt_add_left hi _)
  rw [Nat.succ_mul, Nat.add_mul] at hrow
  omega

/-- An element in the rows of a tile gets the value that the tile computes. -/
theorem tileRewrite_at (hstride : request.n ≤ request.outputStride) {i j : Nat}
    (hrow : tile.row ≤ i) (hstop : i < tile.stop) (hj : j < request.n) (x : Single) :
    tileRewrite engine request tile (i * request.outputStride + j) x =
      tileElement engine request tile i j x := by
  have hi : i - tile.row < tile.rows := Nat.sub_lt_left_of_lt_add hrow hstop
  have hq : i * request.outputStride + j =
      tile.row * request.outputStride + ((i - tile.row) * request.outputStride + j) := by
    rw [← Nat.add_assoc, ← Nat.add_mul, Nat.add_sub_of_le hrow]
  have hat : tileRewrite engine request tile
      (tile.row * request.outputStride + ((i - tile.row) * request.outputStride + j)) x = _ :=
    Window.rewrite_at hj hstride _ (i - tile.row) x
  rw [if_pos hi, Nat.add_sub_of_le hrow] at hat
  rw [hq]
  exact hat

/-! ### A stack of tiles -/

theorem tilesRewrite_cons (x : Single) : tilesRewrite engine request (tile :: tiles) q x =
    tilesRewrite engine request tiles q (tileRewrite engine request tile q x) :=
  rfl

theorem tilesRewrite_append (x : Single) : tilesRewrite engine request (tiles ++ rest) q x =
    tilesRewrite engine request rest q (tilesRewrite engine request tiles q x) :=
  List.foldl_append

/-- Tiles keep what lies above them. -/
theorem tilesRewrite_of_lt (hrow : ∀ tile ∈ tiles, row ≤ tile.row)
    (h : q < row * request.outputStride) (x : Single) :
    tilesRewrite engine request tiles q x = x := by
  refine foldl_eq_self (fun tile htile x ↦ tileRewrite_of_lt ?_ x) x
  exact Nat.lt_of_lt_of_le h (Nat.mul_le_mul_right _ (hrow tile htile))

/-- Tiles keep what lies below them. -/
theorem tilesRewrite_of_le (hstride : request.n ≤ request.outputStride)
    (hstop : ∀ tile ∈ tiles, tile.stop ≤ stop) (h : stop * request.outputStride ≤ q) (x : Single) :
    tilesRewrite engine request tiles q x = x := by
  refine foldl_eq_self (fun tile htile x ↦ tileRewrite_of_le hstride ?_ x) x
  exact Nat.le_trans (Nat.mul_le_mul_right _ (hstop tile htile)) h

/-- A stack keeps what is no element of its rows. -/
theorem tilesRewrite_of_forall_ne (hstacked : Stacked row tiles stop)
    (h : ∀ i < stop, ∀ j < request.n, q ≠ i * request.outputStride + j) (x : Single) :
    tilesRewrite engine request tiles q x = x := by
  refine foldl_eq_self (fun tile htile x ↦ ?_) x
  refine Window.rewrite_of_forall_ne (fun i hi j hj hq ↦ ?_) x
  have hi' : tile.row + i < stop :=
    Nat.lt_of_lt_of_le (Nat.add_lt_add_left hi _) (hstacked.bounds.2 tile htile).2
  refine h (tile.row + i) hi' j hj ?_
  rw [hq, Nat.add_mul, Nat.add_assoc]

/-- An element in the rows of one of the tiles of a stack gets the value that this tile
computes. -/
theorem tilesRewrite_at (hstride : request.n ≤ request.outputStride)
    (hstacked : Stacked row tiles stop) (htile : tile ∈ tiles) {i j : Nat} (hrow : tile.row ≤ i)
    (hstop : i < tile.stop) (hj : j < request.n) (x : Single) :
    tilesRewrite engine request tiles (i * request.outputStride + j) x =
      tileElement engine request tile i j x := by
  induction tiles generalizing row x with
  | nil => exact nomatch htile
  | cons first tiles ih =>
    obtain ⟨hfirst, hrest⟩ := hstacked
    rw [tilesRewrite_cons]
    rcases List.mem_cons.mp htile with rfl | htile
    · have hnext := row_end_le hstop request.outputStride
      have hbelow : ∀ other ∈ tiles, tile.stop ≤ other.row :=
        fun other hother ↦ (hrest.bounds.2 other hother).1
      rw [tileRewrite_at hstride hrow hstop hj, tilesRewrite_of_lt hbelow (by omega)]
    · have hbefore : first.stop * request.outputStride ≤ i * request.outputStride :=
        Nat.mul_le_mul_right _ (Nat.le_trans (hrest.bounds.2 tile htile).1 hrow)
      rw [tileRewrite_of_le hstride (by omega)]
      exact ih hrest htile x

end Engine

end PanelGemm
