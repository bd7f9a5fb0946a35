import PanelGemm.Proofs.Engine.Run
import PanelGemm.Proofs.Threads.Crew

/-!
# The shares of the threads

Several threads can each be given a share of the tiles of a run. The shares are the spans of as many
workers, in whatever order they are taken (`tilesOf_perm`), so their statistics add up to those of
the run (`Engine.stats_perm`), and a share changes nothing but the columns of the product in its own
rows (`Engine.ChangesOnly`). The result of a share is known as that of the run is
(`Engine.exists_shares`).
-/

set_option autoImplicit false
set_option relaxedAutoImplicit false

namespace PanelGemm

/-- The tiles and the kernel calls of two runs together. -/
instance : Add RunStats where
  add stats other := ⟨stats.tiles + other.tiles, stats.kernelCalls + other.kernelCalls⟩

/-- The place of one thread among several. -/
def ThreadSlot.ofFin {threads : Nat} (thread : Fin threads) : ThreadSlot :=
  ⟨thread, threads⟩

open Workers

variable {threads : Nat}

/-- The shares of all threads, in any order, are the tiles. -/
theorem tilesOf_perm (hthreads : 0 < threads) {order : List (Fin threads)}
    (horder : order.Perm (List.finRange threads)) (tiles : List Tile) :
    (order.flatMap fun thread : Fin threads ↦ tilesOf threads tiles thread).Perm tiles := by
  have hall : (List.finRange threads).flatMap
      (fun thread : Fin threads ↦ tilesOf threads tiles thread) = tiles := by
    calc (List.finRange threads).flatMap (fun thread : Fin threads ↦ tilesOf threads tiles thread)
        = (((List.finRange threads).map Fin.val).map (tilesOf threads tiles)).flatten := by
          rw [List.map_map, List.flatMap_def]
          rfl
      _ = (tileSpans threads tiles).flatten := by rw [List.map_coe_finRange_eq_range, tileSpans]
      _ = tiles := tileSpans_flatten hthreads tiles
  exact (horder.flatMap_right _).trans (List.Perm.of_eq hall)

namespace Engine

variable {engine : Engine} {request : Request} {tiles rest : List Tile}

/-! ### Statistics -/

theorem stats_append :
    stats request (tiles ++ rest) = stats request tiles + stats request rest := by
  rw [stats, stats, stats, List.length_append, List.map_append, List.sum_append]
  rfl

theorem stats_perm (h : tiles.Perm rest) : stats request tiles = stats request rest := by
  rw [stats, stats, h.length_eq, (h.map _).sum_nat]

/-! ### Rows that change -/

/-- Nothing but the columns of the product changes, in the rows of some tiles. -/
structure ChangesOnly (request : Request) (tiles : List Tile) (before after : Array Single) :
    Prop where
  size : after.size = before.size
  kept : ∀ q, (∀ tile ∈ tiles, ∀ i, tile.row ≤ i → i < tile.stop → ∀ j < request.n,
    q ≠ i * request.outputStride + j) → after[q]? = before[q]?

/-- Tiles change the columns of the product in their own rows. -/
theorem changesOnly_tilesRewrite (output : Array Single) :
    ChangesOnly request tiles output (output.mapIdx (tilesRewrite engine request tiles)) where
  size := Array.size_mapIdx
  kept := by
    intro q hq
    have hkept : ∀ x, tilesRewrite engine request tiles q x = x := by
      refine foldl_eq_self fun tile htile x ↦ Window.rewrite_of_forall_ne (fun i hi j hj hat ↦ ?_) x
      refine hq tile htile (tile.row + i) (Nat.le_add_right _ _) (Nat.add_lt_add_left hi _) j hj ?_
      rw [hat, Nat.add_mul, Nat.add_assoc]
    rw [Array.getElem?_mapIdx]
    cases output[q]? with
    | none => rfl
    | some x => rw [Option.map_some, hkept]

/-! ### Shares of a run -/

/-- A run of a request that passes its check applies the tiles that the family lists, or none if it
has nothing to compute, and a share of it the tiles of its span. -/
theorem exists_shares {output : Array Single} (hexact : request.CountsExactly)
    (hresident : request.Resident output.size)
    (hcheck : engine.check request output.size = .ok ())
    (hprepared : engine.Admits request output.size → engine.Prepared request) :
    ∃ tiles stop, Stacked 0 tiles stop ∧
      (request.isEmpty = true ∧ tiles = [] ∨
        engine.family.tiles request.arithmetic request.m = .ok tiles) ∧
      (∀ threads, 0 < threads → engine.run request output threads =
        ⟨.ok (stats request tiles), output.mapIdx (tilesRewrite engine request tiles)⟩) ∧
      ∀ slot : ThreadSlot, slot.thread < slot.threads →
        ∀ start : Array Single, start.size = output.size →
          engine.runShare request start slot =
            ⟨.ok (stats request (tilesOf slot.threads tiles slot.thread)), start.mapIdx
              (tilesRewrite engine request (tilesOf slot.threads tiles slot.thread))⟩ := by
  by_cases hempty : request.isEmpty = true
  · have hnone : ∀ output : Array Single,
        output.mapIdx (tilesRewrite engine request []) = output := fun _ ↦
      mapIdx_eq_self fun _ _ ↦ rfl
    refine ⟨[], 0, rfl, .inl ⟨hempty, rfl⟩, fun threads hthreads ↦ ?_, fun slot _ start hsize ↦ ?_⟩
    · rw [run_of_isEmpty hthreads hcheck hempty, hnone]
      rfl
    · have hshare : tilesOf slot.threads [] slot.thread = [] := by simp [tilesOf, Span.slice]
      rw [runShare_eq_checked, checked_of_isEmpty (hsize ▸ hcheck) hempty, hshare, hnone]
      rfl
  · have hadmits := admits_of_not_isEmpty hcheck hexact hresident hempty
    obtain ⟨steps, hcovers⟩ := hprepared hadmits
    refine ⟨Tile.place steps, request.m, hcovers.tiling.stacked,
      .inr (hcovers.tiles_eq_ok hadmits),
      fun threads hthreads ↦ run_eq hthreads hcheck hadmits hcovers,
      fun slot hslot start hsize ↦ ?_⟩
    rw [← hsize] at hadmits hcheck
    rw [runShare_eq_checked, checked_of_not_isEmpty hcheck (isEmpty_of_admits hadmits)]
    exact runShareChecked_eq hadmits hcovers hslot rfl

end Engine

end PanelGemm
