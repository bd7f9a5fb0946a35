import PanelGemm.Proofs.Engine.Checked
import PanelGemm.Proofs.Threads.Bands

/-!
# A run from its check to its result

`Engine.Prepared` says of a family that it covers the rows of a request, and of the tiles and their
buffers that there is room for them (`Engine.Covers`), which holds of every family that is built in
(see `PanelGemm.Proofs.Engine.BuiltIn`). `run_eq` is the whole result of a run that is checked and
prepared: the statistics and the output do not mention the threads.
-/

set_option autoImplicit false
set_option relaxedAutoImplicit false

namespace PanelGemm

namespace Engine

variable {engine : Engine} {request : Request} {steps : List Step}

/-- Steps that an engine chooses for a request and that cover its rows, with room for their tiles
and for the buffers that these need. -/
structure Covers (engine : Engine) (request : Request) (steps : List Step) : Prop where
  chosen : engine.family.partition request.arithmetic request.m = .ok steps
  tiling : IsTiling engine.family.table steps request.m
  tiles : steps.length * Tile.tileBytes < Word.signedLimit
  room : HasRoom request (Tile.place steps)

/-- An engine chooses steps for a request that cover its rows, and has room for them. -/
def Prepared (engine : Engine) (request : Request) : Prop := ∃ steps, engine.Covers request steps

/-- The tiles of a tiling are sound. -/
theorem soundTile_of_isTiling (htiling : IsTiling engine.family.table steps request.m) :
    ∀ tile ∈ Tile.place steps, engine.SoundTile request tile := by
  intro tile htile
  obtain ⟨step, hstep, hrows, hkernel⟩ := Tile.mem_placeFrom htile
  refine ⟨?_, ?_, ?_, (htiling.stacked.bounds.2 tile htile).2⟩
  · rw [hkernel]
    exact htiling.holds step hstep
  · rw [hrows]
    exact htiling.rows_pos step hstep
  · rw [hrows, hkernel]
    exact htiling.rows_le step hstep

/-- The statistics of a run. -/
def stats (request : Request) (tiles : List Tile) : RunStats :=
  ⟨tiles.length, (tiles.map (tileCalls request)).sum⟩

/-- A request that can be computed is not empty. -/
theorem isEmpty_of_admits {size : Nat} (hadmits : engine.Admits request size) :
    request.isEmpty = false := by
  have hm := hadmits.rows_pos
  have hk := hadmits.depth_pos
  have hn := hadmits.columns_pos
  rw [← Bool.not_eq_true, Request.isEmpty_iff]
  omega

/-- A request that passes its check and is not empty can be computed. -/
theorem admits_of_not_isEmpty {size : Nat} (hcheck : engine.check request size = .ok ())
    (hexact : request.CountsExactly) (hresident : request.Resident size)
    (hempty : ¬ request.isEmpty = true) : engine.Admits request size := by
  rw [Request.isEmpty_iff] at hempty
  exact admits_of_check hcheck hexact hresident (by omega) (by omega) (by omega)

/-- A word counts the rows of a request that can be computed. -/
theorem rows_lt_of_admits {size : Nat} (hadmits : engine.Admits request size) :
    request.m < Word.limit := by
  have hleft := hadmits.resident.left.size_lt
  have hrows := Nat.le_mul_of_pos_right request.m hadmits.depth_pos
  have hproducts := hadmits.products_le
  omega

/-- A run that has nothing to compute leaves the output alone. -/
theorem run_of_isEmpty {output : Array Single} {threads : Nat} (hthreads : 0 < threads)
    (hcheck : engine.check request output.size = .ok ()) (hempty : request.isEmpty = true) :
    engine.run request output threads = ⟨.ok ⟨0, 0⟩, output⟩ := by
  rw [run_eq_checked hthreads, checked_of_isEmpty hcheck hempty]

/-- Steps that cover a request are placed one below the other. -/
theorem Covers.tiles_eq_ok {size : Nat} (h : engine.Covers request steps)
    (hadmits : engine.Admits request size) :
    engine.family.tiles request.arithmetic request.m = .ok (Tile.place steps) := by
  rw [Family.tiles, h.chosen, ok_bind]
  exact Tile.layOut_eq h.tiles (h.tiling.sum ▸ rows_lt_of_admits hadmits)

section Covered

variable {output : Array Single} (hadmits : engine.Admits request output.size)
  (hcovers : engine.Covers request steps)
include hadmits hcovers

/-- The tiles of steps that cover a request are applied to the output one after another, whatever
the number of threads. -/
theorem runChecked_eq (threads : Nat) :
    engine.runChecked request output threads = ⟨.ok (stats request (Tile.place steps)),
      output.mapIdx (tilesRewrite engine request (Tile.place steps))⟩ := by
  have hworkers := run_workers hadmits (soundTile_of_isTiling hcovers.tiling) hcovers.room
    hcovers.tiling.stacked threads
  rw [runChecked, hcovers.tiles_eq_ok hadmits]
  simp only [hworkers]
  rfl

/-- A thread within the number of threads has the tiles in its span. -/
theorem sharedTiles_eq {slot : ThreadSlot} (hslot : slot.thread < slot.threads) :
    engine.sharedTiles request slot = .ok ((Span.share slot.thread slot.threads
      (Tile.place steps).length).slice (Tile.place steps)) := by
  have htotal : (Tile.place steps).length < Word.limit := by
    have htiles := hcovers.tiles
    unfold Tile.tileBytes Word.signedLimit at htiles
    unfold Word.limit
    rw [Tile.place, Tile.length_placeFrom]
    omega
  rw [sharedTiles, hcovers.tiles_eq_ok hadmits, ok_bind, ThreadSlot.span,
    Span.share?_eq htotal hslot, ok_bind, Span.slice?_share hslot]

/-- The tiles of one thread among several are applied to the output one after another. -/
theorem runShareChecked_eq {slot : ThreadSlot} {share : List Tile}
    (hslot : slot.thread < slot.threads) (hshare : (Span.share slot.thread slot.threads
      (Tile.place steps).length).slice (Tile.place steps) = share) :
    engine.runShareChecked request output slot =
      ⟨.ok (stats request share), output.mapIdx (tilesRewrite engine request share)⟩ := by
  have hsubset : share ⊆ Tile.place steps :=
    hshare ▸ ((List.take_sublist _ _).trans (List.drop_sublist _ _)).subset
  have hspan := runSpan_whole hadmits
    (fun tile htile ↦ soundTile_of_isTiling hcovers.tiling tile (hsubset htile))
    (hcovers.room.mono hsubset)
  rw [runShareChecked, sharedTiles_eq hadmits hcovers hslot, hshare]
  simp only [hspan]
  rfl

end Covered

/-- A run of a request that is checked and prepared applies the tiles to the output one after
another, whatever the number of threads. -/
theorem run_eq {output : Array Single} {threads : Nat} (hthreads : 0 < threads)
    (hcheck : engine.check request output.size = .ok ())
    (hadmits : engine.Admits request output.size) (hcovers : engine.Covers request steps) :
    engine.run request output threads = ⟨.ok (stats request (Tile.place steps)),
      output.mapIdx (tilesRewrite engine request (Tile.place steps))⟩ := by
  rw [run_eq_checked hthreads, checked_of_not_isEmpty hcheck (isEmpty_of_admits hadmits),
    runChecked_eq hadmits hcovers threads]

/-- A run of a request that is checked and prepared succeeds with a stack of sound tiles. -/
theorem exists_tiles {output : Array Single} {threads : Nat} (hthreads : 0 < threads)
    (hcheck : engine.check request output.size = .ok ())
    (hadmits : engine.Admits request output.size) (hprepared : engine.Prepared request) :
    ∃ tiles, (∀ tile ∈ tiles, engine.SoundTile request tile) ∧ Stacked 0 tiles request.m ∧
      engine.run request output threads =
        ⟨.ok (stats request tiles), output.mapIdx (tilesRewrite engine request tiles)⟩ := by
  obtain ⟨steps, hcovers⟩ := hprepared
  exact ⟨Tile.place steps, soundTile_of_isTiling hcovers.tiling, hcovers.tiling.stacked,
    run_eq hthreads hcheck hadmits hcovers⟩

section Elements

variable {output : Array Single} {tiles : List Tile}

/-- An element in the rows of a tile is computed by this tile. -/
theorem element_of_tile (hadmits : engine.Admits request output.size)
    (hstacked : Stacked 0 tiles request.m) {tile : Tile} (htile : tile ∈ tiles) {i j : Nat}
    (hrow : tile.row ≤ i) (hstop : i < tile.stop) (hj : j < request.n) :
    ∃ old, output[i * request.outputStride + j]? = some old ∧
      (output.mapIdx (tilesRewrite engine request tiles))[i * request.outputStride + j]? =
        some (tileElement engine request tile i j old) := by
  have hi : i < request.m := Nat.lt_of_lt_of_le hstop (hstacked.bounds.2 tile htile).2
  have hposition : i * request.outputStride + j < output.size :=
    Nat.lt_of_lt_of_le (Nat.add_lt_add_left hj _) (hadmits.output i hi)
  have hold := Array.getElem?_eq_getElem hposition
  refine ⟨_, hold, ?_⟩
  rw [Array.getElem?_mapIdx, hold, Option.map_some,
    tilesRewrite_at hadmits.stride hstacked htile hrow hstop hj]

/-- Every element of the output is computed by a tile. -/
theorem element_of_stacked (hadmits : engine.Admits request output.size)
    (hstacked : Stacked 0 tiles request.m) {i j : Nat} (hi : i < request.m) (hj : j < request.n) :
    ∃ old, output[i * request.outputStride + j]? = some old ∧
      ∃ tile ∈ tiles, (output.mapIdx
        (tilesRewrite engine request tiles))[i * request.outputStride + j]? =
          some (tileElement engine request tile i j old) := by
  obtain ⟨tile, htile, hrow, hstop⟩ := hstacked.exists_tile (Nat.zero_le i) hi
  obtain ⟨old, hold, hvalue⟩ := element_of_tile hadmits hstacked htile hrow hstop hj
  exact ⟨old, hold, tile, htile, hvalue⟩

/-- Every other element of the buffer is kept. -/
theorem kept_of_stacked (hstacked : Stacked 0 tiles request.m) {q : Nat}
    (hq : ∀ i < request.m, ∀ j < request.n, q ≠ i * request.outputStride + j) :
    (output.mapIdx (tilesRewrite engine request tiles))[q]? = output[q]? := by
  rw [Array.getElem?_mapIdx]
  cases output[q]? with
  | none => rfl
  | some x => rw [Option.map_some, tilesRewrite_of_forall_ne hstacked hq]

end Elements

end Engine

end PanelGemm
