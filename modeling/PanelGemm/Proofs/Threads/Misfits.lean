import PanelGemm.Proofs.Engine.Run
import PanelGemm.Proofs.Threads.Schedule

/-!
# Runs with tiles that do not fit

A family may list steps that no kernel covers, that have no rows, or that reach behind the output.
Every worker computes the tiles of its span before the first such one and leaves the rows of this
tile and of the later ones alone; a run reports the first one of all, whatever the number of its
threads (`Engine.StopsAtMisfits`, `Engine.run_stops_at_misfits`). For this words have to count where
the listed tiles lie, also those behind the output.

The buffers of a span are sized for the tallest kernel that is listed for it, before the kernels are
looked up. A kernel that is missing and too tall for any buffer is therefore not refused: making
room for it is a panic (`Engine.run_without_room`).
-/

set_option autoImplicit false
set_option relaxedAutoImplicit false

namespace PanelGemm

namespace Engine

open Workers

variable {engine : Engine} {request : Request} {output : Array Single} {span tiles : List Tile}
  {spans : List (List Tile)} {tile : Tile} {row stop : Nat}

/-- In the rows of one span the spans together compute what this one computes. -/
theorem element_of_span {size : Nat} (hstride : request.n ≤ request.outputStride)
    (hstacked : Stacked row spans.flatten stop) (hspan : span ∈ spans) (htile : tile ∈ span)
    {i j : Nat} (hrow : tile.row ≤ i) (hstop : i < tile.stop) (hj : j < request.outputStride) :
    (output.mapIdx (tilesRewrite engine request
        (spans.flatMap (engine.computed request 0 size))))[i * request.outputStride + j]? =
      (output.mapIdx (tilesRewrite engine request
        (engine.computed request 0 size span)))[i * request.outputStride + j]? := by
  obtain ⟨before, after, first, last, rfl, hbefore, hhere, hafter⟩ := hstacked.exists_parts hspan
  obtain ⟨hfirst, hlast⟩ := hhere.bounds.2 tile htile
  have hstart := Nat.mul_le_mul_right request.outputStride (Nat.le_trans hfirst hrow)
  have hend := row_end_le (Nat.lt_of_lt_of_le hstop hlast) request.outputStride
  have habove : ∀ other ∈ before.flatMap (engine.computed request 0 size), other.stop ≤ first :=
    fun other hother ↦ (hbefore.bounds.2 other (flatMap_computed_subset hother)).2
  have hbelow : ∀ other ∈ after.flatMap (engine.computed request 0 size), last ≤ other.row :=
    fun other hother ↦ (hafter.bounds.2 other (flatMap_computed_subset hother)).1
  rw [Array.getElem?_mapIdx, Array.getElem?_mapIdx]
  refine Option.map_congr fun x _ ↦ ?_
  rw [List.flatMap_append, List.flatMap_cons, tilesRewrite_append, tilesRewrite_append,
    tilesRewrite_of_le hstride habove (by omega), tilesRewrite_of_lt hbelow (by omega)]

/-- The computed tiles of a stack keep the rows of the skipped ones. -/
theorem element_of_skipped {size : Nat} (hstride : request.n ≤ request.outputStride)
    (hstacked : Stacked row tiles stop) (htile : tile ∈ engine.skipped request 0 size tiles)
    {i : Nat} (hrow : tile.row ≤ i) (j : Nat) :
    (output.mapIdx (tilesRewrite engine request
        (engine.computed request 0 size tiles)))[i * request.outputStride + j]? =
      output[i * request.outputStride + j]? := by
  have hparts : engine.computed request 0 size tiles ++ engine.skipped request 0 size tiles =
      tiles := List.takeWhile_append_dropWhile
  rw [← hparts] at hstacked
  obtain ⟨middle, hcomputed, hskipped⟩ := Stacked.append_iff.mp hstacked
  have hmiddle := Nat.mul_le_mul_right request.outputStride
    (Nat.le_trans (hskipped.bounds.2 tile htile).1 hrow)
  rw [Array.getElem?_mapIdx]
  cases output[i * request.outputStride + j]? with
  | none => rfl
  | some x =>
    rw [Option.map_some, tilesRewrite_of_le hstride
      (fun other hother ↦ (hcomputed.bounds.2 other hother).2) (by omega)]

/-- How a run ends with tiles that need not fit the output. It is refused exactly if one of them
does not fit, for the reason of the first one. The output is left as by a span of the tiles that are
computed, which in the rows of a worker are those of its own span; the rows of the tiles that are
skipped are as before. -/
structure StopsAtMisfits (engine : Engine) (request : Request) (output : Array Single)
    (tiles : List Tile) (threads : Nat) (outcome : Outcome RunStats) : Prop where
  refused : (∃ reason, outcome.result = .error (.refused reason)) ↔
    ∃ tile ∈ tiles, ¬ engine.FittingTile request 0 output.size tile
  succeeds : (∀ tile ∈ tiles, engine.FittingTile request 0 output.size tile) →
    outcome.result = .ok (stats request tiles)
  first : ∀ before tile after, tiles = before ++ tile :: after →
    (∀ other ∈ before, engine.FittingTile request 0 output.size other) →
    ¬ engine.FittingTile request 0 output.size tile →
    ∃ reason, outcome.result = .error (.refused reason) ∧
      reason.withoutSizes = (engine.tileRefusal request 0 output.size tile).withoutSizes
  computed : ∃ calls, engine.runSpan request output ((tileSpans (count threads tiles) tiles).flatMap
    (engine.computed request 0 output.size)) 0 = ⟨.ok calls, outcome.output⟩
  span : ∀ span ∈ tileSpans (count threads tiles) tiles, ∃ calls final,
    engine.runSpan request output (engine.computed request 0 output.size span) 0 =
      ⟨.ok calls, final⟩ ∧
    ∀ tile ∈ span, ∀ i, tile.row ≤ i → i < tile.stop → ∀ j < request.outputStride,
      outcome.output[i * request.outputStride + j]? = final[i * request.outputStride + j]?
  kept : ∀ span ∈ tileSpans (count threads tiles) tiles,
    ∀ tile ∈ engine.skipped request 0 output.size span, ∀ i, tile.row ≤ i → i < tile.stop →
      ∀ j < request.outputStride,
        outcome.output[i * request.outputStride + j]? = output[i * request.outputStride + j]?

/-! ### Workers that stop -/

section Workers

variable (hadmits : engine.Admits request output.size)
  (hwords : ∀ tile ∈ tiles, CountableTile request tile)
  (hcalls : (tiles.map (tileCalls request)).sum < Word.limit)
  (hsupplies : ∀ tile ∈ tiles, engine.FittingTile request 0 output.size tile →
    request.Supplies tile)
  (hroom : HasRoom request tiles)
include hadmits hsupplies hroom

/-- Tiles that fit are computed without the others, too. -/
theorem runSpan_part {part : List Tile} (hpart : part ⊆ tiles)
    (hfits : ∀ tile ∈ part, engine.FittingTile request 0 output.size tile) :
    engine.runSpan request output part 0 = ⟨.ok (part.map (tileCalls request)).sum,
      output.mapIdx (tilesRewrite engine request part)⟩ :=
  runSpan_fitting hadmits hfits (fun tile htile ↦ hsupplies tile (hpart htile) (hfits tile htile))
    (hroom.mono hpart)

include hwords hcalls in
/-- The workers stop at the first tiles of their spans that do not fit. -/
theorem stopsAtMisfits_workers (hstacked : Stacked 0 tiles stop) (threads : Nat) :
    StopsAtMisfits engine request output tiles threads
      ((Workers.run request.arithmetic output request.outputStride tiles threads
        (engine.runSpan request)).map fun calls ↦ ⟨tiles.length, calls⟩) := by
  obtain ⟨result, hrun, hresult⟩ :=
    run_workers_ends hadmits hwords hcalls hsupplies hroom hstacked threads
  have hflatten := tileSpans_flatten (count_pos threads tiles) tiles
  have hspans : Stacked 0 (tileSpans (count threads tiles) tiles).flatten stop :=
    hflatten.symm ▸ hstacked
  have hsubset : ∀ span ∈ tileSpans (count threads tiles) tiles, span ⊆ tiles :=
    fun span hspan tile htile ↦ hflatten ▸ List.mem_flatten.mpr ⟨span, hspan, htile⟩
  rw [hrun]
  exact {
    refused := by
      rcases engine.fitting_or_first request 0 output.size tiles with
        hfits | ⟨before, tile, after, htiles, hbefore, hnot⟩
      · rw [result_of_fitting hresult hfits]
        exact iff_of_false nofun fun ⟨tile, htile, hnot⟩ ↦ hnot (hfits tile htile)
      · obtain ⟨reason, hreason, -⟩ := result_of_first hresult htiles hbefore hnot
        rw [hreason]
        exact iff_of_true ⟨reason, rfl⟩ ⟨tile, by simp [htiles], hnot⟩
    succeeds := fun hfits ↦ by
      rw [result_of_fitting hresult hfits]
      rfl
    first := fun before tile after htiles hbefore hnot ↦ by
      obtain ⟨reason, hreason, hsame⟩ := result_of_first hresult htiles hbefore hnot
      rw [hreason]
      exact ⟨reason, rfl, hsame⟩
    computed := by
      refine ⟨_, runSpan_part hadmits hsupplies hroom
        (fun tile htile ↦ hflatten ▸ flatMap_computed_subset htile) fun tile htile ↦ ?_⟩
      obtain ⟨span, -, htile⟩ := List.mem_flatMap.mp htile
      exact fitting_of_mem_computed htile
    span := fun span hspan ↦ ⟨_, _, runSpan_part hadmits hsupplies hroom
      (fun _ htile ↦ hsubset span hspan (computed_subset htile)) fun _ ↦ fitting_of_mem_computed,
      fun tile htile i hrow hstop j hj ↦
        element_of_span hadmits.stride hspans hspan htile hrow hstop hj⟩
    kept := fun span hspan tile htile i hrow hstop j hj ↦ by
      obtain ⟨_, _, _, _, _, _, hhere, _⟩ := hspans.exists_parts hspan
      have hmem : tile ∈ span := (List.dropWhile_sublist _).subset htile
      exact (element_of_span hadmits.stride hspans hspan hmem hrow hstop hj).trans
        (element_of_skipped hadmits.stride hhere htile hrow j) }

end Workers

/-- Words count the rows of stacked tiles if they count where the tiles lie. -/
theorem stop_lt_of_countable (hcolumns : 0 < request.n) (hstride : request.n ≤ request.outputStride)
    (hwords : ∀ tile ∈ tiles, CountableTile request tile) (hrow : row < Word.limit)
    (hstacked : Stacked row tiles stop) : stop < Word.limit := by
  induction tiles generalizing row with
  | nil => exact hstacked ▸ hrow
  | cons tile tiles ih =>
    obtain ⟨hword, hwords⟩ := List.forall_mem_cons.mp hwords
    refine ih hwords ?_ hstacked.2
    have hneeded := hword.needed
    have hrows := Nat.le_mul_of_pos_right (tile.row - 0 + tile.rows - 1)
      (Nat.lt_of_lt_of_le hcolumns hstride)
    unfold needed at hneeded
    unfold Tile.stop
    omega

/-- A run on tiles that need not fit computes every worker's tiles up to the first one that does
not, leaves the others alone, and is refused for the first one of all. All that it needs is that the
left operand has the rows of the tiles that fit, that the tiles and their buffers can be had, and
that words count where the tiles lie and how many kernel calls they take. -/
theorem run_stops_at_misfits (engine : Engine) (request : Request) (output : Array Single)
    (steps : List Step) (threads : Nat)
    (hsteps : engine.family.partition request.arithmetic request.m = .ok steps)
    (hrows : ∀ step ∈ steps, step.rows ≤ step.kernelRows)
    (hm : 0 < request.m) (hk : 0 < request.k) (hn : 0 < request.n) (hthreads : 0 < threads)
    (hexact : request.CountsExactly) (hresident : request.Resident output.size)
    (hcheck : engine.check request output.size = .ok ())
    (hleft : ∀ tile ∈ Tile.place steps, engine.FittingTile request 0 output.size tile →
      ∀ i < tile.rows, ∀ p < request.k, (request.left? (tile.row + i) p).isSome = true)
    (htiles : steps.length * Tile.tileBytes < Word.signedLimit)
    (hroom : HasRoom request (Tile.place steps))
    (hwords : ∀ tile ∈ Tile.place steps, CountableTile request tile)
    (hcalls : ((Tile.place steps).map (tileCalls request)).sum < Word.limit) :
    StopsAtMisfits engine request output (Tile.place steps) threads
      (engine.run request output threads) := by
  have hadmits := admits_of_check hcheck hexact hresident hm hk hn
  have hstacked := Tile.stacked_placeFrom 0 steps
  have hsupplies : ∀ tile ∈ Tile.place steps, engine.FittingTile request 0 output.size tile →
      request.Supplies tile := by
    intro tile htile hfits
    obtain ⟨step, hstep, htileRows, hkernelRows⟩ := Tile.mem_placeFrom htile
    refine ⟨?_, hleft tile htile hfits⟩
    rw [htileRows, hkernelRows]
    exact hrows step hstep
  have hsum : (steps.map Step.rows).sum < Word.limit := by
    have hstop := stop_lt_of_countable hn hadmits.stride hwords Word.limit_pos hstacked
    rwa [Nat.zero_add] at hstop
  have hlaid : engine.family.tiles request.arithmetic request.m = .ok (Tile.place steps) := by
    rw [Family.tiles, hsteps, ok_bind]
    exact Tile.layOut_eq htiles hsum
  have hrun : engine.run request output threads =
      (Workers.run request.arithmetic output request.outputStride (Tile.place steps) threads
        (engine.runSpan request)).map fun calls ↦ ⟨(Tile.place steps).length, calls⟩ := by
    rw [run_eq_checked hthreads, checked_of_not_isEmpty hcheck (isEmpty_of_admits hadmits),
      runChecked, hlaid]
  rw [hrun]
  exact stopsAtMisfits_workers hadmits hwords hcalls hsupplies hroom hstacked threads

/-- An engine that lists a kernel it does not have for the second of three rows. -/
def gappedEngine : Engine :=
  ⟨.make (KernelTable.full .avx2 Family.narrowRows) Family.narrowRows
    (.fixed [⟨1, 1⟩, ⟨7, 1⟩, ⟨1, 1⟩])⟩

/-- Two threads come to the missing kernel in the second row, which is refused by its height and
left as it was. -/
theorem run_stops_at_misfits_gap :
    (∃ reason, (gappedEngine.run threeRows #[.zero, .one, .zero] 2).result =
        .error (.refused reason) ∧ reason.withoutSizes = .missingKernel .avx2 7 6) ∧
      (gappedEngine.run threeRows #[.zero, .one, .zero] 2).output[1]? = some .one := by
  have hcountable : ∀ tile ∈ Tile.place [⟨1, 1⟩, ⟨7, 1⟩, ⟨1, 1⟩],
      CountableTile threeRows tile := by
    have hrows : ∀ tile ∈ Tile.place [⟨1, 1⟩, ⟨7, 1⟩, ⟨1, 1⟩],
        tile.row * threeRows.outputStride < Word.limit ∧
          needed threeRows 0 tile < Word.limit := by decide
    exact fun tile htile ↦ ⟨(hrows tile htile).1, (hrows tile htile).2⟩
  have hstops := run_stops_at_misfits gappedEngine threeRows #[.zero, .one, .zero]
    [⟨1, 1⟩, ⟨7, 1⟩, ⟨1, 1⟩] 2 rfl (by decide) (by decide) (by decide) (by decide) (by decide)
    countsExactly_threeRows resident_threeRows (by rfl) (by decide) (by decide)
    ⟨by decide, by decide⟩ hcountable (by decide)
  refine ⟨?_, ?_⟩
  · exact hstops.first [⟨0, 1, 1⟩] ⟨1, 1, 7⟩ [⟨2, 1, 1⟩] rfl (by decide) (by decide)
  · exact hstops.kept [⟨0, 1, 1⟩, ⟨1, 1, 7⟩] (by decide) ⟨1, 1, 7⟩ (by decide) 1 (by decide)
      (by decide) 0 (by decide)

/-- An engine that lists a kernel that no buffer is long enough for. -/
def toweringEngine : Engine :=
  ⟨.make (KernelTable.full .avx2 Family.narrowRows) Family.narrowRows (.fixed [⟨2 ^ 62, 1⟩])⟩

/-- A kernel that is missing and too tall for any buffer is not refused: making room for its strip
is a panic. -/
theorem run_without_room :
    0 < Request.ones.m ∧ 0 < Request.ones.k ∧ 0 < Request.ones.n ∧
      toweringEngine.check .ones 1 = .ok () ∧
      toweringEngine.family.partition .wrapping Request.ones.m = .ok [⟨2 ^ 62, 1⟩] ∧
      (∀ i < 1, ∀ p < Request.ones.k, (Request.ones.left? i p).isSome = true) ∧
      ¬ toweringEngine.FittingTile .ones 0 1 ⟨0, 1, 2 ^ 62⟩ ∧
      (toweringEngine.run .ones #[.zero] 1).result = .error .panicked :=
  ⟨by decide, by decide, by decide, by rfl, rfl, by decide, by decide, by rfl⟩

end Engine

end PanelGemm
