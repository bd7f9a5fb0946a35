import Mathlib.Algebra.Order.BigOperators.Group.List
import Mathlib.Algebra.Order.Ring.Nat
import PanelGemm.Proofs.Engine.Stack
import PanelGemm.Proofs.Threads.Cuts

/-!
# The bands of the workers

The output is cut where the spans of the workers meet, so every worker finds the rows of its tiles
in its band, as far as the output has them, and none of another worker's. A tile fits the band of
its worker exactly if it fits the output (`fittingTile_band`). The workers therefore compute what
they would on the whole output (`outcomesFrom_spans`): every one of them comes to the first tile of
its span that does not fit, and of these the first one is reported (`run_workers_ends`), as long as
words count where the tiles lie (`CountableTile`) and how many kernel calls they take. If all tiles
are sound words do, and the output is left with all tiles applied, whatever the number of threads
(`run_workers`).
-/

set_option autoImplicit false
set_option relaxedAutoImplicit false

namespace PanelGemm

namespace Workers

/-- What is joined can be freed of sizes before or after. -/
theorem joined_mapError (results : List (Except Failure Nat)) (worker : Nat) :
    (joined worker results).mapError Failure.withoutSizes =
      joined worker (results.map fun result ↦ result.mapError Failure.withoutSizes) := by
  induction results generalizing worker with
  | nil => rfl
  | cons result results ih =>
    rw [List.map_cons]
    cases result with
    | ok calls =>
      rw [joined_cons_ok, mapError_map, ih]
      exact (joined_cons_ok _ _ _).symm
    | error failure =>
      cases failure with
      | refused reason => rfl
      | panicked => rfl
      | wild => rfl

/-- The outputs of workers put together after what is there already. -/
theorem foldl_outputs (outcomes : List (Outcome Nat)) (start : Array Single) :
    outcomes.foldl (fun joined outcome ↦ joined ++ outcome.output) start =
      start ++ outcomes.foldl (fun joined outcome ↦ joined ++ outcome.output) #[] := by
  induction outcomes generalizing start with
  | nil => simp
  | cons outcome outcomes ih =>
    rw [List.foldl_cons, List.foldl_cons, ih, ih (#[] ++ outcome.output), Array.append_assoc,
      Array.empty_append]

/-- The outcomes of workers on bands from an offset of the output on. -/
def outcomesFrom (output : Array Single) (stride offset : Nat) (spans : List (List Tile))
    (work : Work) : List (Outcome Nat) :=
  outcomes (slices output stride offset ((spans.drop 1).map firstRow)) spans work

theorem outcomesFrom_singleton (output : Array Single) (stride offset : Nat) (span : List Tile)
    (work : Work) : outcomesFrom output stride offset [span] work =
      [work (output.extract offset) span (firstRow span)] :=
  rfl

/-- The first of several workers has the band up to the first row of the next one. -/
theorem outcomesFrom_cons (output : Array Single) (stride offset : Nat) (span next : List Tile)
    (spans : List (List Tile)) (work : Work) :
    outcomesFrom output stride offset (span :: next :: spans) work =
      work (output.extract offset (min (firstRow next * stride) output.size)) span
          (firstRow span) ::
        outcomesFrom output stride (min (firstRow next * stride) output.size) (next :: spans)
          work :=
  rfl

/-- The work of several workers joined, if words count where the output is cut and how much they
count themselves. -/
theorem runMany_eq (arithmetic : Arithmetic) {output : Array Single} {stride : Nat}
    {spans : List (List Tile)} {work : Work} (hascending : (spans.map firstRow).Pairwise (· ≤ ·))
    (hwords : ∀ span ∈ spans, firstRow span * stride < Word.limit)
    (htotal : total ((outcomesFrom output stride 0 spans work).map Outcome.result) < Word.limit) :
    runMany arithmetic output stride spans work =
      ⟨joined 0 ((outcomesFrom output stride 0 spans work).map Outcome.result),
        (outcomesFrom output stride 0 spans work).foldl
          (fun joined outcome ↦ joined ++ outcome.output) #[]⟩ := by
  rw [← result_join_of_lt arithmetic htotal, runMany, bands_eq arithmetic output hascending hwords]
  rfl

end Workers

namespace Engine

open Workers

variable {engine : Engine} {request : Request} {output : Array Single} {row stop size : Nat}
  {span : List Tile} {spans : List (List Tile)}

/-- Words count the elements in front of a tile and those that the output needs to hold it. -/
structure CountableTile (request : Request) (tile : Tile) : Prop where
  row : tile.row * request.outputStride < Word.limit
  needed : needed request 0 tile < Word.limit

/-- Words count where a tile lies that fits the output. -/
theorem FittingTile.countable {tile : Tile} (hsize : size < Word.limit)
    (h : engine.FittingTile request 0 size tile) : CountableTile request tile := by
  have hneeded := h.needed_le
  have hrow : (tile.row - 0) * request.outputStride + 0 * request.outputStride + request.n ≤
      needed request 0 tile := row_le_needed h.rows_pos
  rw [Nat.sub_zero] at hrow
  exact ⟨by omega, by omega⟩

/-- A tile fits the band of its worker if it fits the whole output: a band ends with the output or
behind the rows of its tiles. -/
theorem fittingTile_band (hadmits : engine.Admits request size) {tile : Tile} {finish : Nat}
    (hrow : row ≤ tile.row) (hle : finish ≤ size)
    (hfinish : min (tile.stop * request.outputStride) size ≤ finish) :
    engine.FittingTile request row (finish - min (row * request.outputStride) size) tile ↔
      engine.FittingTile request 0 size tile := by
  rw [fittingTile_iff, fittingTile_iff]
  refine and_congr_right fun _ ↦ and_congr_right fun hrows ↦ ?_
  have hneeded : row * request.outputStride + needed request row tile = needed request 0 tile :=
    add_needed hrows hrow
  have hwhole : needed request 0 tile ≤ tile.stop * request.outputStride := by
    have hlast := row_end_le (Nat.sub_lt (Nat.add_pos_right tile.row hrows) Nat.one_pos)
      request.outputStride
    exact Nat.le_trans (Nat.add_le_add_left hadmits.stride _) hlast
  have hpos : 0 < needed request row tile := Nat.add_pos_right _ hadmits.columns_pos
  omega

/-- A worker does on its band what the tiles of its span do to the whole output, and it reports what
they deserve there. -/
theorem runSpan_band (hadmits : engine.Admits request output.size)
    (hwords : ∀ tile ∈ span, needed request 0 tile < Word.limit)
    (hsupplies : ∀ tile ∈ span, engine.FittingTile request 0 output.size tile →
      request.Supplies tile)
    (hroom : HasRoom request span) (hstacked : Stacked row span stop) {finish : Nat}
    (hle : finish ≤ output.size)
    (hfinish : min (stop * request.outputStride) output.size ≤ finish) :
    ∃ result, engine.runSpan request
        (output.extract (min (row * request.outputStride) output.size) finish) span row =
        ⟨result, (output.extract (min (row * request.outputStride) output.size) finish).mapIdx
          fun q ↦ tilesRewrite engine request (engine.computed request 0 output.size span)
            (row * request.outputStride + q)⟩ ∧
      result.mapError Failure.withoutSizes =
        (engine.verdict request 0 output.size span).mapError Failure.withoutSizes := by
  have hsize : (output.extract (min (row * request.outputStride) output.size) finish).size =
      finish - min (row * request.outputStride) output.size := by
    rw [Array.size_extract, Nat.min_eq_left hle]
  have hfits : ∀ tile ∈ span, (engine.FittingTile request row
      (output.extract (min (row * request.outputStride) output.size) finish).size tile ↔
        engine.FittingTile request 0 output.size tile) := by
    intro tile htile
    obtain ⟨hrow, hstop⟩ := hstacked.bounds.2 tile htile
    have hends := Nat.mul_le_mul_right request.outputStride hstop
    rw [hsize]
    exact fittingTile_band hadmits hrow hle (by omega)
  refine ⟨_, ?_, verdict_congr hfits⟩
  rw [← computed_congr hfits]
  have hband := hadmits.resident.size_lt
  exact runSpan_eq hadmits (by omega) hwords
    (fun tile htile h ↦ hsupplies tile htile ((hfits tile htile).mp h)) hroom
    fun tile htile ↦ (hstacked.bounds.2 tile htile).1

/-- Two adjoining bands, each with tiles of its own rows applied, are the part of the output that
they make up with all of these tiles applied. -/
theorem append_bands {middle : Nat} {rest : List Tile}
    (hstride : request.n ≤ request.outputStride) (hle : row ≤ middle)
    (hspan : ∀ tile ∈ span, tile.stop ≤ middle) (hrest : ∀ tile ∈ rest, middle ≤ tile.row) :
    (output.extract (min (row * request.outputStride) output.size)
          (min (middle * request.outputStride) output.size)).mapIdx
        (fun q ↦ tilesRewrite engine request span (row * request.outputStride + q)) ++
      (output.extract (min (middle * request.outputStride) output.size)).mapIdx
        (fun q ↦ tilesRewrite engine request rest (middle * request.outputStride + q)) =
      (output.extract (min (row * request.outputStride) output.size)).mapIdx fun q ↦
        tilesRewrite engine request (span ++ rest) (row * request.outputStride + q) := by
  have hstart : row * request.outputStride ≤ middle * request.outputStride :=
    Nat.mul_le_mul_right _ hle
  have hwhole : output.extract (min (row * request.outputStride) output.size) =
      output.extract (min (row * request.outputStride) output.size)
          (min (middle * request.outputStride) output.size) ++
        output.extract (min (middle * request.outputStride) output.size) := by
    rw [Array.extract_append_extract]
    congr 1 <;> omega
  rw [hwhole, Array.mapIdx_append]
  congr 1
  · refine Array.mapIdx_eq_mapIdx_iff.mpr fun q hq ↦ ?_
    rw [Array.size_extract] at hq
    rw [tilesRewrite_append, tilesRewrite_of_lt hrest (by omega)]
  · refine Array.mapIdx_eq_mapIdx_iff.mpr fun q hq ↦ ?_
    rw [Array.size_extract] at hq
    rw [Array.size_extract, tilesRewrite_append,
      show row * request.outputStride + (q +
        (min (min (middle * request.outputStride) output.size) output.size -
          min (row * request.outputStride) output.size)) =
        middle * request.outputStride + q by omega,
      tilesRewrite_of_le hstride hspan (Nat.le_add_right _ _)]

/-- The workers on the bands from a row on report what their spans deserve on the whole output, and
their bands put together are the output from there on with the tiles applied that fit. -/
theorem outcomesFrom_spans (hadmits : engine.Admits request output.size) (hspans : spans ≠ [])
    (hwords : ∀ tile ∈ spans.flatten, needed request 0 tile < Word.limit)
    (hsupplies : ∀ tile ∈ spans.flatten, engine.FittingTile request 0 output.size tile →
      request.Supplies tile)
    (hroom : HasRoom request spans.flatten) (hnonempty : ∀ span ∈ spans, span ≠ [])
    (hstacked : Stacked row spans.flatten stop) :
    (outcomesFrom output request.outputStride (min (row * request.outputStride) output.size) spans
        (engine.runSpan request)).map (fun outcome ↦
          outcome.result.mapError Failure.withoutSizes) =
      spans.map (fun span ↦
        (engine.verdict request 0 output.size span).mapError Failure.withoutSizes) ∧
    (outcomesFrom output request.outputStride (min (row * request.outputStride) output.size) spans
        (engine.runSpan request)).foldl (fun joined outcome ↦ joined ++ outcome.output) #[] =
      (output.extract (min (row * request.outputStride) output.size)).mapIdx fun q ↦
        tilesRewrite engine request (spans.flatMap (engine.computed request 0 output.size))
          (row * request.outputStride + q) := by
  induction spans generalizing row with
  | nil => exact absurd rfl hspans
  | cons span spans ih =>
    have hfirst := firstRow_of_stacked (hnonempty span List.mem_cons_self) hstacked
    rw [List.flatten_cons] at hwords hsupplies hroom hstacked
    obtain ⟨middle, hspan, hrest⟩ := Stacked.append_iff.mp hstacked
    obtain ⟨hword, hwords⟩ := List.forall_mem_append.mp hwords
    obtain ⟨hsupplied, hsupplies⟩ := List.forall_mem_append.mp hsupplies
    have hroom' := hroom.mono (List.subset_append_left span _)
    cases spans with
    | nil =>
      obtain ⟨result, hrun, hresult⟩ := runSpan_band hadmits hword hsupplied hroom' hspan
        (Nat.le_refl output.size) (Nat.min_le_right _ _)
      simp only [outcomesFrom_singleton, hfirst, hrun, List.map_cons, List.map_nil, hresult,
        List.foldl_cons, List.foldl_nil, Array.empty_append, List.flatMap_cons, List.flatMap_nil,
        List.append_nil, true_and]
    | cons next spans =>
      have hnext := firstRow_of_stacked (hnonempty next (by simp)) hrest
      obtain ⟨result, hrun, hresult⟩ := runSpan_band hadmits hword hsupplied hroom' hspan
        (Nat.min_le_right (middle * request.outputStride) output.size) (Nat.le_refl _)
      obtain ⟨hresults, houtputs⟩ := ih (List.cons_ne_nil _ _) hwords hsupplies
        (hroom.mono (List.subset_append_right span _))
        (fun other hother ↦ hnonempty other (List.mem_cons_of_mem _ hother)) hrest
      rw [outcomesFrom_cons, hfirst, hnext, hrun]
      constructor
      · rw [List.map_cons, hresults]
        exact congrArg (fun result ↦ result :: _) hresult
      · have hcomputed : (span :: next :: spans).flatMap (engine.computed request 0 output.size) =
            engine.computed request 0 output.size span ++
              (next :: spans).flatMap (engine.computed request 0 output.size) := List.flatMap_cons
        rw [List.foldl_cons, foldl_outputs, houtputs, Array.empty_append, hcomputed]
        refine append_bands hadmits.stride hspan.bounds.1 (fun tile htile ↦ ?_) fun tile htile ↦ ?_
        · exact (hspan.bounds.2 tile (computed_subset htile)).2
        · exact (hrest.bounds.2 tile (flatMap_computed_subset htile)).1

/-- What the workers report is the verdict on all of their tiles. -/
theorem joined_verdict (size : Nat) (spans : List (List Tile)) (worker : Nat) :
    joined worker (spans.map (engine.verdict request 0 size)) =
      engine.verdict request 0 size spans.flatten := by
  induction spans generalizing worker with
  | nil => rfl
  | cons span spans ih =>
    rw [List.map_cons, List.flatten_cons]
    rcases engine.fitting_or_first request 0 size span with
      hall | ⟨before, tile, after, rfl, hbefore, hnot⟩
    · rw [verdict_append hall, verdict_of_fitting hall, joined_cons_ok, ih]
    · rw [List.append_assoc, List.cons_append, verdict_of_first hbefore hnot,
        verdict_of_first hbefore hnot]
      rfl

/-- The workers count no more kernel calls than their tiles take. -/
theorem total_verdict_le (engine : Engine) (request : Request) (size : Nat)
    (spans : List (List Tile)) :
    total (spans.map (engine.verdict request 0 size)) ≤
      (spans.flatten.map (tileCalls request)).sum := by
  induction spans with
  | nil => exact Nat.le_refl 0
  | cons span spans ih =>
    rw [List.map_cons, List.flatten_cons, List.map_append, List.sum_append]
    rcases engine.fitting_or_first request 0 size span with
      hall | ⟨before, tile, after, rfl, hbefore, hnot⟩
    · rw [verdict_of_fitting hall, total_cons_ok]
      exact Nat.add_le_add_left ih _
    · rw [verdict_of_first hbefore hnot, total_cons_error]
      exact Nat.le_trans ih (Nat.le_add_left _ _)

/-- Any number of threads leaves the output with the tiles applied that come before the first one of
their span that does not fit, and reports the first one of all. -/
theorem run_workers_ends (hadmits : engine.Admits request output.size) {tiles : List Tile}
    (hwords : ∀ tile ∈ tiles, CountableTile request tile)
    (hcalls : (tiles.map (tileCalls request)).sum < Word.limit)
    (hsupplies : ∀ tile ∈ tiles, engine.FittingTile request 0 output.size tile →
      request.Supplies tile)
    (hroom : HasRoom request tiles) (hstacked : Stacked 0 tiles stop) (threads : Nat) :
    ∃ result, Workers.run request.arithmetic output request.outputStride tiles threads
        (engine.runSpan request) =
        ⟨result, output.mapIdx (tilesRewrite engine request
          ((tileSpans (count threads tiles) tiles).flatMap
            (engine.computed request 0 output.size)))⟩ ∧
      result.mapError Failure.withoutSizes =
        (engine.verdict request 0 output.size tiles).mapError Failure.withoutSizes := by
  have hneeded : ∀ tile ∈ tiles, needed request 0 tile < Word.limit :=
    fun tile htile ↦ (hwords tile htile).needed
  by_cases hcount : count threads tiles = 1
  · have hrun := runSpan_eq hadmits hadmits.resident.size_lt hneeded hsupplies hroom
      fun _ _ ↦ Nat.zero_le _
    simp only [Nat.zero_mul, Nat.zero_add] at hrun
    have hwork : Workers.run request.arithmetic output request.outputStride tiles threads
        (engine.runSpan request) = engine.runSpan request output tiles 0 := if_pos hcount
    refine ⟨_, ?_, rfl⟩
    rw [hwork, hrun, hcount, tileSpans_one, List.flatMap_singleton]
  · let spans := tileSpans (count threads tiles) tiles
    have hpos := count_pos threads tiles
    have hflatten : spans.flatten = tiles := tileSpans_flatten hpos tiles
    have hnonempty : ∀ span ∈ spans, span ≠ [] :=
      fun span hspan ↦ ne_nil_of_mem_tileSpans hpos (count_le hcount) hspan
    have hstacked' : Stacked 0 spans.flatten stop := hflatten.symm ▸ hstacked
    obtain ⟨hresults, houtputs⟩ := outcomesFrom_spans hadmits (tileSpans_ne_nil hpos tiles)
      (hflatten.symm ▸ hneeded) (hflatten.symm ▸ hsupplies) (hflatten.symm ▸ hroom) hnonempty
      hstacked'
    rw [Nat.zero_mul, Nat.zero_min] at hresults houtputs
    simp only [Nat.zero_add, Array.extract_size] at houtputs
    have htotal : total ((outcomesFrom output request.outputStride 0 spans
        (engine.runSpan request)).map Outcome.result) < Word.limit := by
      have hle := engine.total_verdict_le request output.size spans
      rw [hflatten, ← total_mapError Failure.withoutSizes, List.map_map] at hle
      rw [← total_mapError Failure.withoutSizes, List.map_map]
      exact Nat.lt_of_le_of_lt (Nat.le_trans (Nat.le_of_eq (congrArg total hresults)) hle) hcalls
    have hrows : ∀ tile ∈ spans.flatten, tile.row * request.outputStride < Word.limit :=
      fun tile htile ↦ (hwords tile (hflatten ▸ htile)).row
    have hmany := runMany_eq request.arithmetic (pairwise_firstRow hnonempty hstacked')
      (firstRow_mul_lt hnonempty hrows) htotal
    rw [houtputs] at hmany
    have hrun : Workers.run request.arithmetic output request.outputStride tiles threads
        (engine.runSpan request) = _ := (if_neg hcount).trans hmany
    refine ⟨_, hrun, ?_⟩
    have hverdict : joined 0 (spans.map (engine.verdict request 0 output.size)) =
        engine.verdict request 0 output.size tiles := by
      rw [joined_verdict, hflatten]
    rw [joined_mapError, ← hverdict, joined_mapError, List.map_map, List.map_map]
    exact congrArg (joined 0) hresults

/-! ### The number of kernel calls -/

/-- A panel has no more K-blocks than rows. -/
theorem length_blockStarts_le (shape : PanelShape) : shape.blockStarts.length ≤ shape.rows := by
  rw [PanelShape.blockStarts, List.length_map, List.length_range]
  rcases Nat.eq_zero_or_pos shape.rowBlocks with hzero | hpos
  · exact hzero ▸ Nat.zero_le _
  · have hlast := shape.rowBlocks_mul_lt (Nat.sub_lt hpos Nat.one_pos)
    have hle := Nat.le_mul_of_pos_right (shape.rowBlocks - 1) shape.blockRows_pos
    omega

theorem tileCalls_le (request : Request) (tile : Tile) :
    tileCalls request tile ≤ request.k * 2 := by
  have hpass : passCalls request tile.isMasked ≤ 2 := by
    unfold passCalls
    split_ifs <;> omega
  exact Nat.mul_le_mul (length_blockStarts_le request.panel.shape) hpass

/-- Tiles with rows that are stacked are no more than there are rows. -/
theorem length_le_of_stacked {tiles : List Tile} (hpos : ∀ tile ∈ tiles, 0 < tile.rows)
    (hstacked : Stacked row tiles stop) : row + tiles.length ≤ stop := by
  induction tiles generalizing row with
  | nil => exact Nat.le_of_eq hstacked
  | cons tile tiles ih =>
    obtain ⟨rfl, hrest⟩ := hstacked
    obtain ⟨hrows, hpos⟩ := List.forall_mem_cons.mp hpos
    have hbelow := ih hpos hrest
    unfold Tile.stop at hbelow
    rw [List.length_cons]
    omega

/-- A word counts the kernel calls of sound tiles. -/
theorem sum_tileCalls_lt (hadmits : engine.Admits request size) {tiles : List Tile}
    (hsound : ∀ tile ∈ tiles, engine.SoundTile request tile)
    (hstacked : Stacked 0 tiles request.m) :
    (tiles.map (tileCalls request)).sum < Word.limit := by
  have hlength := length_le_of_stacked (fun tile htile ↦ (hsound tile htile).rows_pos) hstacked
  have hsum : (tiles.map (tileCalls request)).sum ≤ tiles.length * (request.k * 2) := by
    have hle := List.sum_le_card_nsmul (tiles.map (tileCalls request)) (request.k * 2)
      (List.forall_mem_map.mpr fun tile _ ↦ tileCalls_le request tile)
    rwa [List.length_map, Nat.nsmul_eq_mul] at hle
  have hproducts : tiles.length * (request.k * 2) ≤ request.left.size * 2 := by
    rw [← Nat.mul_assoc]
    refine Nat.mul_le_mul_right _ (Nat.le_trans (Nat.mul_le_mul_right _ ?_) hadmits.products_le)
    omega
  have hleft := hadmits.resident.left
  unfold Addressable Capacity.singleBytes Word.signedLimit at hleft
  unfold Word.limit
  omega

/-- Any number of threads leaves the output with all tiles applied if they are sound. -/
theorem run_workers (hadmits : engine.Admits request output.size) {tiles : List Tile}
    (hsound : ∀ tile ∈ tiles, engine.SoundTile request tile) (hroom : HasRoom request tiles)
    (hstacked : Stacked 0 tiles request.m) (threads : Nat) :
    Workers.run request.arithmetic output request.outputStride tiles threads
        (engine.runSpan request) =
      ⟨.ok (tiles.map (tileCalls request)).sum,
        output.mapIdx (tilesRewrite engine request tiles)⟩ := by
  have hfits : ∀ tile ∈ tiles, engine.FittingTile request 0 output.size tile :=
    fun tile htile ↦ (hsound tile htile).fitting_whole hadmits
  have hflatten := tileSpans_flatten (count_pos threads tiles) tiles
  have hcomputed : (tileSpans (count threads tiles) tiles).flatMap
      (engine.computed request 0 output.size) = tiles := by
    have hspans : (tileSpans (count threads tiles) tiles).map
        (engine.computed request 0 output.size) = tileSpans (count threads tiles) tiles := by
      refine (List.map_congr_left fun span hspan ↦ ?_).trans (List.map_id _)
      exact computed_of_fitting fun tile htile ↦
        hfits tile (hflatten ▸ List.mem_flatten.mpr ⟨span, hspan, htile⟩)
    rw [List.flatMap_def, hspans, hflatten]
  obtain ⟨result, hrun, hresult⟩ := run_workers_ends hadmits
    (fun tile htile ↦ (hfits tile htile).countable hadmits.resident.size_lt)
    (sum_tileCalls_lt hadmits hsound hstacked)
    (fun tile htile _ ↦ (hsound tile htile).supplies hadmits) hroom hstacked threads
  rw [hrun, hcomputed, result_of_fitting hresult hfits]

end Engine

end PanelGemm
