import PanelGemm.Proofs.Engine.Placement
import PanelGemm.Proofs.Threads.Bands

/-!
# Where the bands of the workers meet

The spans of the workers take over from one another without a gap (`stacked_tilesOf`), and the
output is cut at the rows where they do. Every span but the first starts at a row of the output, as
long as all tiles have rows, so the place of a cut is never beyond the end of the output, which
makes it a word, and never before the cut made last (`Workers.Boundaries`). The bands are then
consecutive slices of the output. The rows of a tile end before the next span starts, and those of
the last span before the output ends, even if its last row is shorter than the others: every band
holds its tiles, and no worker refuses one of them for its place (`Workers.bands_hold_spans`).
-/

set_option autoImplicit false
set_option relaxedAutoImplicit false

namespace PanelGemm

/-- A stack of tiles that ends at a given row starts at one row only. -/
theorem Stacked.start_unique {row row' stop : Nat} {tiles : List Tile} (h : Stacked row tiles stop)
    (h' : Stacked row' tiles stop) : row = row' := by
  cases tiles with
  | nil => exact Eq.trans h (Eq.symm h')
  | cons tile tiles => rw [← h.1, h'.1]

namespace Workers

/-- The places where an output of a given size is cut for the spans of workers: the first rows of
the spans. They ascend, and none of them is beyond the end. -/
structure Boundaries (bounds : Nat → Nat) (size stride workers : Nat) (tiles : List Tile) :
    Prop where
  first : bounds 0 = 0
  start : ∀ worker < workers, bounds worker = firstRow (tilesOf workers tiles worker) * stride
  last : bounds workers = size
  ascending : ∀ worker < workers, bounds worker ≤ bounds (worker + 1)
  within : ∀ worker < workers, bounds worker ≤ size

/-- The slice of an output between the bound of a worker and the next one. -/
def bandAt (output : Array Single) (bounds : Nat → Nat) (worker : Nat) : Array Single :=
  output.extract (bounds worker) (bounds (worker + 1))

variable {arithmetic : Arithmetic} {size stride workers worker stop n : Nat} {tiles : List Tile}
  {tile : Tile}
  {output : Array Single} {bounds : Nat → Nat}

/-! ### The rows of the spans -/

/-- The row at which a worker starts; behind the last worker it is the row below all tiles. -/
def startRow (workers : Nat) (tiles : List Tile) (stop worker : Nat) : Nat :=
  if worker < workers then firstRow (tilesOf workers tiles worker) else stop

theorem startRow_of_lt (h : worker < workers) :
    startRow workers tiles stop worker = firstRow (tilesOf workers tiles worker) :=
  if_pos h

/-- The tiles from a worker on are its own and those from the next worker on. -/
theorem drop_eq_tilesOf_append (workers worker : Nat) (tiles : List Tile) :
    tiles.drop (Span.share worker workers tiles.length).start =
      tilesOf workers tiles worker ++
        tiles.drop (Span.share (worker + 1) workers tiles.length).start := by
  have hspan : (Span.share worker workers tiles.length).start ≤
      (Span.share worker workers tiles.length).stop := Span.start_le_stop
  have hparts := List.take_append_drop ((Span.share worker workers tiles.length).stop -
    (Span.share worker workers tiles.length).start)
    (tiles.drop (Span.share worker workers tiles.length).start)
  rw [List.drop_drop, Nat.add_sub_of_le hspan, Span.stop_share] at hparts
  rw [tilesOf, Span.slice, Span.stop_share, hparts]

theorem tilesOf_subset (workers worker : Nat) (tiles : List Tile) :
    tilesOf workers tiles worker ⊆ tiles :=
  fun _ htile ↦ List.drop_subset _ _ (List.take_subset _ _ htile)

theorem tilesOf_ne_nil (hle : workers ≤ tiles.length) (hworker : worker < workers) :
    tilesOf workers tiles worker ≠ [] :=
  ne_nil_of_mem_tileSpans (Nat.zero_lt_of_lt hworker) hle
    (List.mem_map.mpr ⟨worker, List.mem_range.mpr hworker, rfl⟩)

section Stacks

variable (hstacked : Stacked 0 tiles stop) (hle : workers ≤ tiles.length)

include hstacked hle

/-- The tiles from a worker on are stacked from the row at which it starts. -/
theorem stacked_drop (hpos : 0 < workers) (hworker : worker ≤ workers) :
    Stacked (startRow workers tiles stop worker)
      (tiles.drop (Span.share worker workers tiles.length).start) stop := by
  have hparts := hstacked
  rw [← List.take_append_drop (Span.share worker workers tiles.length).start tiles] at hparts
  obtain ⟨first, -, hrest⟩ := Stacked.append_iff.mp hparts
  rcases Nat.lt_or_eq_of_le hworker with hlt | rfl
  · have hown := hrest
    rw [drop_eq_tilesOf_append] at hown
    rwa [startRow_of_lt hlt, firstRow_of_stacked (tilesOf_ne_nil hle hlt) hown]
  · rw [Span.start_share_self hpos, List.drop_length, startRow, if_neg (Nat.lt_irrefl worker)]
    exact rfl

/-- The tiles of a worker are stacked from the row at which it starts to the row at which the next
one does. -/
theorem stacked_tilesOf (hworker : worker < workers) :
    Stacked (startRow workers tiles stop worker) (tilesOf workers tiles worker)
      (startRow workers tiles stop (worker + 1)) := by
  have hpos := Nat.zero_lt_of_lt hworker
  have hown := stacked_drop hstacked hle hpos (Nat.le_of_lt hworker)
  have hnext := stacked_drop hstacked hle hpos (Nat.succ_le_of_lt hworker)
  rw [drop_eq_tilesOf_append] at hown
  obtain ⟨middle, htiles, hrest⟩ := Stacked.append_iff.mp hown
  rwa [hnext.start_unique hrest]

theorem startRow_zero (hpos : 0 < workers) : startRow workers tiles stop 0 = 0 := by
  have hall := stacked_drop hstacked hle hpos (Nat.zero_le workers)
  rw [Span.start_share_zero, List.drop_zero] at hall
  exact hall.start_unique hstacked

theorem startRow_le (hpos : 0 < workers) (hworker : worker ≤ workers) :
    startRow workers tiles stop worker ≤ stop :=
  (stacked_drop hstacked hle hpos hworker).bounds.1

/-- A worker with tiles that have rows starts before the next one. -/
theorem startRow_lt (hrows : ∀ tile ∈ tiles, 0 < tile.rows) (hworker : worker < workers) :
    startRow workers tiles stop worker < startRow workers tiles stop (worker + 1) := by
  obtain ⟨tile, htile⟩ := List.exists_mem_of_ne_nil _ (tilesOf_ne_nil hle hworker)
  obtain ⟨hrow, hstop⟩ := (stacked_tilesOf hstacked hle hworker).bounds.2 tile htile
  have hpos := hrows tile (tilesOf_subset workers worker tiles htile)
  unfold Tile.stop at hstop
  omega

end Stacks

/-! ### Cuts between slices -/

/-- Cuts at rows whose places are known give the slices between these places. -/
theorem slices_range' {row : Nat → Nat} {first count : Nat}
    (hmeet : ∀ worker ∈ List.range' (first + 1) count,
      min (row worker * stride) output.size = bounds worker)
    (hlast : bounds (first + count + 1) = output.size) :
    slices output stride (bounds first) ((List.range' (first + 1) count).map row) =
      (List.range' first (count + 1)).map (bandAt output bounds) := by
  induction count generalizing first with
  | zero => simp [slices, bandAt, ← hlast]
  | succ count ih =>
    rw [List.range'_succ] at hmeet
    obtain ⟨hnext, hmeet⟩ := List.forall_mem_cons.mp hmeet
    rw [List.range'_succ, List.map_cons, slices, hnext, ih hmeet (by rw [← hlast]; congr 1; omega)]
    rfl

/-- Every worker does its work on its slice. -/
theorem outcomes_bandAt (work : Work) : outcomes ((List.range workers).map (bandAt output bounds))
      (tileSpans workers tiles) work =
    (List.range workers).map fun worker ↦
      work (bandAt output bounds worker) (tilesOf workers tiles worker)
        (firstRow (tilesOf workers tiles worker)) := by
  rw [outcomes, tileSpans, List.zipWith_map, List.zipWith_self]

namespace Boundaries

theorem le_size (h : Boundaries bounds size stride workers tiles) (hworker : worker < workers) :
    bounds (worker + 1) ≤ size := by
  by_cases hnext : worker + 1 < workers
  · exact h.within (worker + 1) hnext
  · rw [← h.last, show worker + 1 = workers by omega]

variable (h : Boundaries bounds output.size stride workers tiles)

include h

/-- Words count where the spans start, and neither a band nor what is left of the output ends before
it starts, so the cuts are made there. -/
theorem bands_eq (hstacked : Stacked 0 tiles stop) (hpos : 0 < workers)
    (hle : workers ≤ tiles.length) (hlimit : output.size < Word.limit) :
    bands arithmetic output stride (tileSpans workers tiles) =
      .ok ((List.range workers).map (bandAt output bounds)) := by
  obtain ⟨count, rfl⟩ : ∃ count, workers = count + 1 := ⟨workers - 1, by omega⟩
  have hrows : ((tileSpans (count + 1) tiles).drop 1).map firstRow =
      (List.range' (0 + 1) count).map fun worker ↦ firstRow (tilesOf (count + 1) tiles worker) := by
    simp [tileSpans, List.range_eq_range', List.range'_succ]
  have hmeet : ∀ worker ∈ List.range' (0 + 1) count,
      min (firstRow (tilesOf (count + 1) tiles worker) * stride) output.size = bounds worker := by
    intro worker hworker
    have hlt : worker < count + 1 := by
      have hmem := List.mem_range'_1.mp hworker
      omega
    rw [← h.start worker hlt]
    exact Nat.min_eq_left (h.within worker hlt)
  have hwords : ∀ span ∈ tileSpans (count + 1) tiles, firstRow span * stride < Word.limit := by
    intro span hspan
    obtain ⟨worker, hworker, rfl⟩ := List.mem_map.mp hspan
    have hlt := List.mem_range.mp hworker
    rw [← h.start worker hlt]
    exact Nat.lt_of_le_of_lt (h.within worker hlt) hlimit
  have hascending : ((tileSpans (count + 1) tiles).map firstRow).Pairwise (· ≤ ·) :=
    pairwise_firstRow (fun span hspan ↦ ne_nil_of_mem_tileSpans hpos hle hspan)
      ((tileSpans_flatten hpos tiles).symm ▸ hstacked)
  have hslices := slices_range' hmeet (by rw [Nat.zero_add]; exact h.last)
  rw [h.first] at hslices
  rw [Workers.bands_eq _ _ hascending hwords, hrows, hslices, List.range_eq_range']

theorem append_bands :
    ((List.range workers).map (bandAt output bounds)).foldl (· ++ ·) #[] = output := by
  have hslices : ((List.range workers).map (bandAt output bounds)).foldl (· ++ ·) #[] =
      output.extract (bounds 0) (bounds workers) := (foldl_extract h.ascending).2
  rw [hslices, h.first, h.last, Array.extract_size]

end Boundaries

/-! ### Tilings of an output -/

section Outputs

variable (hstacked : Stacked 0 tiles stop) (hrows : ∀ tile ∈ tiles, 0 < tile.rows)
  (hle : workers ≤ tiles.length) (hsize : (stop - 1) * stride + n ≤ size)

include hstacked hrows hle hsize

/-- The spans of workers that all have tiles are cut apart at the rows where they start. -/
theorem exists_boundaries (hpos : 0 < workers) :
    ∃ bounds, Boundaries bounds size stride workers tiles := by
  have hwithin : ∀ worker < workers, startRow workers tiles stop worker * stride ≤ size := by
    intro worker hworker
    have hlt := startRow_lt hstacked hle hrows hworker
    have hstop : startRow workers tiles stop (worker + 1) ≤ stop :=
      startRow_le hstacked hle hpos hworker
    have hrow : startRow workers tiles stop worker * stride ≤ (stop - 1) * stride :=
      Nat.mul_le_mul_right stride (by omega)
    omega
  refine ⟨fun worker ↦ if worker < workers then startRow workers tiles stop worker * stride
    else size, ?_, fun worker hworker ↦ ?_, ?_, fun worker hworker ↦ ?_, fun worker hworker ↦ ?_⟩
  · simp [hpos, startRow_zero hstacked hle hpos]
  · simp [hworker, startRow_of_lt]
  · simp
  · have hlt := startRow_lt hstacked hle hrows hworker
    have hrow := Nat.mul_le_mul_right stride (Nat.le_of_lt hlt)
    by_cases hnext : worker + 1 < workers
    · simpa [hworker, hnext] using hrow
    · simpa [hworker, hnext] using hwithin worker hworker
  · simpa [hworker] using hwithin worker hworker

/-- The rows of a tile end before the cut behind the span of its worker. -/
theorem Boundaries.tile_le {bounds : Nat → Nat} (h : Boundaries bounds size stride workers tiles)
    (hstride : n ≤ stride) (hworker : worker < workers)
    (htile : tile ∈ tilesOf workers tiles worker) :
    (tile.stop - 1) * stride + n ≤ bounds (worker + 1) := by
  have hpos := Nat.zero_lt_of_lt hworker
  have hown := ((stacked_tilesOf hstacked hle hworker).bounds.2 tile htile).2
  have hstop : 0 < tile.stop :=
    Nat.add_pos_right tile.row (hrows tile (tilesOf_subset workers worker tiles htile))
  by_cases hnext : worker + 1 < workers
  · have hrow := row_end_le (Nat.sub_lt hstop Nat.one_pos) stride
    have hcut := Nat.mul_le_mul_right stride hown
    rw [startRow_of_lt hnext, ← h.start (worker + 1) hnext] at hcut
    omega
  · have hlast : worker + 1 = workers := by omega
    have hend : startRow workers tiles stop (worker + 1) ≤ stop :=
      startRow_le hstacked hle hpos hworker
    have hrow : (tile.stop - 1) * stride ≤ (stop - 1) * stride :=
      Nat.mul_le_mul_right stride (by omega)
    rw [hlast, h.last]
    omega

/-- A band holds the rows of the tiles of its worker, counted from the row at which it starts. -/
theorem Boundaries.holds {bounds : Nat → Nat} {output : Array Single} (houtput : output.size = size)
    (h : Boundaries bounds size stride workers tiles) (hstride : n ≤ stride)
    (hworker : worker < workers) (htile : tile ∈ tilesOf workers tiles worker) :
    firstRow (tilesOf workers tiles worker) ≤ tile.row ∧ 0 < tile.rows ∧
      (tile.stop - 1 - firstRow (tilesOf workers tiles worker)) * stride + n ≤
        (bandAt output bounds worker).size := by
  have hrow := ((stacked_tilesOf hstacked hle hworker).bounds.2 tile htile).1
  rw [startRow_of_lt hworker] at hrow
  have hpos := hrows tile (tilesOf_subset workers worker tiles htile)
  have hlast : tile.row ≤ tile.stop - 1 := Nat.le_sub_one_of_lt (Nat.lt_add_of_pos_right hpos)
  have hbefore := Nat.mul_le_mul_right stride (Nat.le_trans hrow hlast)
  have hbehind := h.tile_le hstacked hrows hle hsize hstride hworker htile
  refine ⟨hrow, hpos, ?_⟩
  rw [bandAt, Array.size_extract, houtput, Nat.min_eq_left (h.le_size hworker), Nat.sub_mul,
    h.start worker hworker]
  omega

end Outputs

/-- Stacked tiles with rows, shared among several workers that all have tiles, cut their output into
consecutive slices. Each slice starts where the first row of a span does and holds the rows of all
of its tiles, so these pass their checks there and none of them is refused for its place. -/
theorem bands_hold_spans (arithmetic : Arithmetic) (output : Array Single) (tiles : List Tile)
    (stop n stride threads : Nat) (hstacked : Stacked 0 tiles stop)
    (hrows : ∀ tile ∈ tiles, 0 < tile.rows) (hstride : n ≤ stride)
    (hsize : (stop - 1) * stride + n ≤ output.size) (hlimit : output.size < Word.limit)
    (hthreads : 2 ≤ threads) (hle : threads ≤ tiles.length) :
    count threads tiles = threads ∧
    ∃ bounds, Boundaries bounds output.size stride threads tiles ∧
      bands arithmetic output stride (tileSpans threads tiles) =
        .ok ((List.range threads).map (bandAt output bounds)) ∧
      ((List.range threads).map (bandAt output bounds)).foldl (· ++ ·) #[] = output ∧
      (∀ worker < threads, ∀ tile ∈ tilesOf threads tiles worker,
        firstRow (tilesOf threads tiles worker) ≤ tile.row ∧
        (tile.stop - 1 - firstRow (tilesOf threads tiles worker)) * stride + n ≤
          (bandAt output bounds worker).size ∧
        ∀ (request : Request) (workspace : Workspace), request.n = n →
          request.outputStride = stride →
          workspace.band.size = (bandAt output bounds worker).size →
          (Engine.placeTile request (firstRow (tilesOf threads tiles worker)) tile).run workspace =
            .ok ((tile.row - firstRow (tilesOf threads tiles worker)) * stride) workspace) ∧
      ∀ (engine : Engine) (request : Request), request.n = n → request.outputStride = stride →
        ∀ outcome ∈ outcomes ((List.range threads).map (bandAt output bounds))
            (tileSpans threads tiles) (engine.runSpan request),
          ∀ row rows fault, outcome.result ≠ .error (.refused (.misplacedTile row rows fault)) := by
  have hpos : 0 < threads := by omega
  obtain ⟨bounds, hbounds⟩ := exists_boundaries hstacked hrows hle hsize hpos
  have hcount : count threads tiles = threads := by
    unfold count
    omega
  have hband : ∀ worker, (bandAt output bounds worker).size < Word.limit := by
    intro worker
    rw [bandAt, Array.size_extract]
    omega
  refine ⟨hcount, bounds, hbounds, hbounds.bands_eq hstacked hpos hle hlimit,
    hbounds.append_bands, ?_, ?_⟩
  · intro worker hworker tile htile
    obtain ⟨hrow, hrows, hholds⟩ :=
      hbounds.holds hstacked hrows hle hsize rfl hstride hworker htile
    refine ⟨hrow, hholds, ?_⟩
    rintro request workspace rfl rfl hworkspace
    rw [← Engine.needed_eq hrow, ← hworkspace] at hholds
    exact Engine.placeTile_run (hworkspace ▸ hband worker) hrow hrows hholds
  · rintro engine request rfl rfl outcome houtcome row rows fault
    rw [outcomes_bandAt] at houtcome
    obtain ⟨worker, hworker, rfl⟩ := List.mem_map.mp houtcome
    have hlt := List.mem_range.mp hworker
    refine Engine.runSpan_places (hband worker) (fun tile htile ↦ ?_) row rows fault
    obtain ⟨hrow, hrows, hholds⟩ := hbounds.holds hstacked hrows hle hsize rfl hstride hlt htile
    exact ⟨hrow, hrows, Engine.needed_eq hrow ▸ hholds⟩

/-- Four rows of two columns, three apart, and three tiles for two workers. The last band has only
the two elements of the last row. -/
theorem bands_hold_spans_short : ∃ bounds,
    Boundaries bounds 11 3 2 [⟨0, 2, 2⟩, ⟨2, 1, 1⟩, ⟨3, 1, 2⟩] ∧ bounds 1 = 9 ∧
      bands .wrapping (.replicate 11 .one) 3 (tileSpans 2 [⟨0, 2, 2⟩, ⟨2, 1, 1⟩, ⟨3, 1, 2⟩]) =
        .ok [.replicate 9 .one, .replicate 2 .one] := by
  obtain ⟨-, bounds, hbounds, hbands, -⟩ := bands_hold_spans .wrapping (.replicate 11 .one)
    [⟨0, 2, 2⟩, ⟨2, 1, 1⟩, ⟨3, 1, 2⟩] 4 2 3 2 ⟨rfl, rfl, rfl, rfl⟩ (by decide) (by decide)
    (by decide) (by decide) (by decide) (by decide)
  have hcut : bounds 1 = 9 := hbounds.start 1 (by decide)
  refine ⟨bounds, hbounds, hcut, ?_⟩
  simp [hbands, bandAt, List.range_succ, hbounds.first, hbounds.last, hcut]

end Workers

end PanelGemm
