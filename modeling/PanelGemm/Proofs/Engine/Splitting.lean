import PanelGemm.Proofs.Engine.BuiltIn
import PanelGemm.Proofs.Panel.Rows

/-!
# Splitting the sum of a product

A product can be computed in two runs, one on the first products of every sum and one on the rest,
which is added to the output of the first (`Request.part`). If the sums are cut where a K-block
ends, the two runs leave what one run leaves, bit by bit (`Engine.run_split`): a K-block hands on
nothing but the elements of the output, and from the second one on it adds to them as a run does
that is given one for the factor of the old output.
-/

set_option autoImplicit false
set_option relaxedAutoImplicit false

namespace PanelGemm

/-! ### A part of the sums -/

namespace Request

/-- The request for the products from a given one on, as many as its panel has rows. -/
def part (request : Request) (panel : Panel) (first : Nat) (beta : Single) : Request :=
  { request with
    left := request.left.extract (request.orientation.offset request.leftStride 0 first)
    panel := panel
    beta := beta }

variable (request : Request) (panel : Panel) (first : Nat) (beta : Single)

theorem left?_part (row depth : Nat) :
    (request.part panel first beta).left? row depth = request.left? row (first + depth) := by
  unfold left? part
  rw [getElem?_extract_from, Orientation.offset_column_add]

theorem factor_part (row depth : Nat) :
    (request.part panel first beta).factor row depth = request.factor row (first + depth) := by
  rw [factor, factor, left?_part]
  rfl

end Request

namespace Engine

variable {engine : Engine} {request : Request} {panel upper lower : Panel} {first size : Nat}
  {tiles : List Tile} {tile : Tile}

section Part

variable (hpart : panel.IsPart request.panel first) (beta : Single)
include hpart

theorem n_part : (request.part panel first beta).n = request.n := hpart.shape.columns

theorem width_part : (request.part panel first beta).panel.width = request.panel.width :=
  hpart.shape.width_eq

/-- A part of a request that is well shaped is well shaped. -/
theorem WellShaped.part (h : engine.WellShaped request size) :
    engine.WellShaped (request.part panel first beta) size := by
  have hn := n_part hpart beta
  constructor
  · rw [width_part hpart]
    exact h.width
  · have hleft := Orientation.holds_columns_from h.left hpart.shape.rows_le
    unfold Request.part
    rw [Array.size_extract, Nat.min_self]
    exact hleft
  · rw [hn]
    exact h.stride
  · rw [hn]
    exact h.output

/-- A part of a request is in memory if the whole is. -/
theorem resident_part (hwhole : panel.Whole) (h : request.Resident size) :
    (request.part panel first beta).Resident size := by
  have hleft : (request.part panel first beta).left.size ≤ request.left.size := by
    unfold Request.part
    rw [Array.size_extract]
    omega
  have hdata : panel.data.size ≤ request.panel.data.size := by
    rw [hwhole.size_data, h.whole.size_data, PanelShape.size, PanelShape.size,
      PanelShape.paddedColumns, PanelShape.paddedColumns, hpart.shape.columnBlocks_eq,
      hpart.shape.width_eq]
    exact Nat.mul_le_mul_right _ (Nat.le_trans (Nat.le_add_left _ first) hpart.shape.rows_le)
  refine ⟨hwhole, Nat.lt_of_le_of_lt (Nat.mul_le_mul_right _ hleft) h.left, h.output, ?_⟩
  refine Nat.lt_of_le_of_lt (Nat.mul_le_mul_right _ ?_) h.together
  exact Nat.add_le_add_right (Nat.add_le_add hleft hdata) size

theorem fullBlocks_part : fullBlocks (request.part panel first beta) = fullBlocks request := by
  rw [fullBlocks, fullBlocks, n_part hpart, width_part hpart]

/-- A part of a request needs no more room than the whole. -/
theorem HasRoom.part (h : HasRoom request tiles) :
    HasRoom (request.part panel first beta) tiles := by
  have hstrip : stripDepth (request.part panel first beta) ≤ stripDepth request := by
    have hrows := hpart.shape.rows_le
    have hblockRows := hpart.shape.blockRows
    change min panel.shape.blockRows panel.shape.rows ≤
      min request.panel.shape.blockRows request.panel.shape.rows
    omega
  have hstaging : stagingWidth (request.part panel first beta) tiles =
      stagingWidth request tiles := by
    have hcolumns : (request.part panel first beta).panel.shape.columnBlocks =
        request.panel.shape.columnBlocks := hpart.shape.columnBlocks_eq
    simp only [stagingWidth, fullBlocks_part hpart, hcolumns, width_part hpart]
  constructor
  · exact Nat.lt_of_le_of_lt (Nat.mul_le_mul_right _ (Nat.mul_le_mul_left _ hstrip)) h.strip
  · rw [hstaging]
    exact h.staging

/-- A K-block of a part does to an element what it does in the whole. -/
theorem blockElement_part {start : Nat} (hstart : start ∈ panel.shape.blockStarts)
    (hbeta : blockBeta (request.part panel first beta) start = blockBeta request (first + start))
    (kernel : Kernel) (masked : Bool) (row : Nat) {column : Nat} (hcolumn : column < request.n)
    (old : Single) :
    blockElement kernel (request.part panel first beta) masked start row column old =
      blockElement kernel request masked (first + start) row column old := by
  have hdepth : (request.part panel first beta).panel.shape.blockDepth start =
      request.panel.shape.blockDepth (first + start) := (hpart.shape.blockDepth_add hstart).symm
  have hfactor : ∀ p < request.panel.shape.blockDepth (first + start),
      (request.part panel first beta).factor row (start + p) =
        request.factor row (first + start + p) := by
    intro p _
    rw [Request.factor_part, Nat.add_assoc]
  have hentry : ∀ p < request.panel.shape.blockDepth (first + start),
      (request.part panel first beta).panel.entry (start + p) column =
        request.panel.entry (first + start + p) column := by
    intro p hp
    rw [hpart.shape.blockDepth_add hstart] at hp
    have hrow : start + p < panel.rows :=
      Nat.lt_of_lt_of_le (Nat.add_lt_add_left hp start) (PanelShape.blockDepth_le_rows hstart)
    rw [Nat.add_assoc]
    exact hpart.entry _ hrow column (Nat.lt_of_lt_of_eq hcolumn hpart.shape.columns.symm)
  unfold blockElement blockProduct
  rw [fullBlocks_part hpart, width_part hpart, hbeta, hdepth, kernel.product_congr hfactor hentry,
    kernel.element_congr _ hfactor hentry]

/-- A tile does to an element of a part what the K-blocks of the part do in the whole. -/
theorem tileElement_part
    (hbeta : ∀ start ∈ panel.shape.blockStarts,
      blockBeta (request.part panel first beta) start = blockBeta request (first + start))
    (tile : Tile) (row : Nat) {column : Nat} (hcolumn : column < request.n) (old : Single) :
    tileElement engine (request.part panel first beta) tile row column old =
      (panel.shape.blockStarts.map (first + ·)).foldl (fun old start ↦
        blockElement (Kernel.ofLevel engine.level tile.kernelRows) request tile.isMasked start row
          column old) old := by
  rw [tileElement, List.foldl_map]
  refine List.foldl_ext _ _ old fun old start hstart ↦ ?_
  exact blockElement_part hpart beta hstart (hbeta start hstart) _ _ _ hcolumn old

end Part

/-! ### Two parts -/

/-- Two panels that have the rows of the panel of a request between them, cut where a K-block
ends. -/
structure Cuts (request : Request) (upper lower : Panel) : Prop where
  upper_isPart : upper.IsPart request.panel 0
  lower_isPart : lower.IsPart request.panel upper.rows
  rows : upper.rows + lower.rows = request.k
  aligned : request.panel.shape.blockRows ∣ upper.rows
  upper_pos : 0 < upper.rows
  lower_pos : 0 < lower.rows

open Packing in
/-- The panels of two sources that have the rows of another one between them cut its panel. -/
theorem cuts_of_packed {level : Level} {blockRows : Nat} {whole upperSource lowerSource : Source}
    (hwhole : request.panel.IsPacked level whole blockRows)
    (hupper : upper.IsPacked level upperSource blockRows)
    (hlower : lower.IsPacked level lowerSource blockRows)
    (hcut : whole.IsCut upperSource lowerSource blockRows) : Cuts request upper lower := by
  have hupperRows : upper.rows = upperSource.rows := hupper.rows
  have hlowerRows : lower.rows = lowerSource.rows := hlower.rows
  refine ⟨?_, ?_, ?_, ?_, ?_, ?_⟩
  · exact hupper.isPart hwhole hcut.upper_holds (.inl hcut.aligned)
  · rw [hupperRows]
    exact hlower.isPart hwhole hcut.lower_holds (.inr hcut.rows)
  · rw [hupperRows, hlowerRows, hcut.rows]
    exact hwhole.rows.symm
  · rw [hupperRows, hwhole.blockRows]
    exact hcut.aligned
  · rw [hupperRows]
    exact hcut.upper_pos
  · rw [hlowerRows]
    exact hcut.lower_pos

section Split

variable (h : Cuts request upper lower)
include h

/-- An element goes through the K-blocks of the upper part and then through those of the lower
one. -/
theorem tileElement_split (tile : Tile) (row : Nat) {column : Nat} (hcolumn : column < request.n)
    (old : Single) :
    tileElement engine request tile row column old =
      tileElement engine (request.part lower upper.rows .one) tile row column
        (tileElement engine (request.part upper 0 request.beta) tile row column old) := by
  have hstarts := PanelShape.blockStarts_append h.upper_isPart.shape h.lower_isPart.shape
    h.aligned h.rows
  have hupper : ∀ start ∈ upper.shape.blockStarts,
      blockBeta (request.part upper 0 request.beta) start = blockBeta request (0 + start) := by
    intro start _
    rw [Nat.zero_add]
    rfl
  have hlower : ∀ start ∈ lower.shape.blockStarts,
      blockBeta (request.part lower upper.rows .one) start =
        blockBeta request (upper.rows + start) := by
    intro start _
    -- in the whole this block is not the first one, so there the factor is one as well
    have hlater : upper.rows + start ≠ 0 := Nat.ne_of_gt (Nat.add_pos_left h.upper_pos start)
    rw [blockBeta, blockBeta, if_neg hlater]
    exact ite_self _
  rw [tileElement_part h.lower_isPart _ hlower tile row hcolumn,
    tileElement_part h.upper_isPart _ hupper tile row hcolumn, ← List.foldl_append, tileElement,
    hstarts]
  simp only [Nat.zero_add, List.map_id']
  rfl

/-- A stack of tiles makes the same of the output in one run as in two. -/
theorem tilesRewrite_split (hstride : request.n ≤ request.outputStride)
    (hstacked : Stacked 0 tiles request.m) (q : Nat) (x : Single) :
    tilesRewrite engine (request.part lower upper.rows .one) tiles q
        (tilesRewrite engine (request.part upper 0 request.beta) tiles q x) =
      tilesRewrite engine request tiles q x := by
  have hupper := n_part h.upper_isPart request.beta
  have hlower := n_part h.lower_isPart Binary.one
  by_cases helement : ∃ i < request.m, ∃ j < request.n, q = i * request.outputStride + j
  · obtain ⟨i, hi, j, hj, rfl⟩ := helement
    obtain ⟨tile, htile, hrow, hstop⟩ := hstacked.exists_tile (Nat.zero_le i) hi
    -- the rows are tiled alike in the three runs, so it is this tile that computes the row in each
    have hfirst : tilesRewrite engine (request.part upper 0 request.beta) tiles
        (i * request.outputStride + j) x =
          tileElement engine (request.part upper 0 request.beta) tile i j x :=
      tilesRewrite_at (hupper ▸ hstride) hstacked htile hrow hstop (hupper ▸ hj) x
    have hsecond : ∀ y, tilesRewrite engine (request.part lower upper.rows .one) tiles
        (i * request.outputStride + j) y =
          tileElement engine (request.part lower upper.rows .one) tile i j y :=
      tilesRewrite_at (hlower ▸ hstride) hstacked htile hrow hstop (hlower ▸ hj)
    rw [hfirst, hsecond, ← tileElement_split h tile i hj,
      tilesRewrite_at hstride hstacked htile hrow hstop hj]
  · have hnone : ∀ i < request.m, ∀ j < request.n, q ≠ i * request.outputStride + j :=
      fun i hi j hj hq ↦ helement ⟨i, hi, j, hj, hq⟩
    have hfirst : tilesRewrite engine (request.part upper 0 request.beta) tiles q x = x :=
      tilesRewrite_of_forall_ne hstacked (hupper ▸ hnone) x
    have hsecond : tilesRewrite engine (request.part lower upper.rows .one) tiles q x = x :=
      tilesRewrite_of_forall_ne hstacked (hlower ▸ hnone) x
    rw [hfirst, hsecond, tilesRewrite_of_forall_ne hstacked hnone]

end Split

/-- A run on a part of a request applies the tiles of the request. -/
theorem run_part (hpart : panel.IsPart request.panel first) (beta : Single) (hwhole : panel.Whole)
    {output : Array Single} {steps : List Step} {threads : Nat} (hthreads : 0 < threads)
    (hshaped : engine.WellShaped request output.size) (hresident : request.Resident output.size)
    (hm : 0 < request.m) (hn : 0 < request.n) (hrows : 0 < panel.rows)
    (hcovers : engine.Covers request steps) :
    engine.run (request.part panel first beta) output threads =
      ⟨.ok (stats (request.part panel first beta) (Tile.place steps)),
        output.mapIdx
          (tilesRewrite engine (request.part panel first beta) (Tile.place steps))⟩ := by
  have hcolumns : 0 < (request.part panel first beta).n := (n_part hpart beta).symm ▸ hn
  have hresident' := resident_part hpart beta hwhole hresident
  have hshaped' := hshaped.part hpart beta
  have hcount := hshaped'.countable hresident'.left.size_lt hresident'.size_lt
  have hcheck := (check_eq_ok hcount).mpr hshaped'
  have hadmits := admits_of_check hcheck (.inr (.inr hcount)) hresident' hm hrows hcolumns
  exact run_eq hthreads hcheck hadmits
    ⟨hcovers.chosen, hcovers.tiling, hcovers.tiles, hcovers.room.part hpart beta⟩

/-- The tiles of the request are applied in all of the runs. -/
theorem run_cut {output : Array Single} {threads upperThreads lowerThreads : Nat}
    (h : Cuts request upper lower) (hupper : upper.Whole) (hlower : lower.Whole)
    (hcheck : engine.check request output.size = .ok ()) (hexact : request.CountsExactly)
    (hresident : request.Resident output.size) (hthreads : 0 < threads)
    (hupperThreads : 0 < upperThreads) (hlowerThreads : 0 < lowerThreads) (hm : 0 < request.m)
    (hn : 0 < request.n) (hfamily : engine.family.BuiltIn ∨ engine.Prepared request) :
    ∃ between after stats upperStats lowerStats,
      engine.run request output threads = ⟨.ok stats, after⟩ ∧
      engine.run (request.part upper 0 request.beta) output upperThreads =
        ⟨.ok upperStats, between⟩ ∧
      engine.run (request.part lower upper.rows .one) between lowerThreads =
        ⟨.ok lowerStats, after⟩ := by
  have hk : 0 < request.k := h.rows ▸ Nat.add_pos_left h.upper_pos _
  have hshaped := (wellShaped_of_check hexact (isEmpty_eq_false hm hk hn) hcheck).2
  have hadmits := admits_of_check hcheck hexact hresident hm hk hn
  obtain ⟨steps, hcovers⟩ := hadmits.prepared hfamily
  have hwhole := run_eq hthreads hcheck hadmits hcovers
  have hfirst := run_part h.upper_isPart request.beta hupper hupperThreads hshaped hresident hm hn
    h.upper_pos hcovers
  have hsize : (output.mapIdx (tilesRewrite engine (request.part upper 0 request.beta)
      (Tile.place steps))).size = output.size := Array.size_mapIdx
  have hsecond := run_part h.lower_isPart .one hlower hlowerThreads (hsize.symm ▸ hshaped)
    (hsize.symm ▸ hresident) hm hn h.lower_pos hcovers
  have hsame : (output.mapIdx (tilesRewrite engine (request.part upper 0 request.beta)
      (Tile.place steps))).mapIdx (tilesRewrite engine (request.part lower upper.rows .one)
        (Tile.place steps)) = output.mapIdx (tilesRewrite engine request (Tile.place steps)) := by
    rw [Array.mapIdx_mapIdx]
    congr 1
    funext q x
    exact tilesRewrite_split h hadmits.stride hcovers.tiling.stacked q x
  rw [hsame] at hsecond
  exact ⟨_, _, _, _, _, hwhole, hfirst, hsecond⟩

open Packing in
/-- A run leaves the output that two runs leave, bit by bit: one on the upper rows of the right
operand with the same factor of the old output, and one on the lower rows with the factor one. The
rows are cut where a K-block ends, and the three panels are packed from sources of these rows with
the same factor, for the same level and with K-blocks of the same height. All of the runs succeed if
the whole request passes the check, on any numbers of threads. The check and the packings count
exactly. -/
theorem run_split (engine : Engine) (request : Request) (output : Array Single)
    (threads upperThreads lowerThreads : Nat) (level : Level) (blockRows : Nat)
    (whole upperSource lowerSource : Source) (upper lower : Panel)
    (hfamily : engine.family.BuiltIn ∨ engine.PreparedGreedily request)
    (hexact : request.CountsExactly) (hresident : request.Resident output.size)
    (hm : 0 < request.m) (hn : 0 < request.n)
    (hthreads : 0 < threads) (hupperThreads : 0 < upperThreads) (hlowerThreads : 0 < lowerThreads)
    (hcheck : engine.check request output.size = .ok ())
    (hsources : ∀ source ∈ [whole, upperSource, lowerSource],
      source.CountsExactly request.arithmetic level blockRows)
    (hwhole : Panel.pack request.arithmetic level whole blockRows = .ok request.panel)
    (hupper : Panel.pack request.arithmetic level upperSource blockRows = .ok upper)
    (hlower : Panel.pack request.arithmetic level lowerSource blockRows = .ok lower)
    (hcut : whole.IsCut upperSource lowerSource blockRows) :
    ∃ between after stats upperStats lowerStats,
      engine.run request output threads = ⟨.ok stats, after⟩ ∧
      engine.run (request.part upper 0 request.beta) output upperThreads =
        ⟨.ok upperStats, between⟩ ∧
      engine.run (request.part lower upperSource.rows .one) between lowerThreads =
        ⟨.ok lowerStats, after⟩ := by
  obtain ⟨hwholeCounts, hupperCounts, hlowerCounts⟩ :
      whole.CountsExactly request.arithmetic level blockRows ∧
        upperSource.CountsExactly request.arithmetic level blockRows ∧
        lowerSource.CountsExactly request.arithmetic level blockRows := by
    simpa using hsources
  obtain ⟨-, -, -, hwholePacked⟩ := (Panel.pack_eq_ok hwholeCounts).mp hwhole
  obtain ⟨-, -, hupperRoom, hupperPacked⟩ := (Panel.pack_eq_ok hupperCounts).mp hupper
  obtain ⟨-, -, hlowerRoom, hlowerPacked⟩ := (Panel.pack_eq_ok hlowerCounts).mp hlower
  have hcuts := cuts_of_packed hwholePacked hupperPacked hlowerPacked hcut
  have hrows : upperSource.rows = upper.rows := hupperPacked.rows.symm
  rw [hrows]
  exact run_cut hcuts (hupperPacked.whole hupperRoom) (hlowerPacked.whole hlowerRoom) hcheck hexact
    hresident hthreads hupperThreads hlowerThreads hm hn
    (hfamily.imp_right PreparedGreedily.prepared)

/-- A row of three elements times a column, added to the output. -/
def columnRequest (panel : Panel) : Request where
  arithmetic := .wrapping
  m := 1
  left := #[.ofNat 1, .ofNat 2, .ofNat 3]
  orientation := .transposed
  leftStride := 1
  panel := panel
  outputStride := 1
  alpha := .one
  beta := .one

open Packing Panel in
/-- A column of three elements in K-blocks of two of them, cut after the first K-block. -/
theorem run_split_column : ∃ panel upper lower : Panel,
    pack .wrapping .avx2 columnSource 2 = .ok panel ∧
      pack .wrapping .avx2 (columnSource.rowsFrom 0 2) 2 = .ok upper ∧
      pack .wrapping .avx2 (columnSource.rowsFrom 2 1) 2 = .ok lower ∧
      ∃ between after stats upperStats lowerStats,
        scalar.run (columnRequest panel) #[.one] 1 = ⟨.ok stats, after⟩ ∧
        scalar.run ((columnRequest panel).part upper 0 .one) #[.one] 2 =
          ⟨.ok upperStats, between⟩ ∧
        scalar.run ((columnRequest panel).part lower 2 .one) between 3 =
          ⟨.ok lowerStats, after⟩ := by
  have hfits : columnSource.Fits 2 := ⟨by decide, .inr (.inr (by decide))⟩
  have hcount := columnSource_countable
  have hroom : columnSource.HasRoom .avx2 := by
    unfold Source.HasRoom
    decide
  obtain ⟨panel, hpanel, hpacked⟩ := pack_of_fits hfits .wrapping hcount hroom
  obtain ⟨upper, hupper⟩ :=
    pack_rowsFrom (.inr hcount) hpanel (by decide : 0 + 2 ≤ columnSource.rows)
  obtain ⟨lower, hlower⟩ :=
    pack_rowsFrom (.inr hcount) hpanel (by decide : 2 + 1 ≤ columnSource.rows)
  have hsources : ∀ source ∈ [columnSource, columnSource.rowsFrom 0 2, columnSource.rowsFrom 2 1],
      source.CountsExactly .wrapping .avx2 2 := by
    have hupper : (columnSource.rowsFrom 0 2).Countable .avx2 2 :=
      hcount.rowsFrom hfits (by decide)
    have hlower : (columnSource.rowsFrom 2 1).Countable .avx2 2 :=
      hcount.rowsFrom hfits (by decide)
    simpa using ⟨Or.inr hcount, Or.inr hupper, Or.inr hlower⟩
  have hcut : columnSource.IsCut (columnSource.rowsFrom 0 2) (columnSource.rowsFrom 2 1) 2 :=
    Source.isCut_rowsFrom (by decide) (by decide) (by decide)
  have hk : (columnRequest panel).k = 3 := hpacked.rows
  have hn : (columnRequest panel).n = 1 := hpacked.columns
  have hwhole := hpacked.whole hroom
  have hsize : panel.data.size = 48 := by
    rw [hwhole.size_data, hpacked.size_shape]
    decide
  have hresident : (columnRequest panel).Resident 1 := by
    refine ⟨hwhole, (by decide : Addressable #[.ofNat 1, .ofNat 2, .ofNat 3]), by decide, ?_⟩
    change (3 + panel.data.size + 1) * Capacity.singleBytes < Word.limit
    rw [hsize]
    decide
  have hleft : Storage.Holds 3 3 1 1 := .inr (.inr (by decide))
  have houtput : (1 - 1) * 1 + (columnRequest panel).n ≤ 1 := by rw [hn]
  have hshaped : scalar.WellShaped (columnRequest panel) 1 := by
    refine ⟨decide_eq_true panel.shape.width_pos, ?_, .inr (Nat.le_of_eq hn), .inr (.inr houtput)⟩
    rw [hk]
    exact hleft
  have hcountable := hshaped.countable hresident.left.size_lt hresident.size_lt
  have hruns := run_split scalar (columnRequest panel) #[.one] 1 2 3 .avx2 2 columnSource
    (columnSource.rowsFrom 0 2) (columnSource.rowsFrom 2 1) upper lower (.inl (.inl rfl))
    (.inr (.inr hcountable)) hresident Nat.one_pos (hn ▸ Nat.one_pos) (by decide) (by decide)
    (by decide) ((check_eq_ok hcountable).mpr hshaped) hsources hpanel hupper hlower hcut
  exact ⟨panel, upper, lower, hpanel, hupper, hlower, hruns⟩

/-- Where counts wrap around, a run may refuse its first tile and two runs on more threads compute
the last one. -/
theorem run_split_past_words :
    let request := Request.distantRows .wrapping 13
    let part : Panel := ⟨⟨.avx2, 1, 17, 1, Nat.one_pos⟩, .one, Array.replicate 32 .one⟩
    let output := Array.replicate 17 Binary.zero
    let between := (scalar.run (request.part part 0 .one) output 3).output
    scalar.check request 17 = .ok () ∧
      (scalar.run request output 1).output = output ∧
      (scalar.run (request.part part 1 .one) between 3).output =
        Array.replicate 17 (.ofNat 2) :=
  ⟨by decide +kernel, by decide +kernel, by decide +kernel⟩

end Engine

end PanelGemm
