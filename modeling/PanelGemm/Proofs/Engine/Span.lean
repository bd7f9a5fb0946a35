import PanelGemm.Proofs.Engine.Fitting

/-!
# The tiles of a span

A span has buffers for its tallest kernel and for the widest area that any of its tiles stages, so
every one of its tiles finds enough room (`span_room`). `runSpan_eq` is the result of a span: the
band with the tiles before the first one that does not fit applied one after another, and the
verdict on its tiles. In a span of sound tiles all of them fit (`runSpan_whole`).
-/

set_option autoImplicit false
set_option relaxedAutoImplicit false

namespace PanelGemm

namespace Engine

/-! ### The buffers of a span -/

section Buffers

variable {engine : Engine} {request : Request} {tile : Tile} {tiles part : List Tile}

/-- The tallest kernel is bounded by a height if every kernel is. -/
theorem tallest_le_iff {height : Nat} :
    tallest tiles ≤ height ↔ ∀ tile ∈ tiles, tile.kernelRows ≤ height := by
  have hfold : ∀ (tiles : List Tile) (start : Nat),
      tiles.foldl (fun height tile ↦ max height tile.kernelRows) start ≤ height ↔
        start ≤ height ∧ ∀ tile ∈ tiles, tile.kernelRows ≤ height := by
    intro tiles
    induction tiles with
    | nil => simp
    | cons tile tiles ih =>
      intro start
      rw [List.foldl_cons, ih, List.forall_mem_cons, Nat.max_le, and_assoc]
  unfold tallest
  rw [hfold, and_iff_right (Nat.zero_le _)]

theorem le_tallest (h : tile ∈ tiles) : tile.kernelRows ≤ tallest tiles :=
  tallest_le_iff.mp (Nat.le_refl _) tile h

theorem tallest_mono (h : part ⊆ tiles) : tallest part ≤ tallest tiles :=
  tallest_le_iff.mpr fun _ hmem ↦ le_tallest (h hmem)

theorem stagingWidth_le (request : Request) (tiles : List Tile) :
    stagingWidth request tiles ≤ request.panel.shape.columnBlocks * request.panel.width := by
  by_cases hmasked : tiles.any Tile.isMasked = true
  · rw [stagingWidth, if_pos hmasked]
  · rw [stagingWidth, if_neg hmasked]
    by_cases hragged : fullBlocks request < request.panel.shape.columnBlocks
    · rw [if_pos hragged]
      exact Nat.le_mul_of_pos_left _ (Nat.zero_lt_of_lt hragged)
    · rw [if_neg hragged]
      exact Nat.zero_le _

/-- A span stages no less than a part of it. -/
theorem stagingWidth_mono (h : part ⊆ tiles) :
    stagingWidth request part ≤ stagingWidth request tiles := by
  by_cases hmasked : tiles.any Tile.isMasked = true
  · refine Nat.le_trans (stagingWidth_le request part) ?_
    rw [stagingWidth, if_pos hmasked]
  · have hpart : ¬ part.any Tile.isMasked = true := by
      rw [List.any_eq_true] at hmasked ⊢
      rintro ⟨tile, hmem, htile⟩
      exact hmasked ⟨tile, h hmem, htile⟩
    rw [stagingWidth, stagingWidth, if_neg hmasked, if_neg hpart]

/-- A height in the table is at most its tallest. -/
theorem le_tallest_of_holds {table : KernelTable} {rows : Nat} (h : table.holds rows = true) :
    rows ≤ table.tallest := by
  obtain ⟨hlt, -⟩ := Array.getElem?_eq_some_iff.mp (beq_iff_eq.mp h)
  exact Nat.le_sub_one_of_lt hlt

/-- The sizes of the buffers of a span with a band of a given size. -/
def spanRoom (engine : Engine) (request : Request) (tiles : List Tile) (band : Nat) : Room :=
  ⟨min (tallest tiles) engine.family.table.tallest * stripDepth request,
    min (tallest tiles) engine.family.table.tallest * stagingWidth request tiles, band⟩

/-- The buffers that a span asks for can be had. -/
structure HasRoom (request : Request) (tiles : List Tile) : Prop where
  strip : tallest tiles * stripDepth request * Capacity.singleBytes < Word.signedLimit
  staging : tallest tiles * stagingWidth request tiles * Capacity.singleBytes < Word.signedLimit

theorem HasRoom.mono (h : HasRoom request tiles) (hpart : part ⊆ tiles) :
    HasRoom request part where
  strip := Nat.lt_of_le_of_lt
    (Nat.mul_le_mul_right _ (Nat.mul_le_mul_right _ (tallest_mono hpart))) h.strip
  staging := Nat.lt_of_le_of_lt
    (Nat.mul_le_mul_right _ (Nat.mul_le_mul (tallest_mono hpart) (stagingWidth_mono hpart)))
    h.staging

/-- A buffer that a signed word counts the bytes of has room for less than a word counts. -/
theorem lt_limit_of_bytes {count : Nat} (h : count * Capacity.singleBytes < Word.signedLimit) :
    count < Word.limit := by
  unfold Capacity.singleBytes Word.signedLimit at h
  unfold Word.limit
  omega

theorem HasRoom.countable_spanRoom (h : HasRoom request tiles) (engine : Engine) {band : Nat}
    (hband : band < Word.limit) : (spanRoom engine request tiles band).Countable where
  strip := Nat.lt_of_le_of_lt (Nat.mul_le_mul_right _ (Nat.min_le_left _ _))
    (lt_limit_of_bytes h.strip)
  staging := Nat.lt_of_le_of_lt (Nat.mul_le_mul_right _ (Nat.min_le_left _ _))
    (lt_limit_of_bytes h.staging)
  band := hband

/-- A buffer for a number of columns in the rows of the tallest kernel. -/
theorem rowBuffer_eq (engine : Engine) (request : Request) (tiles : List Tile) {columns : Nat}
    (h : tallest tiles * columns * Capacity.singleBytes < Word.signedLimit) :
    rowBuffer engine request tiles columns =
      .ok (Array.replicate (min (tallest tiles) engine.family.table.tallest * columns) .zero) := by
  rw [rowBuffer, Request.word, Arithmetic.word_of_lt (lt_limit_of_bytes h), ok_bind,
    Capacity.reserve_eq_ok.mpr h, ok_bind, Nat.mul_min_mul_right]
  rfl

theorem workspace_eq_ok (engine : Engine) (hwhole : request.panel.Whole) (hrows : 0 < request.k)
    (h : HasRoom request tiles) (band : Array Single) :
    ∃ buffers, workspace engine request tiles band = .ok buffers ∧ buffers.band = band ∧
      buffers.room = spanRoom engine request tiles band.size := by
  let height := min (tallest tiles) engine.family.table.tallest
  have hwidth : request.word (stagingWidth request tiles) = .ok (stagingWidth request tiles) :=
    Arithmetic.word_of_lt (Nat.lt_of_le_of_lt (stagingWidth_le request tiles)
      (hwhole.paddedColumns_lt hrows))
  refine ⟨⟨Array.replicate (height * stripDepth request) .zero,
    Array.replicate (height * stagingWidth request tiles) .zero, band⟩, ?_, rfl, ?_⟩
  · rw [workspace, rowBuffer_eq engine request tiles h.strip, ok_bind, hwidth, ok_bind,
      rowBuffer_eq engine request tiles h.staging]
    rfl
  · simp [Workspace.room, spanRoom, height]

end Buffers

/-! ### The tiles of a span one after another -/

section Tiles

variable {engine : Engine} {request : Request} {tiles : List Tile} {firstRow size : Nat}

/-- Every tile of a span finds its strip and its staging area. -/
theorem span_room (request : Request) (band : Nat) {tile : Tile} (hmem : tile ∈ tiles)
    (hholds : engine.family.table.holds tile.kernelRows = true) :
    stripDepth request * tile.kernelRows ≤ (spanRoom engine request tiles band).strip ∧
      tile.kernelRows * stagingWidth request [tile] ≤
        (spanRoom engine request tiles band).staging := by
  have hheight : tile.kernelRows ≤ min (tallest tiles) engine.family.table.tallest :=
    Nat.le_min.mpr ⟨le_tallest hmem, le_tallest_of_holds hholds⟩
  constructor
  · rw [Nat.mul_comm]
    exact Nat.mul_le_mul_right _ hheight
  · exact Nat.mul_le_mul hheight (stagingWidth_mono (by simpa using hmem))

/-- What the tiles of a list make of the output, one after another. -/
def tilesRewrite (engine : Engine) (request : Request) (tiles : List Tile) (q : Nat) (x : Single) :
    Single :=
  tiles.foldl (fun x tile ↦ tileRewrite engine request tile q x) x

/-- The tiles of a list are computed one after another up to the first one that does not fit. -/
theorem runTiles_ends (hadmits : engine.Admits request size) {room : Room}
    (hroom : room.Countable) (hwords : ∀ tile ∈ tiles, needed request 0 tile < Word.limit)
    (hsupplies : ∀ tile ∈ tiles, engine.FittingTile request firstRow room.band tile →
      request.Supplies tile)
    (hfirst : ∀ tile ∈ tiles, firstRow ≤ tile.row)
    (hbuffers : ∀ tile ∈ tiles, engine.family.table.holds tile.kernelRows = true →
      stripDepth request * tile.kernelRows ≤ room.strip ∧
        tile.kernelRows * stagingWidth request [tile] ≤ room.staging) (total : Nat) :
    (tiles.foldlM (fun calls tile ↦ do
        return calls + (← runTile engine request firstRow tile)) total : Stage Nat).Ends room
      ((total + ·) <$> engine.verdict request firstRow room.band tiles)
      fun q ↦ tilesRewrite engine request (engine.computed request firstRow room.band tiles)
        (firstRow * request.outputStride + q) := by
  induction tiles generalizing total with
  | nil =>
    have hdone : (Pure.pure total : Stage Nat).Rewrites room (· = total) fun _ x ↦ x := .pure rfl
    exact hdone.ends
  | cons tile tiles ih =>
    obtain ⟨hword, hwords⟩ := List.forall_mem_cons.mp hwords
    obtain ⟨hsupplied, hsupplies⟩ := List.forall_mem_cons.mp hsupplies
    obtain ⟨hrow, hfirst⟩ := List.forall_mem_cons.mp hfirst
    obtain ⟨hbuffer, hbuffers⟩ := List.forall_mem_cons.mp hbuffers
    rw [List.foldlM_cons]
    by_cases hfits : engine.FittingTile request firstRow room.band tile
    · obtain ⟨hstrip, hstaging⟩ := hbuffer hfits.holds
      have htile : (do return total + (← runTile engine request firstRow tile) :
          Stage Nat).Rewrites room (· = total + tileCalls request tile) _ :=
        (runTile_rewrites hadmits hroom hfits (hsupplied hfits) hrow hstrip hstaging).bind
          fun calls hcalls ↦ .pure (hcalls ▸ rfl)
      have hrest := ih hwords hsupplies hfirst hbuffers (total + tileCalls request tile)
      have hverdict : (total + ·) <$> engine.verdict request firstRow room.band (tile :: tiles) =
          (total + tileCalls request tile + ·) <$>
            engine.verdict request firstRow room.band tiles := by
        rw [verdict, if_pos hfits]
        simp [Nat.add_assoc]
      rw [hverdict, computed_cons_of_fitting hfits]
      refine htile.bind_ends (g := fun q ↦ tilesRewrite engine request
        (engine.computed request firstRow room.band tiles) (firstRow * request.outputStride + q)) ?_
      exact hrest
    · have hrefused : (do return total + (← runTile engine request firstRow tile) :
          Stage Nat).Ends room
            (.error (.refused (engine.tileRefusal request firstRow room.band tile))) _ :=
        (runTile_ends hword hrow hfits).bind_of_error
      rw [verdict, if_neg hfits, computed_cons_of_not_fitting hfits]
      exact hrefused.bind_of_error

/-- What a span does: it applies its tiles to the band one after another, up to the first one that
does not fit. -/
theorem runSpan_eq (hadmits : engine.Admits request size) {band : Array Single}
    (hband : band.size < Word.limit) (hwords : ∀ tile ∈ tiles, needed request 0 tile < Word.limit)
    (hsupplies : ∀ tile ∈ tiles, engine.FittingTile request firstRow band.size tile →
      request.Supplies tile)
    (hroom : HasRoom request tiles) (hfirst : ∀ tile ∈ tiles, firstRow ≤ tile.row) :
    runSpan engine request band tiles firstRow =
      ⟨engine.verdict request firstRow band.size tiles, band.mapIdx fun q ↦
        tilesRewrite engine request (engine.computed request firstRow band.size tiles)
          (firstRow * request.outputStride + q)⟩ := by
  obtain ⟨buffers, hbuffers, hstart, hsizes⟩ :=
    workspace_eq_ok engine hadmits.resident.whole hadmits.depth_pos hroom band
  have hsize : (spanRoom engine request tiles band.size).band = band.size := rfl
  obtain ⟨last, hrun, -, hlast⟩ := runTiles_ends hadmits
    (hroom.countable_spanRoom engine hband) hwords (hsize ▸ hsupplies) hfirst
    (fun tile hmem hholds ↦ span_room request band.size hmem hholds) 0 buffers hsizes
  rw [runSpan, hbuffers, runTiles]
  dsimp only
  rw [hrun, hsize]
  cases engine.verdict request firstRow band.size tiles with
  | ok calls =>
    change Outcome.mk (.ok (0 + calls)) last.band = _
    rw [Nat.zero_add, hlast, hstart, hsize]
  | error failure =>
    change Outcome.mk (.error failure) last.band = _
    rw [hlast, hstart, hsize]

/-- A span of tiles that fit the whole output succeeds, and it applies its tiles one after
another. -/
theorem runSpan_fitting {output : Array Single} (hadmits : engine.Admits request output.size)
    (hfits : ∀ tile ∈ tiles, engine.FittingTile request 0 output.size tile)
    (hsupplies : ∀ tile ∈ tiles, request.Supplies tile) (hroom : HasRoom request tiles) :
    runSpan engine request output tiles 0 =
      ⟨.ok (tiles.map (tileCalls request)).sum,
        output.mapIdx (tilesRewrite engine request tiles)⟩ := by
  have hsupplied : ∀ tile ∈ tiles, engine.FittingTile request 0 output.size tile →
      request.Supplies tile := fun tile htile _ ↦ hsupplies tile htile
  have hsize := hadmits.resident.size_lt
  have hwords : ∀ tile ∈ tiles, needed request 0 tile < Word.limit :=
    fun tile htile ↦ Nat.lt_of_le_of_lt (hfits tile htile).needed_le hsize
  have hrun := runSpan_eq hadmits hsize hwords hsupplied hroom fun _ _ ↦ Nat.zero_le _
  rw [verdict_of_fitting hfits, computed_of_fitting hfits] at hrun
  simp only [Nat.zero_mul, Nat.zero_add] at hrun
  exact hrun

/-- Sound tiles fit the whole output. -/
theorem runSpan_whole {output : Array Single} (hadmits : engine.Admits request output.size)
    (hsound : ∀ tile ∈ tiles, engine.SoundTile request tile) (hroom : HasRoom request tiles) :
    runSpan engine request output tiles 0 =
      ⟨.ok (tiles.map (tileCalls request)).sum,
        output.mapIdx (tilesRewrite engine request tiles)⟩ :=
  runSpan_fitting hadmits (fun tile htile ↦ (hsound tile htile).fitting_whole hadmits)
    (fun tile htile ↦ (hsound tile htile).supplies hadmits) hroom

end Tiles

end Engine

end PanelGemm
