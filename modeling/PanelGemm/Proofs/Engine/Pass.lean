import PanelGemm.Proofs.Engine.Staging
import PanelGemm.Proofs.Panel.Blocks

/-!
# One tile in one K-block

A tile is computed in one K-block in place, by way of the staging area, or partly so and partly
so. `Engine.blockElement` is the value that an element gets, and `runBlock_rewrites` says that the
rows of the tile, from the first to the last column of the output, get their values whichever way
they go, and that nothing else changes.

`TileReady` collects what a tile needs: a kernel of its height that takes the panel, rows of the
left operand and of the band, and room for a strip and for what is staged, all of them in buffers
that words count.
-/

set_option autoImplicit false
set_option relaxedAutoImplicit false

namespace PanelGemm

namespace Engine

/-- The product of a row of the left operand and a column of the panel over a K-block. -/
def blockProduct (kernel : Kernel) (request : Request) (start row column : Nat) : Single :=
  kernel.product (request.panel.shape.blockDepth start)
    (fun p ↦ request.factor row (start + p)) fun p ↦ request.panel.entry (start + p) column

/-- The value that an element of the output gets in a K-block. The elements of a masked tile and
those of a ragged last column block are staged and merged, all others are computed in place. -/
def blockElement (kernel : Kernel) (request : Request) (masked : Bool) (start row column : Nat)
    (old : Single) : Single :=
  if masked = true ∨ fullBlocks request * request.panel.width ≤ column then
    mergeElement (blockBeta request start) old (blockProduct kernel request start row column)
  else
    kernel.element (blockBeta request start) (request.panel.shape.blockDepth start)
      (fun p ↦ request.factor row (start + p)) (fun p ↦ request.panel.entry (start + p) column) old

/-- Without a factor of the old output an element gets the product, whichever way it goes. -/
theorem blockElement_of_isZero (kernel : Kernel) {request : Request} {start : Nat}
    (hstart : start ∈ request.panel.shape.blockStarts)
    (hbeta : (blockBeta request start).isZero = true) (masked : Bool) (row column : Nat)
    (old : Single) :
    blockElement kernel request masked start row column old =
      blockProduct kernel request start row column := by
  unfold blockElement
  split_ifs
  · exact mergeElement_of_isZero hbeta old _
  · exact kernel.element_of_isZero hbeta (PanelShape.blockDepth_pos hstart) _ _ old

/-- The number of kernel calls of a tile in one K-block. -/
def passCalls (request : Request) (masked : Bool) : Nat :=
  if masked = true then 1
  else (if 0 < fullBlocks request then 1 else 0) +
    if fullBlocks request < request.panel.shape.columnBlocks then 1 else 0

/-- What a tile needs to be computed at a position of a band with buffers of given sizes. -/
structure TileReady (request : Request) (tile : Tile) (kernel : Kernel) (origin : Nat)
    (room : Room) : Prop where
  columns_pos : 0 < request.n
  stride : request.n ≤ request.outputStride
  whole : request.panel.Whole
  left_lt : request.left.size < Word.limit
  countable : room.Countable
  takes : kernel.Takes request.panel.width
  height : kernel.rows = tile.kernelRows
  rows : tile.rows ≤ tile.kernelRows
  left : ∀ i < tile.rows, ∀ p < request.k, (request.left? (tile.row + i) p).isSome = true
  strip : stripDepth request * tile.kernelRows ≤ room.strip
  staging : tile.kernelRows * stagingWidth request [tile] ≤ room.staging
  band : ∀ i < tile.rows, origin + i * request.outputStride + request.n ≤ room.band

/-! ### Column blocks -/

section ColumnBlocks

variable (request : Request)

theorem fullBlocks_mul_le : fullBlocks request * request.panel.width ≤ request.n :=
  Nat.div_mul_le_self _ _

theorem fullBlocks_le : fullBlocks request ≤ request.panel.shape.columnBlocks :=
  Nat.div_le_div_right (Nat.le_sub_of_add_le (Nat.add_le_add_left request.panel.shape.width_pos _))

theorem ragged_lt : request.n - fullBlocks request * request.panel.width < request.panel.width := by
  have hdiv := Nat.div_add_mod request.n request.panel.width
  have hmod := Nat.mod_lt request.n request.panel.shape.width_pos
  rw [Nat.mul_comm] at hdiv
  unfold fullBlocks
  change request.n % request.panel.width < request.panel.width at hmod
  omega

/-- Without a ragged column block the full ones hold every column. -/
theorem ragged_eq_zero (h : ¬ fullBlocks request < request.panel.shape.columnBlocks) :
    request.n - fullBlocks request * request.panel.width = 0 := by
  have hle : request.n ≤ request.panel.shape.columnBlocks * request.panel.width :=
    request.panel.shape.columns_le_paddedColumns
  have hblocks := Nat.mul_le_mul_right request.panel.width (Nat.le_of_not_lt h)
  omega

end ColumnBlocks

/-! ### The operands of a pass -/

/-- A K-block of a whole panel is computed in as many depths as it has rows. -/
theorem runBlock_eq {request : Request} {start : Nat} (hwhole : request.panel.Whole)
    (hcolumns : 0 < request.panel.shape.paddedColumns)
    (hstart : start ∈ request.panel.shape.blockStarts) (kernel : Kernel) (tile : Tile)
    (origin : Nat) :
    runBlock request kernel tile origin start =
      packStrip request tile start (request.panel.shape.blockDepth start) >>= fun left ↦
        runPass request ⟨kernel, tile, origin, blockBeta request start,
          request.panel.shape.blockDepth start, left, request.panel.block start⟩ := by
  have hrows := Nat.zero_lt_of_lt (PanelShape.start_lt_rows hstart)
  rw [runBlock, hwhole.readBlock_eq _ hstart, Stage.word_eq (hwhole.paddedColumns_lt hrows)]
  change (if request.panel.shape.paddedColumns = 0 then _ else _) = _
  rw [if_neg (Nat.pos_iff_ne_zero.mp hcolumns), Panel.size_block_div hwhole hstart hcolumns]

section Operands

variable {kernel : Kernel} {request : Request} {tile : Tile} {origin start : Nat} {room : Room}

/-- The pass of a tile in the K-block that starts at a given row. -/
def blockPass (kernel : Kernel) (request : Request) (tile : Tile) (origin start : Nat) : Pass :=
  ⟨kernel, tile, origin, blockBeta request start, request.panel.shape.blockDepth start,
    stripValues request tile start (request.panel.shape.blockDepth start),
    request.panel.block start⟩

/-- A row of the strip holds the factors of the row of the tile. -/
theorem getD_strip (h : TileReady request tile kernel origin room) {i p : Nat}
    (hi : i < tile.rows) (hp : p < request.panel.shape.blockDepth start) :
    (stripValues request tile start (request.panel.shape.blockDepth start)).getD
        (p * kernel.rows + i) .zero =
      request.factor (tile.row + i) (start + p) := by
  rw [h.height, getD_stripValues (Nat.lt_of_lt_of_le hi h.rows) hp, if_pos hi]

/-- A column of a K-block holds the elements of the column of the panel. -/
theorem getD_column (hwhole : request.panel.Whole)
    (hstart : start ∈ request.panel.shape.blockStarts) {p c : Nat}
    (hp : p < request.panel.shape.blockDepth start)
    (hc : c < request.panel.shape.columnBlocks * request.panel.width) :
    (request.panel.block start).getD
        ((c / request.panel.width * request.panel.shape.blockDepth start + p) *
          request.panel.width + c % request.panel.width) .zero =
      request.panel.entry (start + p) c := by
  have hwidth := request.panel.shape.width_pos
  rw [Panel.getD_block hwhole hstart hp (Nat.div_lt_of_lt_mul (by rwa [Nat.mul_comm]))
    (Nat.mod_lt _ hwidth), Nat.mul_comm, Nat.div_add_mod]

/-- The storage from the ragged last column block on holds that block. -/
theorem mul_le_size_lastBlock (hwhole : request.panel.Whole)
    (hstart : start ∈ request.panel.shape.blockStarts)
    (hragged : fullBlocks request < request.panel.shape.columnBlocks) :
    1 * (request.panel.shape.blockDepth start * request.panel.width) ≤
      ((request.panel.block start).extract (fullBlocks request *
        request.panel.shape.blockDepth start * request.panel.width)).size := by
  have hblocks := Panel.mul_le_size_block hwhole hstart (Nat.succ_le_of_lt hragged)
  rw [Nat.succ_mul] at hblocks
  rw [Array.size_extract, Nat.min_self, Nat.mul_assoc, Nat.one_mul]
  exact Nat.le_sub_of_add_le' hblocks

theorem depth_mul_le (h : TileReady request tile kernel origin room) :
    request.panel.shape.blockDepth start * tile.kernelRows ≤ room.strip :=
  Nat.le_trans (Nat.mul_le_mul_right _ PanelShape.blockDepth_le_stripDepth) h.strip

theorem depth_mul_le_size (h : TileReady request tile kernel origin room) :
    request.panel.shape.blockDepth start * kernel.rows ≤
      (stripValues request tile start (request.panel.shape.blockDepth start)).size := by
  rw [size_stripValues, h.height]

end Operands

/-! ### Column blocks by way of the staging area -/

section Staged

variable {kernel : Kernel} {request : Request} {tile : Tile} {origin start : Nat} {room : Room}

/-- Columns from `first` on that are staged and merged get the products of their rows and
columns. The column blocks are read from storage that begins with the block of column `first`. -/
theorem stage_merge_rewrites (h : TileReady request tile kernel origin room)
    (hstart : start ∈ request.panel.shape.blockStarts) {right : Array Single} {blocks first : Nat}
    (hright : blocks * (request.panel.shape.blockDepth start * request.panel.width) ≤ right.size)
    (hstaging : tile.kernelRows * (blocks * request.panel.width) ≤ room.staging)
    (hfirst : first ≤ request.n) (hcolumns : request.n - first ≤ blocks * request.panel.width)
    (hweight : ∀ c < request.n - first, ∀ p < request.panel.shape.blockDepth start,
      right.getD ((c / request.panel.width * request.panel.shape.blockDepth start + p) *
        request.panel.width + c % request.panel.width) .zero =
        request.panel.entry (start + p) (first + c)) :
    (do
      let staged ← stageBlocks request kernel tile (request.panel.shape.blockDepth start)
        (stripValues request tile start (request.panel.shape.blockDepth start)) right blocks
        request.panel.width (blocks * request.panel.width)
      merge request (blockBeta request start) origin first request.n staged
        (blocks * request.panel.width) tile.rows : Stage Unit).Rewrites room (fun _ ↦ True)
      ((⟨origin + first, request.outputStride, tile.rows, request.n - first⟩ : Window).rewrite
        fun i j old ↦ mergeElement (blockBeta request start) old
          (blockProduct kernel request start (tile.row + i) (first + j))) := by
  refine (stageBlocks_rewrites h.takes h.height (PanelShape.blockDepth_pos hstart)
    (h.height ▸ depth_mul_le_size h) hright hstaging h.countable.staging).bind
      fun staged hstaged ↦ ?_
  have hband : ∀ i < tile.rows, origin + (i * request.outputStride + request.n) ≤ room.band := by
    intro i hi
    have hrow := h.band i hi
    omega
  have hlimit : staged.size < Word.limit := by
    rw [hstaged.size, h.height]
    exact Nat.lt_of_le_of_lt hstaging h.countable.staging
  have hsize : ∀ i < tile.rows, i * (blocks * request.panel.width) + (request.n - first) ≤
      staged.size := by
    intro i hi
    rw [hstaged.size, h.height]
    exact Nat.le_trans (Nat.add_le_add_left hcolumns _)
      (row_end_le (Nat.lt_of_lt_of_le hi h.rows) _)
  have hle : request.n - first ≤ request.outputStride := Nat.le_trans (Nat.sub_le _ _) h.stride
  refine (merge_rewrites (blockBeta request start) hfirst h.countable.band hlimit hle hband
    hsize).congr fun q _ x ↦ ?_
  refine Window.rewrite_congr (fun i hi j hj old ↦ ?_) q x
  have hvalue := hstaged.value i (h.height ▸ Nat.lt_of_lt_of_le hi h.rows) j
    (Nat.lt_of_lt_of_le hj hcolumns)
  refine congrArg (mergeElement (blockBeta request start) old) (hvalue.trans ?_)
  exact kernel.product_congr (fun p hp ↦ getD_strip h hi hp) fun p hp ↦ hweight j hj p hp

variable (h : TileReady request tile kernel origin room)
  (hstart : start ∈ request.panel.shape.blockStarts)
include h hstart

/-- Every column of a masked tile is staged and merged. -/
theorem runMasked_rewrites (hmasked : tile.isMasked = true) :
    (runMasked request (blockPass kernel request tile origin start)).Rewrites room (· = 1)
      ((⟨origin, request.outputStride, tile.rows, request.n⟩ : Window).rewrite fun i j old ↦
        mergeElement (blockBeta request start) old
          (blockProduct kernel request start (tile.row + i) j)) := by
  have hcolumns : request.n ≤ request.panel.shape.columnBlocks * request.panel.width :=
    request.panel.shape.columns_le_paddedColumns
  have hright := Panel.mul_le_size_block h.whole hstart
    (Nat.le_refl request.panel.shape.columnBlocks)
  have hstaging := h.staging
  rw [stagingWidth, List.any_cons, hmasked, Bool.true_or, if_pos rfl] at hstaging
  have hstage := stage_merge_rewrites h hstart hright hstaging (Nat.zero_le _) hcolumns
    fun c hc p hp ↦ by
      rw [getD_column h.whole hstart hp (Nat.lt_of_lt_of_le hc hcolumns), Nat.zero_add]
  have hdone : (Pure.pure 1 : Stage Nat).Rewrites room (· = 1) fun _ x ↦ x := .pure rfl
  have hrun := hstage.bind fun _ _ ↦ hdone
  simp only [Nat.zero_add, Nat.add_zero, Nat.sub_zero, bind_assoc] at hrun
  have hstride : Stage.word request (request.panel.shape.columnBlocks * request.panel.width) =
      pure (request.panel.shape.columnBlocks * request.panel.width) :=
    Stage.word_eq (h.whole.paddedColumns_lt (Nat.zero_lt_of_lt (PanelShape.start_lt_rows hstart)))
  rw [runMasked, hstride, pure_bind]
  exact hrun

/-- The ragged last column block of a tile is computed from the storage behind the blocks in front
of it, which words count. -/
theorem runRagged_eq (hragged : fullBlocks request < request.panel.shape.columnBlocks) :
    runRagged request (blockPass kernel request tile origin start) = (do
      let staged ← stageBlocks request kernel tile (request.panel.shape.blockDepth start)
        (stripValues request tile start (request.panel.shape.blockDepth start))
        ((request.panel.block start).extract (fullBlocks request *
          request.panel.shape.blockDepth start * request.panel.width)) 1 request.panel.width
        request.panel.width
      merge request (blockBeta request start) origin (fullBlocks request * request.panel.width)
        request.n staged request.panel.width tile.rows
      return 1) := by
  have hlast : fullBlocks request * request.panel.shape.blockDepth start * request.panel.width ≤
      (request.panel.block start).size := by
    rw [Nat.mul_assoc]
    exact Panel.mul_le_size_block h.whole hstart (fullBlocks_le request)
  have hlimit : (request.panel.block start).size < Word.limit :=
    Nat.lt_of_le_of_lt (request.panel.size_block_le start) h.whole.addressable.size_lt
  have hfirst : Stage.word request (fullBlocks request * request.panel.shape.blockDepth start *
        request.panel.width) =
      pure (fullBlocks request * request.panel.shape.blockDepth start * request.panel.width) :=
    Stage.word_eq (Nat.lt_of_le_of_lt hlast hlimit)
  rw [runRagged, if_pos hragged]
  dsimp only [blockPass]
  rw [hfirst, pure_bind]
  exact if_neg (Nat.not_lt_of_le hlast)

/-- The ragged last column block of a tile is staged and merged. -/
theorem runRagged_rewrites (hmasked : tile.isMasked = false) :
    (runRagged request (blockPass kernel request tile origin start)).Rewrites room
      (· = if fullBlocks request < request.panel.shape.columnBlocks then 1 else 0)
      ((⟨origin + fullBlocks request * request.panel.width, request.outputStride, tile.rows,
          request.n - fullBlocks request * request.panel.width⟩ : Window).rewrite fun i j old ↦
        mergeElement (blockBeta request start) old
          (blockProduct kernel request start (tile.row + i)
            (fullBlocks request * request.panel.width + j))) := by
  by_cases hragged : fullBlocks request < request.panel.shape.columnBlocks
  · let depth := request.panel.shape.blockDepth start
    let last := (request.panel.block start).extract
      (fullBlocks request * depth * request.panel.width)
    have hright : 1 * (depth * request.panel.width) ≤ last.size :=
      mul_le_size_lastBlock h.whole hstart hragged
    have hstaging := h.staging
    rw [stagingWidth, List.any_cons, hmasked, Bool.false_or, List.any_nil, if_neg (by decide),
      if_pos hragged, ← Nat.one_mul request.panel.width] at hstaging
    have hcolumns : request.n - fullBlocks request * request.panel.width ≤
        1 * request.panel.width := by
      rw [Nat.one_mul]
      exact Nat.le_of_lt (ragged_lt request)
    have hweight : ∀ c < request.n - fullBlocks request * request.panel.width, ∀ p < depth,
        last.getD ((c / request.panel.width * depth + p) * request.panel.width +
          c % request.panel.width) .zero =
          request.panel.entry (start + p) (fullBlocks request * request.panel.width + c) := by
      intro c hc p hp
      have hcolumn : fullBlocks request * request.panel.width + c < request.n := by omega
      exact Panel.getD_block_from h.whole hstart hp
        (Nat.lt_of_lt_of_le hcolumn request.panel.shape.columns_le_paddedColumns)
    have hstage := stage_merge_rewrites h hstart hright hstaging (fullBlocks_mul_le request)
      hcolumns hweight
    have hdone : (Pure.pure 1 : Stage Nat).Rewrites room (· = 1) fun _ x ↦ x := .pure rfl
    have hrun := hstage.bind fun _ _ ↦ hdone
    simp only [bind_assoc, Nat.one_mul] at hrun
    simp only [hragged, if_true]
    rw [runRagged_eq h hstart hragged]
    exact hrun
  · rw [runRagged, if_neg hragged]
    simp only [hragged, if_false]
    have hdone : (Pure.pure 0 : Stage Nat).Rewrites room (· = 0) fun _ x ↦ x := .pure rfl
    refine hdone.congr fun q _ x ↦ ?_
    rw [ragged_eq_zero request hragged, Window.rewrite_no_columns]

/-- The full column blocks of a full tile are computed in place. -/
theorem runFull_rewrites (hmasked : tile.isMasked = false) :
    (runFull request (blockPass kernel request tile origin start)).Rewrites room
      (· = if 0 < fullBlocks request then 1 else 0)
      ((⟨origin, request.outputStride, tile.rows, fullBlocks request * request.panel.width⟩ :
        Window).rewrite fun i j ↦
          kernel.element (blockBeta request start) (request.panel.shape.blockDepth start)
            (fun p ↦ request.factor (tile.row + i) (start + p))
            fun p ↦ request.panel.entry (start + p) j) := by
  by_cases hfull : 0 < fullBlocks request
  · have hrows : kernel.rows = tile.rows := by
      have hlt := of_decide_eq_false hmasked
      have hle := h.rows
      rw [h.height]
      omega
    have hblocks := Nat.mul_le_mul_right request.panel.width (fullBlocks_le request)
    have hbounds : (directCall request (blockBeta request start) origin
        (request.panel.shape.blockDepth start)
        (stripValues request tile start (request.panel.shape.blockDepth start))
        (request.panel.block start) (fullBlocks request) request.panel.width).Bounded kernel.rows
        room.band := by
      refine ⟨depth_mul_le_size h, Panel.mul_le_size_block h.whole hstart (fullBlocks_le request),
        Nat.le_trans (fullBlocks_mul_le request) h.stride, fun i hi ↦ ?_⟩
      have hband := h.band i (hrows ▸ hi)
      have hcolumns := fullBlocks_mul_le request
      change origin + (i * request.outputStride + fullBlocks request * request.panel.width) ≤
        room.band
      omega
    have hcompute := computeBlocks_rewrites _ h.takes hbounds
    have hdone : (Pure.pure 1 : Stage Nat).Rewrites room (· = 1) fun _ x ↦ x := .pure rfl
    have hrun := hcompute.bind fun _ _ ↦ hdone
    rw [runFull, if_pos hfull]
    simp only [hfull, if_true]
    refine hrun.congr fun q _ x ↦ ?_
    rw [hrows]
    refine Window.rewrite_congr (fun i hi j hj old ↦ ?_) q x
    refine kernel.element_congr _ (fun p hp ↦ ?_) (fun p hp ↦ ?_) old
    · exact hrows ▸ getD_strip h hi hp
    · exact getD_column h.whole hstart hp (Nat.lt_of_lt_of_le hj hblocks)
  · rw [runFull, if_neg hfull]
    simp only [hfull, if_false]
    have hdone : (Pure.pure 0 : Stage Nat).Rewrites room (· = 0) fun _ x ↦ x := .pure rfl
    refine hdone.congr fun q _ x ↦ ?_
    rw [Nat.eq_zero_of_not_pos hfull, Nat.zero_mul, Window.rewrite_no_columns]

/-- A tile gets its elements in a K-block, whichever way they go. -/
theorem runPass_rewrites :
    (runPass request (blockPass kernel request tile origin start)).Rewrites room
      (· = passCalls request tile.isMasked)
      ((⟨origin, request.outputStride, tile.rows, request.n⟩ : Window).rewrite fun i j ↦
        blockElement kernel request tile.isMasked start (tile.row + i) j) := by
  cases hmasked : tile.isMasked with
  | true =>
    have hpass : (blockPass kernel request tile origin start).tile.isMasked = true := hmasked
    rw [runPass, if_pos hpass]
    refine (runMasked_rewrites h hstart hmasked).congr fun q _ x ↦ ?_
    exact Window.rewrite_congr (fun i _ j _ old ↦ (if_pos (.inl rfl)).symm) q x
  | false =>
    have hdirect := runFull_rewrites h hstart hmasked
    have hragged := runRagged_rewrites h hstart hmasked
    have hrun := hdirect.bind fun direct hcalls ↦ hragged.bind fun ragged hcalls' ↦
      (.pure (by rw [hcalls, hcalls', passCalls, if_neg Bool.false_ne_true]) :
        (Pure.pure (direct + ragged) : Stage Nat).Rewrites room (· = passCalls request false)
          fun _ x ↦ x)
    have hpass : ¬ (blockPass kernel request tile origin start).tile.isMasked = true :=
      (Bool.not_eq_true _).mpr hmasked
    rw [runPass, if_neg hpass]
    refine hrun.congr fun q _ x ↦ ?_
    have hcolumns := fullBlocks_mul_le request
    have hstride := h.stride
    rw [Window.rewrite_beside (by omega), Nat.add_sub_of_le hcolumns]
    refine Window.rewrite_congr (fun i _ j _ old ↦ ?_) q x
    unfold blockElement
    by_cases hj : j < fullBlocks request * request.panel.width
    · rw [if_pos hj, if_neg (by simp [hj])]
    · rw [if_neg hj, if_pos (.inr (Nat.le_of_not_lt hj)),
        Nat.add_sub_of_le (Nat.le_of_not_lt hj)]

/-- A tile is computed in a K-block. -/
theorem runBlock_rewrites :
    (runBlock request kernel tile origin start).Rewrites room
      (· = passCalls request tile.isMasked)
      ((⟨origin, request.outputStride, tile.rows, request.n⟩ : Window).rewrite fun i j ↦
        blockElement kernel request tile.isMasked start (tile.row + i) j) := by
  have hleft : ∀ i < tile.rows, ∀ p < request.panel.shape.blockDepth start,
      (request.left? (tile.row + i) (start + p)).isSome = true := fun i hi p hp ↦
    h.left i hi _ (Nat.lt_of_lt_of_le (Nat.add_lt_add_left hp start)
      (PanelShape.blockDepth_le_rows hstart))
  have hpack := packStrip_rewrites (depth_mul_le h) h.countable.strip h.left_lt hleft
  rw [runBlock_eq h.whole (request.panel.shape.paddedColumns_pos h.columns_pos) hstart]
  exact hpack.bind fun strip hstrip ↦ hstrip ▸ runPass_rewrites h hstart

end Staged

end Engine

end PanelGemm
