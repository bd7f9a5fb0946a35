import Mathlib.Data.List.Sort
import PanelGemm.Proofs.Engine.Pass
import PanelGemm.Proofs.Panel.Packing

/-!
# The storage of a panel, K-block by K-block

The extents of the K-blocks are computed in several places, each with its own divisions. A panel
counts its K-blocks and the rows of the last one, and finds a single element by its row and its
column. An engine takes the storage of one K-block after another, reads the number of rows off its
size, and has a kernel walk through it block by block and row by row. All of them come to the same
extents.

The K-blocks are as high as the block height, and the last one has the rows that are left
(`PanelShape.map_blockDepth`); together they have all rows (`PanelShape.sum_blockDepth`). Their
slices are consecutive and make up the storage (`Panel.slicedAt_bound`), and what a kernel computes
from a slice are products with the elements of the panel (`Panel.readAlike`).
`Panel.blocks_slice_storage` says all this of the panels that are packed.
-/

set_option autoImplicit false
set_option relaxedAutoImplicit false

namespace PanelGemm

/-! ### The rows of the K-blocks -/

namespace PanelShape

variable {shape : PanelShape} {block : Nat}

/-- The K-blocks start at the multiples of the block height, in ascending order. -/
theorem blockStarts_eq_filter (shape : PanelShape) :
    shape.blockStarts = (List.range shape.rows).filter (shape.blockRows ∣ ·) := by
  have hstarts : shape.blockStarts.Pairwise (· < ·) :=
    List.pairwise_map.mpr (List.pairwise_lt_range.imp fun hlt ↦
      Nat.mul_lt_mul_of_pos_right hlt shape.blockRows_pos)
  refine hstarts.eq_of_mem_iff (List.pairwise_lt_range.filter _) fun start ↦ ?_
  rw [mem_blockStarts, List.mem_filter, List.mem_range, decide_eq_true_iff]
  exact and_comm

/-- Every K-block that another one follows is as high as the block height. -/
theorem blockDepth_of_succ_lt (hblock : block + 1 < shape.rowBlocks) :
    shape.blockDepth (block * shape.blockRows) = shape.blockRows := by
  have hlt := shape.rowBlocks_mul_lt hblock
  rw [Nat.succ_mul] at hlt
  unfold blockDepth
  omega

/-- The last K-block has the rows that are left. -/
theorem blockDepth_last (hblock : block + 1 = shape.rowBlocks) :
    shape.blockDepth (block * shape.blockRows) = shape.lastBlockRows := by
  have hlt := shape.rowBlocks_mul_lt (Nat.lt_of_succ_le (Nat.le_of_eq hblock))
  have hle : shape.rows ≤ (block + 1) * shape.blockRows := by
    rw [hblock]
    exact shape.rows_le_rowBlocks_mul
  rw [Nat.succ_mul] at hle
  obtain ⟨rest, hrest⟩ := Nat.exists_eq_add_of_le (Nat.le_of_lt hlt)
  have hmod : shape.rows % shape.blockRows = rest % shape.blockRows := by
    rw [hrest, Nat.mul_add_mod']
  unfold blockDepth lastBlockRows
  -- a full last block leaves no remainder
  rcases Nat.lt_or_eq_of_le (show rest ≤ shape.blockRows by omega) with hshort | hfull
  · rw [hmod, Nat.mod_eq_of_lt hshort, if_neg (by omega)]
    omega
  · rw [hmod, hfull, Nat.mod_self, if_pos (by omega)]
    omega

example : (⟨.avx2, 4, 20, 2, by decide⟩ : PanelShape).lastBlockRows = 2 := by decide

/-- The numbers of rows of the K-blocks. -/
theorem map_blockDepth (hrows : 0 < shape.rows) :
    shape.blockStarts.map shape.blockDepth =
      List.replicate (shape.rowBlocks - 1) shape.blockRows ++ [shape.lastBlockRows] := by
  obtain ⟨count, hcount⟩ := Nat.exists_eq_add_of_le' (shape.rowBlocks_pos hrows)
  have hfull : (List.range count).map (fun block ↦ shape.blockDepth (block * shape.blockRows)) =
      List.replicate count shape.blockRows := by
    refine List.eq_replicate_iff.mpr ⟨by simp, fun depth hdepth ↦ ?_⟩
    obtain ⟨block, hblock, rfl⟩ := List.mem_map.mp hdepth
    have hlt := List.mem_range.mp hblock
    exact blockDepth_of_succ_lt (by omega)
  rw [blockStarts, List.map_map, hcount, List.range_succ, List.map_append, List.map_singleton,
    Nat.add_sub_cancel]
  exact congrArg₂ (· ++ [·]) hfull (blockDepth_last hcount.symm)

end PanelShape

/-- A call that multiplies by a K-block of a panel, from one of its column blocks on. -/
structure MicroCall.Multiplies (call : MicroCall) (panel : Panel) (start depth first : Nat) :
    Prop where
  right : call.right = (panel.block start).extract (first * depth * panel.width)
  depth : call.depth = depth
  width : call.width = panel.width

/-- The column blocks of such a call are column blocks of the panel. -/
theorem MicroCall.Multiplies.column_lt {call : MicroCall} {panel : Panel} {start first : Nat}
    (h : call.Multiplies panel start (panel.shape.blockDepth start) first) (hwhole : panel.Whole)
    (hstart : start ∈ panel.shape.blockStarts)
    (hright : call.blocks * (call.depth * call.width) ≤ call.right.size) {c : Nat}
    (hc : c < call.blocks * call.width) :
    first * panel.width + c < panel.shape.paddedColumns := by
  rw [h.depth, h.width, h.right, Array.size_extract, Nat.min_self,
    Panel.size_block hwhole hstart] at hright
  rw [h.width] at hc
  have hcolumn := Nat.mul_lt_mul_of_pos_left hc (PanelShape.blockDepth_pos hstart)
  rw [Nat.mul_left_comm] at hcolumn
  have hfirst : panel.shape.blockDepth start * (first * panel.width) =
      first * panel.shape.blockDepth start * panel.width := by
    rw [Nat.mul_left_comm, Nat.mul_assoc]
  -- the columns are compared by the elements that the K-block has in them
  apply Nat.lt_of_mul_lt_mul_left
  rw [Nat.mul_add, hfirst]
  omega

namespace Panel

/-- Where the storage of a K-block starts; behind the last K-block it is where the storage ends. -/
def bound (panel : Panel) (block : Nat) : Nat :=
  min (block * panel.shape.blockRows) panel.shape.rows * panel.shape.paddedColumns

/-- The number of rows of a K-block, read off the size of its storage. -/
def readDepth (panel : Panel) (start : Nat) : Nat :=
  (panel.block start).size / (panel.shape.columnBlocks * panel.width)

variable {arithmetic : Arithmetic} {panel : Panel} {start : Nat}

/-! ### Slices -/

/-- The storage of the K-blocks is read as it is, and cut at given bounds: every slice ends where
the next one starts, none of them is empty, and together they are the whole storage. -/
structure SlicedAt (arithmetic : Arithmetic) (panel : Panel) (bounds : Nat → Nat) : Prop where
  read : ∀ start ∈ panel.shape.blockStarts,
    panel.readBlock arithmetic start = .ok (panel.block start)
  first : bounds 0 = 0
  last : bounds panel.shape.rowBlocks = panel.data.size
  ascending : ∀ block < panel.shape.rowBlocks, bounds block < bounds (block + 1)
  slices : panel.shape.blockStarts.map panel.block =
    (List.range panel.shape.rowBlocks).map fun block ↦
      panel.data.extract (bounds block) (bounds (block + 1))
  joined : (panel.shape.blockStarts.map panel.block).foldl (· ++ ·) #[] = panel.data

theorem bound_zero (panel : Panel) : panel.bound 0 = 0 := by
  rw [bound, Nat.zero_mul, Nat.zero_min, Nat.zero_mul]

theorem Whole.bound_rowBlocks (h : panel.Whole) :
    panel.bound panel.shape.rowBlocks = panel.data.size := by
  rw [bound, Nat.min_eq_right panel.shape.rows_le_rowBlocks_mul, h.size_data, PanelShape.size]

theorem bound_of_lt {block : Nat} (hblock : block < panel.shape.rowBlocks) :
    panel.bound block = block * panel.shape.blockRows * panel.shape.paddedColumns := by
  have hlt := panel.shape.rowBlocks_mul_lt hblock
  rw [bound, Nat.min_eq_left (Nat.le_of_lt hlt)]

theorem bound_succ {block : Nat} (hblock : block < panel.shape.rowBlocks) :
    panel.bound (block + 1) = (block * panel.shape.blockRows +
      panel.shape.blockDepth (block * panel.shape.blockRows)) * panel.shape.paddedColumns := by
  rw [bound, panel.shape.add_blockDepth hblock]

theorem bound_lt_bound (hcolumns : 0 < panel.shape.paddedColumns) {block : Nat}
    (hblock : block < panel.shape.rowBlocks) : panel.bound block < panel.bound (block + 1) := by
  have hstart : block * panel.shape.blockRows ∈ panel.shape.blockStarts :=
    List.mem_map_of_mem (List.mem_range.mpr hblock)
  rw [bound_of_lt hblock, bound_succ hblock]
  exact Nat.mul_lt_mul_of_pos_right
    (Nat.lt_add_of_pos_right (PanelShape.blockDepth_pos hstart)) hcolumns

/-- The slices of the K-blocks. -/
theorem map_block (panel : Panel) : panel.shape.blockStarts.map panel.block =
    (List.range panel.shape.rowBlocks).map fun block ↦
      panel.data.extract (panel.bound block) (panel.bound (block + 1)) := by
  rw [PanelShape.blockStarts, List.map_map]
  refine List.map_congr_left fun block hblock ↦ ?_
  have hlt := List.mem_range.mp hblock
  rw [bound_of_lt hlt, bound_succ hlt]
  rfl

/-- The storage of a panel with columns is cut where the K-blocks start. -/
theorem slicedAt_bound (hwhole : panel.Whole) (hcolumns : 0 < panel.shape.paddedColumns) :
    panel.SlicedAt arithmetic panel.bound where
  read := fun _ hstart ↦ hwhole.readBlock_eq arithmetic hstart
  first := panel.bound_zero
  last := hwhole.bound_rowBlocks
  ascending := fun _ hblock ↦ bound_lt_bound hcolumns hblock
  slices := panel.map_block
  joined := by
    have hascending : ∀ block < panel.shape.rowBlocks,
        panel.bound block ≤ panel.bound (block + 1) :=
      fun _ hblock ↦ Nat.le_of_lt (bound_lt_bound hcolumns hblock)
    rw [panel.map_block, (foldl_extract hascending).2, panel.bound_zero, hwhole.bound_rowBlocks,
      Array.extract_size]

/-! ### Depths -/

/-- The numbers of rows that are read off the storage of the K-blocks are those of an operand with
given rows: all K-blocks but the last one are as high as the block height, the last one has the rows
that are left, and none is empty. -/
structure ReadsDepths (panel : Panel) (rows blockRows : Nat) : Prop where
  depth : ∀ start ∈ panel.shape.blockStarts, panel.readDepth start = min blockRows (rows - start)
  pos : ∀ start ∈ panel.shape.blockStarts, 0 < panel.readDepth start
  le : ∀ start ∈ panel.shape.blockStarts, panel.readDepth start ≤ min blockRows rows
  depths : panel.shape.blockStarts.map panel.readDepth =
    List.replicate (panel.shape.rowBlocks - 1) blockRows ++ [panel.shape.lastBlockRows]
  sum : (panel.shape.blockStarts.map panel.readDepth).sum = rows

theorem readDepth_eq (hwhole : panel.Whole) (hcolumns : 0 < panel.shape.paddedColumns)
    (hstart : start ∈ panel.shape.blockStarts) :
    panel.readDepth start = panel.shape.blockDepth start :=
  size_block_div hwhole hstart hcolumns

theorem readsDepths (hwhole : panel.Whole) (hrows : 0 < panel.shape.rows)
    (hcolumns : 0 < panel.shape.paddedColumns) :
    panel.ReadsDepths panel.shape.rows panel.shape.blockRows := by
  have hread : panel.shape.blockStarts.map panel.readDepth =
      panel.shape.blockStarts.map panel.shape.blockDepth :=
    List.map_congr_left fun _ hstart ↦ readDepth_eq hwhole hcolumns hstart
  refine ⟨fun _ hstart ↦ readDepth_eq hwhole hcolumns hstart, fun _ hstart ↦ ?_,
    fun _ hstart ↦ ?_, ?_, ?_⟩
  · rw [readDepth_eq hwhole hcolumns hstart]
    exact PanelShape.blockDepth_pos hstart
  · rw [readDepth_eq hwhole hcolumns hstart]
    exact PanelShape.blockDepth_le_stripDepth
  · rw [hread, PanelShape.map_blockDepth hrows]
  · rw [hread, panel.shape.sum_blockDepth]

/-! ### Elements -/

/-- A K-block of a given number of rows is read alike through the panel and through its storage. An
element of the panel is where a kernel looks for it, an engine packs and computes so many depths,
and a kernel that is given the storage computes with the elements of the panel. -/
structure ReadAlike (arithmetic : Arithmetic) (panel : Panel) (start depth : Nat) : Prop where
  element : ∀ p < depth, ∀ block < panel.shape.columnBlocks, ∀ j < panel.width, ∃ x,
    panel.read arithmetic (start + p) (block * panel.width + j) = .ok (some x) ∧
      (panel.block start)[(block * depth + p) * panel.width + j]? = some x
  engine : ∀ (request : Request) (kernel : Kernel) (tile : Tile) (origin : Nat),
    request.arithmetic = arithmetic → request.panel = panel →
      Engine.runBlock request kernel tile origin start = do
      let left ← Engine.packStrip request tile start depth
      Engine.runPass request
        ⟨kernel, tile, origin, Engine.blockBeta request start, depth, left, panel.block start⟩
  kernel : ∀ (kernel : Kernel) (call : MicroCall) (first : Nat) (output : Array Single),
    call.Multiplies panel start depth first → kernel.Takes call.width →
    call.Bounded kernel.rows output.size →
      kernel.run call output =
        some (output.mapIdx ((call.window kernel.rows).rewrite fun i c ↦
          kernel.element call.beta depth (call.factor kernel.rows i)
            fun p ↦ panel.entry (start + p) (first * panel.width + c)))

theorem readAlike (hwhole : panel.Whole) (hcolumns : 0 < panel.shape.paddedColumns)
    (hstart : start ∈ panel.shape.blockStarts) :
    panel.ReadAlike arithmetic start (panel.shape.blockDepth start) where
  element := by
    intro p hp block hblock j hj
    have hplace := Array.getElem?_eq_getElem (lt_size_block hwhole hstart hp hblock hj)
    refine ⟨_, ?_, hplace⟩
    rw [hwhole.read_eq, ← getElem?_block hwhole hstart hp hblock hj, hplace]
  engine := by
    rintro request kernel tile origin rfl rfl
    exact Engine.runBlock_eq hwhole hcolumns hstart kernel tile origin
  kernel := by
    intro kernel call first output hcall htakes hbounds
    rw [kernel.run_eq htakes hbounds, hcall.depth]
    refine congrArg (fun f ↦ some (output.mapIdx f)) (funext fun q ↦ funext fun x ↦ ?_)
    refine Window.rewrite_congr (fun i _ c hc old ↦ ?_) q x
    refine kernel.element_congr _ (fun _ _ ↦ rfl) (fun p hp ↦ ?_) old
    rw [MicroCall.weight, hcall.right, hcall.depth, hcall.width]
    exact getD_block_from hwhole hstart hp (hcall.column_lt hwhole hstart hbounds.right hc)

open Packing in
/-- The storage of a packed panel, K-block by K-block, as long as a machine word counts it. The
K-blocks start at the multiples of the block height, and there are as many as the panel counts.
Their slices are consecutive and make up the storage. The number of rows that is read off a slice is
that of its K-block, and the numbers of all slices are those that the panel gives. Every element of
the panel is where a kernel looks for it. -/
theorem blocks_slice_storage (arithmetic : Arithmetic) (level : Level) (source : Source)
    (blockRows : Nat) (panel : Panel) (hexact : arithmetic.Exact (source.size level))
    (hpack : pack arithmetic level source blockRows = .ok panel) (hrows : 0 < source.rows)
    (hcolumns : 0 < source.columns) :
    panel.width = level.blockWidth ∧
    panel.shape.blockStarts = (List.range source.rows).filter (blockRows ∣ ·) ∧
    panel.shape.blockStarts.length = panel.shape.rowBlocks ∧
    panel.SlicedAt arithmetic panel.bound ∧
    panel.ReadsDepths source.rows blockRows ∧
    ∀ start ∈ panel.shape.blockStarts,
      panel.ReadAlike arithmetic start (min blockRows (source.rows - start)) := by
  have hwhole := whole_of_pack hexact hpack
  obtain ⟨hlevel, hrows', hcolumns', hblockRows⟩ := shape_of_pack hpack
  rw [← hrows'] at hrows ⊢
  rw [← hcolumns'] at hcolumns
  have hpadded := panel.shape.paddedColumns_pos hcolumns
  rw [← hblockRows]
  refine ⟨congrArg Level.blockWidth hlevel, panel.shape.blockStarts_eq_filter, ?_,
    slicedAt_bound hwhole hpadded, readsDepths hwhole hrows hpadded,
    fun start hstart ↦ readAlike hwhole hpadded hstart⟩
  rw [PanelShape.blockStarts, List.length_map, List.length_range]

/-- Five rows of twenty columns. -/
def raggedSource : Packing.Source := ⟨.replicate 100 .one, .plain, 20, 5, 20, .one⟩

/-- Two K-blocks of two rows and one of the row that is left, and two column blocks, the second of
them ragged. -/
theorem blocks_slice_storage_ragged : ∃ panel, pack .wrapping .avx2 raggedSource 2 = .ok panel ∧
    Arithmetic.wrapping.Exact (raggedSource.size .avx2) ∧
    0 < raggedSource.rows ∧ 0 < raggedSource.columns ∧
    panel.shape.blockStarts = [0, 2, 4] ∧
    panel.shape.blockStarts.map panel.readDepth = [2, 2, 1] ∧
    ∃ x, panel.read .wrapping 3 17 = .ok (some x) ∧
      (panel.block 2)[(1 * 2 + 1) * 16 + 1]? = some x := by
  have hfits : raggedSource.Fits 2 := ⟨by decide, .inr (.inr (by decide))⟩
  have hcount : raggedSource.Countable .avx2 2 :=
    ⟨.inr (.inr (.inr (by decide))), by decide, by decide⟩
  have hroom : raggedSource.HasRoom .avx2 := by
    unfold Packing.Source.HasRoom
    decide
  obtain ⟨panel, hpack, hpacked⟩ : ∃ panel, pack .wrapping .avx2 raggedSource 2 = .ok panel ∧
      panel.IsPacked .avx2 raggedSource 2 := pack_of_fits hfits _ hcount hroom
  have hexact : Arithmetic.wrapping.Exact (raggedSource.size .avx2) := .inr hcount.storage
  have hrows : 0 < raggedSource.rows := by decide
  have hcolumns : 0 < raggedSource.columns := by decide
  obtain ⟨hwidth, hstarts, -, -, hdepths, hread⟩ :=
    blocks_slice_storage .wrapping .avx2 raggedSource 2 panel hexact hpack hrows hcolumns
  have hblocks : panel.shape.blockStarts = [0, 2, 4] := hstarts.trans (by decide)
  have hcolumnBlocks : 1 < panel.shape.columnBlocks := by
    rw [PanelShape.columnBlocks, hpacked.columns, PanelShape.width, hpacked.level]
    decide
  refine ⟨panel, hpack, hexact, hrows, hcolumns, hblocks, ?_, ?_⟩
  · rw [List.map_congr_left hdepths.depth, hblocks]
    decide
  · have hread := (hread 2 (by rw [hblocks]; decide)).element
    rw [hwidth] at hread
    exact hread 1 (by decide) 1 hcolumnBlocks 1 (by decide)

/-- A source so high that a word counts neither what it has to hold nor what is stored for it, but
only what is left of these numbers when they wrap. -/
def wrappedSource : Packing.Source := ⟨#[.one], .plain, 16, 2 ^ 60 + 1, 1, .one⟩

/-- The storage of its first row. -/
def wrappedData : List Single := Binary.one :: List.replicate 15 .zero

/-- With wrapping arithmetic the source is packed, as a single K-block of so many rows, and with a
storage of one row. One row is then all that a kernel is given of it, and there is no second row to
be read. -/
theorem blocks_are_cut_short : ∃ panel,
    pack .wrapping .baseline wrappedSource (2 ^ 60 + 1) = .ok panel ∧
      panel.shape.blockStarts = [0] ∧ panel.shape.blockDepth 0 = 2 ^ 60 + 1 ∧
      (∃ block, panel.readBlock .wrapping 0 = .ok block ∧
        block.size / panel.shape.paddedColumns = 1) ∧
      panel.read .wrapping 1 0 = .error .panicked := by
  let shape : PanelShape := ⟨.baseline, 2 ^ 60 + 1, 1, 2 ^ 60 + 1, by decide⟩
  have hstarts : shape.blockStarts = [0] :=
    shape.blockStarts_of_le (by decide) (Nat.le_refl (2 ^ 60 + 1))
  have hpositive : 0 < 2 ^ 60 + 1 := by decide
  have hblock : wrappedSource.packBlock .wrapping shape 16 0 = .ok wrappedData := by
    decide +kernel
  refine ⟨⟨shape, .one, wrappedData.toArray⟩, ?_, hstarts, by decide +kernel,
    ⟨wrappedData.toArray, by decide +kernel, by decide +kernel⟩, by decide +kernel⟩
  rw [pack, dif_pos hpositive]
  change (wrappedSource.check .wrapping >>= fun _ ↦ Arithmetic.wrapping.word shape.size >>=
    fun size ↦ Capacity.reserve Capacity.singleBytes size >>= fun _ ↦
      shape.blockStarts.mapM (wrappedSource.packBlock .wrapping shape size) >>= _) = _
  have hcheck : wrappedSource.check .wrapping = .ok () := by decide +kernel
  have hsize : Arithmetic.wrapping.word shape.size = .ok 16 := by decide +kernel
  rw [hcheck, ok_bind, hsize, ok_bind, hstarts, List.mapM_cons, hblock]
  rfl

end Panel

end PanelGemm
