import Mathlib.Tactic.MkIffOfInductiveProp
import PanelGemm.Proofs.Engine.Pass
import PanelGemm.Proofs.Engine.WellShaped

/-!
# One tile in all K-blocks

A request that passes its check holds what its tiles read and write (`Engine.Admits`). A tile fits a
band if its kernel is in the table and its rows lie in the band (`Engine.FittingTile`); they may lie
below the last row of the output, as long as the left operand has them (`Request.Supplies`). Such a
tile is computed (`runTile_rewrites`): every element of its rows goes through the K-blocks in order,
one `blockElement` after another, which is `tileElement`. The result depends on the tile and the
element alone, not on the band that the tile is computed in, on the row at which that band starts,
or on what the tiles before it left in the buffers. A tile is sound if it fits the output and ends
with it (`Engine.SoundTile`).
-/

set_option autoImplicit false
set_option relaxedAutoImplicit false

namespace PanelGemm

/-- The shape of a column of two elements, each of them a K-block of its own. -/
def PanelShape.twoRows : PanelShape := ⟨.avx2, 2, 1, 1, Nat.one_pos⟩

/-- A row of ones times a column of ones, in two K-blocks and added to the output. -/
def Request.ones : Request where
  arithmetic := .wrapping
  m := 1
  left := #[.one, .one]
  orientation := .plain
  leftStride := 2
  panel := ⟨.twoRows, .one, Array.replicate PanelShape.twoRows.size .one⟩
  outputStride := 1
  alpha := .one
  beta := .one

theorem Request.ones_countsExactly : Request.ones.CountsExactly :=
  .inr (.inr ⟨.inr (.inr (.inr (by decide))), .inr (.inr (.inr (by decide)))⟩)

theorem Request.ones_resident {size : Nat} (hsize : size ≤ 2) : Request.ones.Resident size := by
  have hdata : Request.ones.panel.data.size = PanelShape.twoRows.size := Array.size_replicate
  have hshape : PanelShape.twoRows.size = 32 := by decide
  refine ⟨⟨hdata, ?_⟩, by decide, ?_, ?_⟩
  · rw [Addressable, hdata]
    decide
  · exact Nat.lt_of_le_of_lt (Nat.mul_le_mul_right _ hsize) (by decide)
  · rw [hdata, hshape]
    exact Nat.lt_of_le_of_lt (Nat.mul_le_mul_right _ (Nat.add_le_add_left hsize _)) (by decide)

/-- A tile that its kernel is tall enough for, with rows that the left operand has. -/
structure Request.Supplies (request : Request) (tile : Tile) : Prop where
  rows_le : tile.rows ≤ tile.kernelRows
  left : ∀ i < tile.rows, ∀ p < request.k, (request.left? (tile.row + i) p).isSome = true

namespace Engine

/-- A request that an engine can compute into an output of a given size, with something to
compute. -/
structure Admits (engine : Engine) (request : Request) (size : Nat) : Prop where
  rows_pos : 0 < request.m
  depth_pos : 0 < request.k
  columns_pos : 0 < request.n
  width : engine.family.accepts request.panel.width = true
  left : ∀ i < request.m, ∀ p < request.k, (request.left? i p).isSome = true
  products_le : request.m * request.k ≤ request.left.size
  stride : request.n ≤ request.outputStride
  output : ∀ i < request.m, i * request.outputStride + request.n ≤ size
  resident : request.Resident size

/-- A tile with a kernel in the table that is tall enough for its rows, all of them in the
output. -/
structure SoundTile (engine : Engine) (request : Request) (tile : Tile) : Prop where
  holds : engine.family.table.holds tile.kernelRows = true
  rows_pos : 0 < tile.rows
  rows_le : tile.rows ≤ tile.kernelRows
  stop_le : tile.stop ≤ request.m

/-- The number of elements that a band needs which starts at a given row and is to hold the rows of
a tile. -/
def needed (request : Request) (firstRow : Nat) (tile : Tile) : Nat :=
  (tile.row - firstRow + tile.rows - 1) * request.outputStride + request.n

/-- A tile with a kernel in the table and with rows, all of them in a band of a given size that
starts at a given row. The whole output is the band that starts at row zero. -/
@[mk_iff]
structure FittingTile (engine : Engine) (request : Request) (firstRow size : Nat) (tile : Tile) :
    Prop where
  holds : engine.family.table.holds tile.kernelRows = true
  rows_pos : 0 < tile.rows
  needed_le : needed request firstRow tile ≤ size

instance (engine : Engine) (request : Request) (firstRow size : Nat) (tile : Tile) :
    Decidable (engine.FittingTile request firstRow size tile) :=
  decidable_of_iff _ (fittingTile_iff engine request firstRow size tile).symm

/-- The value that an element of a tile gets in the K-blocks together. -/
def tileElement (engine : Engine) (request : Request) (tile : Tile) (row column : Nat)
    (old : Single) : Single :=
  request.panel.shape.blockStarts.foldl (fun old start ↦
    blockElement (Kernel.ofLevel engine.level tile.kernelRows) request tile.isMasked start row
      column old) old

/-- The window of the output that a tile covers. -/
def tileWindow (request : Request) (tile : Tile) : Window :=
  ⟨tile.row * request.outputStride, request.outputStride, tile.rows, request.n⟩

/-- What a tile makes of the output. -/
def tileRewrite (engine : Engine) (request : Request) (tile : Tile) : Nat → Single → Single :=
  (tileWindow request tile).rewrite fun i j ↦
    tileElement engine request tile (tile.row + i) j

/-- The number of kernel calls of a tile. -/
def tileCalls (request : Request) (tile : Tile) : Nat :=
  request.panel.shape.blockStarts.length * passCalls request tile.isMasked

/-! ### Requests that pass the check -/

section Check

variable {engine : Engine} {request : Request} {size : Nat}

theorem isEmpty_eq_false (hm : 0 < request.m) (hk : 0 < request.k) (hn : 0 < request.n) :
    request.isEmpty = false := by
  simp [Request.isEmpty, Nat.pos_iff_ne_zero.mp hm, Nat.pos_iff_ne_zero.mp hk,
    Nat.pos_iff_ne_zero.mp hn]

theorem products_le_of_holds (h : Storage.Holds request.left.size
    (request.orientation.storedRows request.m request.k)
    (request.orientation.storedColumns request.m request.k) request.leftStride) :
    request.m * request.k ≤ request.left.size :=
  request.orientation.storedRows_mul_storedColumns request.m request.k ▸ h.mul_le

/-- A request that passes its check and is not empty can be computed. -/
theorem admits_of_check (hcheck : engine.check request size = .ok ())
    (hexact : request.CountsExactly) (hresident : request.Resident size) (hm : 0 < request.m)
    (hk : 0 < request.k) (hn : 0 < request.n) : engine.Admits request size := by
  obtain ⟨-, hshape⟩ := wellShaped_of_check hexact (isEmpty_eq_false hm hk hn) hcheck
  have houtput := hshape.holds_output
  refine ⟨hm, hk, hn, hshape.width, fun i hi p hp ↦ ?_, products_le_of_holds hshape.left,
    houtput.stride_le hm hn, fun i hi ↦ houtput.row_le hn hi, hresident⟩
  have hlt := request.orientation.offset_lt_size hshape.left hi hp
  rw [Request.left?, Array.getElem?_eq_getElem hlt]
  rfl

end Check

/-! ### Tiles that are ready -/

section Ready

variable {engine : Engine} {request : Request} {tile : Tile} {room : Room} {firstRow size : Nat}

theorem rows_ofLevel (level : Level) (rows : Nat) : (Kernel.ofLevel level rows).rows = rows := by
  cases level <;> rfl

/-- The kernels of a family take the panels that the family accepts. -/
theorem takes_ofLevel {width : Nat} (h : engine.family.accepts width = true) (rows : Nat) :
    (Kernel.ofLevel engine.level rows).Takes width := by
  have hfeeds : engine.level.feeds width = true := engine.family.feeds_of_accepts width h
  cases hlevel : engine.level with
  | baseline => trivial
  | _ =>
    rw [hlevel] at hfeeds
    exact (beq_iff_eq.mp hfeeds).trans (Nat.mul_comm _ _)

theorem kernel_of_holds (h : engine.family.table.holds tile.kernelRows = true) :
    engine.family.kernel tile.kernelRows =
      .ok (Kernel.ofLevel engine.level tile.kernelRows) :=
  if_pos h

/-- A band needs as many elements more than the rows of a tile as lie before the band. -/
theorem add_needed (hrows : 0 < tile.rows) (hfirst : firstRow ≤ tile.row) :
    firstRow * request.outputStride + needed request firstRow tile = needed request 0 tile := by
  unfold needed
  rw [← Nat.add_assoc, ← Nat.add_mul]
  congr 2
  omega

/-- A band that holds the last row of a tile holds every row. -/
theorem row_le_needed {i : Nat} (hi : i < tile.rows) :
    (tile.row - firstRow) * request.outputStride + i * request.outputStride + request.n ≤
      needed request firstRow tile := by
  unfold needed
  rw [← Nat.add_mul]
  exact Nat.add_le_add_right (Nat.mul_le_mul_right _ (by omega)) _

/-- A sound tile fits every band that holds its rows. -/
theorem SoundTile.fitting (h : engine.SoundTile request tile) (hfirst : firstRow ≤ tile.row)
    (hband : ∀ i < tile.stop, i * request.outputStride + request.n ≤
      firstRow * request.outputStride + size) : engine.FittingTile request firstRow size tile := by
  have hrows := h.rows_pos
  have hlast : tile.stop - 1 < tile.stop := by
    unfold Tile.stop
    omega
  have hneeded : needed request 0 tile ≤ firstRow * request.outputStride + size :=
    hband (tile.stop - 1) hlast
  rw [← add_needed hrows hfirst] at hneeded
  exact ⟨h.holds, hrows, Nat.le_of_add_le_add_left hneeded⟩

/-- A sound tile fits the output of a request that is admitted. -/
theorem SoundTile.fitting_whole (h : engine.SoundTile request tile)
    (hadmits : engine.Admits request size) : engine.FittingTile request 0 size tile := by
  refine h.fitting (Nat.zero_le _) fun i hi ↦ ?_
  rw [Nat.zero_mul, Nat.zero_add]
  exact hadmits.output i (Nat.lt_of_lt_of_le hi h.stop_le)

theorem SoundTile.supplies (h : engine.SoundTile request tile)
    (hadmits : engine.Admits request size) : request.Supplies tile :=
  ⟨h.rows_le, fun _ hi p hp ↦
    hadmits.left _ (Nat.lt_of_lt_of_le (Nat.add_lt_add_left hi _) h.stop_le) p hp⟩

/-- A tile that fits the band is ready in it. -/
theorem tileReady (hadmits : engine.Admits request size) (hroom : room.Countable)
    (hfits : engine.FittingTile request firstRow room.band tile)
    (hsupplies : request.Supplies tile)
    (hstrip : stripDepth request * tile.kernelRows ≤ room.strip)
    (hstaging : tile.kernelRows * stagingWidth request [tile] ≤ room.staging) :
    TileReady request tile (Kernel.ofLevel engine.level tile.kernelRows)
      ((tile.row - firstRow) * request.outputStride) room where
  columns_pos := hadmits.columns_pos
  stride := hadmits.stride
  whole := hadmits.resident.whole
  left_lt := hadmits.resident.left.size_lt
  countable := hroom
  takes := takes_ofLevel hadmits.width _
  height := rows_ofLevel _ _
  rows := hsupplies.rows_le
  left := hsupplies.left
  strip := hstrip
  staging := hstaging
  band := fun _ hi ↦ Nat.le_trans (row_le_needed hi) hfits.needed_le

/-- A tile that fits the band is placed. -/
theorem placeTile_rewrites (hband : room.band < Word.limit)
    (hfits : engine.FittingTile request firstRow room.band tile) (hfirst : firstRow ≤ tile.row) :
    (placeTile request firstRow tile).Rewrites room
      (· = (tile.row - firstRow) * request.outputStride) fun _ x ↦ x := by
  intro workspace hworkspace
  have hneeded := hfits.needed_le
  have horigin : (tile.row - firstRow) * request.outputStride ≤ needed request firstRow tile := by
    have hrow : (tile.row - firstRow) * request.outputStride + 0 * request.outputStride +
        request.n ≤ needed request firstRow tile := row_le_needed hfits.rows_pos
    omega
  have hword : Stage.word request
      ((tile.row - firstRow + tile.rows - 1) * request.outputStride + request.n) =
        pure (needed request firstRow tile) := Stage.word_eq (Nat.lt_of_le_of_lt hneeded hband)
  have hword' : Stage.word request ((tile.row - firstRow) * request.outputStride) = _ :=
    Stage.word_eq (by omega)
  rw [← hworkspace] at hneeded
  have hend : ¬ workspace.band.size < needed request firstRow tile := Nat.not_lt_of_le hneeded
  have hstart : ¬ workspace.band.size < (tile.row - firstRow) * request.outputStride :=
    Nat.not_lt_of_le (Nat.le_trans horigin hneeded)
  refine ⟨_, workspace, ?_, rfl, hworkspace, (mapIdx_eq_self fun _ _ ↦ rfl).symm⟩
  simp only [placeTile, hword, hword', pure_bind, Stage.get_bind_run,
    if_neg (Nat.not_lt_of_le hfirst), if_neg (Nat.ne_of_gt hfits.rows_pos), if_neg hend,
    if_neg hstart]
  rfl

/-- A tile that fits the band is computed: each of its elements gets the value that `tileElement`
says, wherever the band starts. -/
theorem runTile_rewrites (hadmits : engine.Admits request size) (hroom : room.Countable)
    (hfits : engine.FittingTile request firstRow room.band tile)
    (hsupplies : request.Supplies tile) (hfirst : firstRow ≤ tile.row)
    (hstrip : stripDepth request * tile.kernelRows ≤ room.strip)
    (hstaging : tile.kernelRows * stagingWidth request [tile] ≤ room.staging) :
    (runTile engine request firstRow tile).Rewrites room (· = tileCalls request tile)
      fun q ↦ tileRewrite engine request tile (firstRow * request.outputStride + q) := by
  have horigin : tile.row * request.outputStride =
      firstRow * request.outputStride + (tile.row - firstRow) * request.outputStride := by
    rw [← Nat.add_mul, Nat.add_sub_of_le hfirst]
  have hready := tileReady hadmits hroom hfits hsupplies hstrip hstaging
  have hblock : ∀ start ∈ request.panel.shape.blockStarts, ∀ total : Nat,
      (do return total + (← runBlock request (Kernel.ofLevel engine.level tile.kernelRows) tile
        ((tile.row - firstRow) * request.outputStride) start) : Stage Nat).Rewrites room
          (· = total + passCalls request tile.isMasked) _ := fun start hstart total ↦
    (runBlock_rewrites hready hstart).bind fun calls hcalls ↦ .pure (hcalls ▸ rfl)
  have hblocks : (request.panel.shape.blockStarts.foldlM (fun total start ↦ do
      return total + (← runBlock request (Kernel.ofLevel engine.level tile.kernelRows) tile
        ((tile.row - firstRow) * request.outputStride) start)) 0 : Stage Nat).Rewrites room
      (· = tileCalls request tile)
      fun q ↦ tileRewrite engine request tile (firstRow * request.outputStride + q) := by
    refine ((Stage.Rewrites.foldlM hblock 0).congr fun q _ x ↦ ?_).mono fun calls hcalls ↦ ?_
    · rw [tileRewrite, tileWindow, horigin, Window.rewrite_shift]
      exact Window.foldl_rewrite _ (fun start i j ↦
        blockElement (Kernel.ofLevel engine.level tile.kernelRows) request tile.isMasked start
          (tile.row + i) j) q x
    · rw [hcalls, List.map_const', List.sum_replicate_nat, Nat.zero_add]
      rfl
  rw [runTile, kernel_of_holds hfits.holds]
  exact (placeTile_rewrites hroom.band hfits hfirst).bind fun origin horigin ↦ horigin ▸ hblocks

end Ready

end Engine

end PanelGemm
