import Mathlib.Algebra.Ring.Nat
import Mathlib.Data.List.Basic
import PanelGemm.Panel.Basic
import PanelGemm.Proofs.Arithmetic
import PanelGemm.Proofs.Window

/-!
# The storage of a K-block

`PanelShape.index` finds a single element by division, while a kernel walks through the storage of
a K-block block by block and row by row. `PanelShape.index_add` says that both arrive at the same
place, and `Panel.getD_block` reads it off the storage of the K-block, which a kernel may be given
from a later column block on (`Panel.getD_block_from`). `size_block` gives back the number of rows
of a K-block, which is computed from the size of its storage.

A panel that holds all elements of its shape (`Panel.Whole`) is a buffer of the machine, so words
count whatever is read from it, and the storage of a K-block is the slice of its rows
(`Panel.Whole.readBlock_eq`).
-/

set_option autoImplicit false
set_option relaxedAutoImplicit false

namespace PanelGemm

theorem le_blockCount_mul (total size : Nat) (positive : 0 < size) :
    total ≤ blockCount total size * size := by
  have hdiv := Nat.div_add_mod (total + size - 1) size
  have hmod := Nat.mod_lt (total + size - 1) positive
  have hcomm : size * ((total + size - 1) / size) = (total + size - 1) / size * size :=
    Nat.mul_comm _ _
  unfold blockCount
  omega

namespace PanelShape

variable (shape : PanelShape)

theorem width_pos : 0 < shape.width := shape.level.blockWidth_pos

theorem columns_le_paddedColumns : shape.columns ≤ shape.paddedColumns :=
  le_blockCount_mul shape.columns shape.width shape.width_pos

theorem paddedColumns_pos (hcolumns : 0 < shape.columns) : 0 < shape.paddedColumns :=
  Nat.lt_of_lt_of_le hcolumns shape.columns_le_paddedColumns

theorem columnBlocks_pos (hcolumns : 0 < shape.columns) : 0 < shape.columnBlocks :=
  Nat.pos_of_mul_pos_right (shape.paddedColumns_pos hcolumns)

theorem rows_le_rowBlocks_mul : shape.rows ≤ shape.rowBlocks * shape.blockRows :=
  le_blockCount_mul shape.rows shape.blockRows shape.blockRows_pos

theorem rowBlocks_pos (hrows : 0 < shape.rows) : 0 < shape.rowBlocks :=
  Nat.pos_of_mul_pos_right (Nat.lt_of_lt_of_le hrows shape.rows_le_rowBlocks_mul)

theorem rowBlocks_mul_lt {block : Nat} (h : block < shape.rowBlocks) :
    block * shape.blockRows < shape.rows := by
  have hpos := shape.blockRows_pos
  have hmul : (block + 1) * shape.blockRows ≤ shape.rows + shape.blockRows - 1 := by
    rw [← Nat.le_div_iff_mul_le hpos]
    exact h
  rw [Nat.succ_mul] at hmul
  omega

/-- A K-block ends where the next one starts, and the last one with the rows. -/
theorem add_blockDepth {block : Nat} (hblock : block < shape.rowBlocks) :
    block * shape.blockRows + shape.blockDepth (block * shape.blockRows) =
      min ((block + 1) * shape.blockRows) shape.rows := by
  have hlt := shape.rowBlocks_mul_lt hblock
  unfold blockDepth
  rw [Nat.succ_mul]
  omega

/-- The K-blocks start at the multiples of the block height below the number of rows. -/
theorem mem_blockStarts {start : Nat} :
    start ∈ shape.blockStarts ↔ shape.blockRows ∣ start ∧ start < shape.rows := by
  rw [blockStarts, List.mem_map]
  constructor
  · rintro ⟨block, hblock, rfl⟩
    exact ⟨Nat.dvd_mul_left _ _, shape.rowBlocks_mul_lt (List.mem_range.mp hblock)⟩
  · rintro ⟨⟨block, rfl⟩, hlt⟩
    refine ⟨block, List.mem_range.mpr ?_, Nat.mul_comm _ _⟩
    by_contra hblock
    have hle := shape.rows_le_rowBlocks_mul
    have hmul : shape.rowBlocks * shape.blockRows ≤ block * shape.blockRows :=
      Nat.mul_le_mul_right _ (Nat.le_of_not_lt hblock)
    rw [Nat.mul_comm] at hlt
    exact absurd (Nat.le_trans hle hmul) (Nat.not_le_of_lt hlt)

/-- Rows that fit into one K-block are one. -/
theorem blockStarts_of_le (hrows : 0 < shape.rows) (hle : shape.rows ≤ shape.blockRows) :
    shape.blockStarts = [0] := by
  have hcount : shape.rowBlocks = 1 := Nat.div_eq_of_lt_le (by omega) (by omega)
  rw [blockStarts, hcount, List.range_one, List.map_singleton, Nat.zero_mul]

theorem blockDepth_of_le (hle : shape.rows ≤ shape.blockRows) :
    shape.blockDepth 0 = shape.rows :=
  Nat.min_eq_right hle

variable {shape} {start : Nat}

theorem start_lt_rows (hstart : start ∈ shape.blockStarts) : start < shape.rows :=
  (shape.mem_blockStarts.mp hstart).2

theorem blockDepth_pos (hstart : start ∈ shape.blockStarts) : 0 < shape.blockDepth start := by
  have hlt := start_lt_rows hstart
  have hpos := shape.blockRows_pos
  unfold blockDepth
  omega

theorem blockDepth_le_rows (hstart : start ∈ shape.blockStarts) :
    start + shape.blockDepth start ≤ shape.rows := by
  have hlt := start_lt_rows hstart
  unfold blockDepth
  omega

/-- The first K-blocks have all rows up to their end. -/
theorem sum_map_range_blockDepth {blocks : Nat} (hblocks : blocks ≤ shape.rowBlocks) :
    ((List.range blocks).map fun block ↦ shape.blockDepth (block * shape.blockRows)).sum =
      min (blocks * shape.blockRows) shape.rows := by
  induction blocks with
  | zero => simp
  | succ blocks ih =>
    have hlt := shape.rowBlocks_mul_lt hblocks
    rw [List.range_succ, List.map_append, List.sum_append, ih (Nat.le_of_succ_le hblocks),
      List.map_singleton, List.sum_singleton, Nat.min_eq_left (Nat.le_of_lt hlt),
      shape.add_blockDepth hblocks]

theorem sum_blockDepth (shape : PanelShape) :
    (shape.blockStarts.map shape.blockDepth).sum = shape.rows := by
  rw [blockStarts, List.map_map]
  exact (sum_map_range_blockDepth (Nat.le_refl _)).trans
    (Nat.min_eq_right shape.rows_le_rowBlocks_mul)

/-- With rows there is a first K-block. -/
theorem exists_blockStarts_eq_cons (shape : PanelShape) (hrows : 0 < shape.rows) :
    ∃ rest, shape.blockStarts = 0 :: rest := by
  obtain ⟨count, hcount⟩ := Nat.exists_eq_add_of_le' (shape.rowBlocks_pos hrows)
  refine ⟨(List.range count).map fun block ↦ (block + 1) * shape.blockRows, ?_⟩
  rw [blockStarts, hcount, List.range_succ_eq_map, List.map_cons, List.map_map, Nat.zero_mul]
  rfl

/-- Every row lies in a K-block. -/
theorem exists_block {row : Nat} (hrow : row < shape.rows) :
    ∃ start ∈ shape.blockStarts, start ≤ row ∧ row < start + shape.blockDepth start := by
  have hle : row / shape.blockRows * shape.blockRows ≤ row := Nat.div_mul_le_self _ _
  have hlt : row < row / shape.blockRows * shape.blockRows + shape.blockRows :=
    Nat.lt_div_mul_add shape.blockRows_pos
  refine ⟨row / shape.blockRows * shape.blockRows,
    shape.mem_blockStarts.mpr ⟨Nat.dvd_mul_left _ _, by omega⟩, hle, ?_⟩
  unfold blockDepth
  omega

/-- With rows, a row of the storage is no longer than all of it. -/
theorem paddedColumns_le_size (hrows : 0 < shape.rows) : shape.paddedColumns ≤ shape.size :=
  Nat.le_mul_of_pos_left _ hrows

theorem blockDepth_le_stripDepth : shape.blockDepth start ≤ min shape.blockRows shape.rows := by
  unfold blockDepth
  omega

/-- The element of a column block at a depth is where a kernel reads it. -/
theorem index_add (hstart : start ∈ shape.blockStarts) {p j : Nat}
    (hp : p < shape.blockDepth start) (hj : j < shape.width) (block : Nat) :
    shape.index (start + p) (block * shape.width + j) =
      start * shape.paddedColumns + ((block * shape.blockDepth start + p) * shape.width + j) := by
  have hmod : (start + p) % shape.blockRows = p := by
    obtain ⟨⟨q, rfl⟩, -⟩ := shape.mem_blockStarts.mp hstart
    rw [Nat.mul_add_mod, Nat.mod_eq_of_lt]
    exact Nat.lt_of_lt_of_le hp (Nat.min_le_left _ _)
  have hcolumn := offset_div_mod hj block
  unfold index
  rw [hmod, hcolumn.1, hcolumn.2, Nat.add_sub_cancel]
  dsimp only
  rw [Nat.add_sub_cancel_left, Nat.add_mul]
  omega

end PanelShape

namespace Panel

/-- A panel that holds every element of its shape, in a buffer of the machine. -/
structure Whole (panel : Panel) : Prop where
  size_data : panel.data.size = panel.shape.size
  addressable : Addressable panel.data

/-- The rows of the K-block that starts at a given row, as they are stored. -/
def block (panel : Panel) (start : Nat) : Array Single :=
  panel.data.extract (start * panel.shape.paddedColumns)
    ((start + panel.shape.blockDepth start) * panel.shape.paddedColumns)

/-- The element at a row and a column of the padded operand. -/
def get? (panel : Panel) (row column : Nat) : Option Single :=
  if row < panel.rows ∧ column < panel.shape.paddedColumns then
    panel.data[panel.shape.index row column]?
  else none

/-- The element at a row and a column, zero where there is none. -/
def entry (panel : Panel) (row column : Nat) : Single := (panel.get? row column).getD .zero

/-- The elements of the operand in dense row-major order. -/
def dense (panel : Panel) : Array Single :=
  Array.ofFn fun position : Fin (panel.rows * panel.columns) ↦
    panel.entry (position / panel.columns) (position % panel.columns)

variable {panel : Panel} {start : Nat}

/-- A word counts the elements of a whole panel, and of any part of it. -/
theorem Whole.size_lt (h : panel.Whole) : panel.shape.size < Word.limit :=
  h.size_data ▸ h.addressable.size_lt

theorem Whole.paddedColumns_lt (h : panel.Whole) (hrows : 0 < panel.shape.rows) :
    panel.shape.paddedColumns < Word.limit :=
  Nat.lt_of_le_of_lt (panel.shape.paddedColumns_le_size hrows) h.size_lt

/-- The rows up to a row of a whole panel end in its storage. -/
theorem Whole.mul_paddedColumns_le (h : panel.Whole) {row : Nat} (hrow : row ≤ panel.shape.rows) :
    row * panel.shape.paddedColumns ≤ panel.data.size := by
  rw [h.size_data]
  exact Nat.mul_le_mul_right _ hrow

/-- The storage of a K-block of a whole panel is read as it is. -/
theorem Whole.readBlock_eq (h : panel.Whole) (arithmetic : Arithmetic)
    (hstart : start ∈ panel.shape.blockStarts) :
    panel.readBlock arithmetic start = .ok (panel.block start) := by
  have hlt := PanelShape.start_lt_rows hstart
  have hfirst := h.mul_paddedColumns_le (Nat.le_of_lt hlt)
  have hstop := h.mul_paddedColumns_le (PanelShape.blockDepth_le_rows hstart)
  have hsize := h.addressable.size_lt
  rw [readBlock, Arithmetic.word_of_lt (h.paddedColumns_lt (Nat.zero_lt_of_lt hlt))]
  refine bind_eq_ok.mpr ⟨_, rfl, ?_⟩
  refine bind_eq_ok.mpr ⟨_, Arithmetic.word_of_lt (Nat.lt_of_le_of_lt hfirst hsize), ?_⟩
  refine bind_eq_ok.mpr ⟨_, Arithmetic.word_of_lt (Nat.lt_of_le_of_lt hstop hsize), ?_⟩
  exact sliceOrPanic_eq (Nat.mul_le_mul_right _ (Nat.le_add_right _ _)) hstop

theorem size_block (hwhole : panel.Whole) (hstart : start ∈ panel.shape.blockStarts) :
    (panel.block start).size = panel.shape.blockDepth start * panel.shape.paddedColumns := by
  have hle := hwhole.mul_paddedColumns_le (PanelShape.blockDepth_le_rows hstart)
  rw [block, Array.size_extract, Nat.min_eq_left hle, Nat.add_mul, Nat.add_sub_cancel_left]

/-- A K-block has no more elements than its panel. -/
theorem size_block_le (panel : Panel) (start : Nat) :
    (panel.block start).size ≤ panel.data.size := by
  rw [block, Array.size_extract]
  omega

/-- The storage that is read for a K-block has no more rows than the K-block, whatever the word for
their length is. -/
theorem size_readBlock_le {arithmetic : Arithmetic} {right : Array Single}
    (h : panel.readBlock arithmetic start = .ok right) :
    ∃ padded, arithmetic.word panel.shape.paddedColumns = .ok padded ∧
      right.size ≤ panel.shape.blockDepth start * padded := by
  obtain ⟨padded, hpadded, h⟩ := bind_eq_ok.mp h
  obtain ⟨first, hfirst, h⟩ := bind_eq_ok.mp h
  obtain ⟨stop, hstop, h⟩ := bind_eq_ok.mp h
  obtain ⟨-, -, h⟩ := bind_eq_ok.mp h
  rw [Nat.add_mul] at hstop
  have hsize := Arithmetic.word_add_le hfirst hstop
  refine ⟨padded, hpadded, ?_⟩
  rw [← Except.ok.inj h, Array.size_extract]
  omega

/-- Reading the storage of a K-block fails by a panic. -/
theorem mayPanic_readBlock (arithmetic : Arithmetic) (panel : Panel) (start : Nat) :
    MayPanic (panel.readBlock arithmetic start) fun _ ↦ True :=
  (Arithmetic.mayPanic_word _ _).bind fun _ _ ↦ (Arithmetic.mayPanic_word _ _).bind fun _ _ ↦
    (Arithmetic.mayPanic_word _ _).bind fun _ _ ↦
      (mayPanic_panicUnless _).bind fun _ _ ↦ mayPanic_ok trivial

/-- The storage of a K-block holds its column blocks. -/
theorem mul_le_size_block (hwhole : panel.Whole) (hstart : start ∈ panel.shape.blockStarts)
    {blocks : Nat}
    (hblocks : blocks ≤ panel.shape.columnBlocks) :
    blocks * (panel.shape.blockDepth start * panel.width) ≤ (panel.block start).size := by
  rw [size_block hwhole hstart, PanelShape.paddedColumns, Nat.mul_left_comm]
  exact Nat.mul_le_mul_left _ (Nat.mul_le_mul_right _ hblocks)

/-- The number of rows of a K-block is read off its storage. -/
theorem size_block_div (hwhole : panel.Whole) (hstart : start ∈ panel.shape.blockStarts)
    (hcolumns : 0 < panel.shape.paddedColumns) :
    (panel.block start).size / panel.shape.paddedColumns = panel.shape.blockDepth start := by
  rw [size_block hwhole hstart, Nat.mul_div_cancel _ hcolumns]

section Elements

variable (hwhole : panel.Whole) (hstart : start ∈ panel.shape.blockStarts) {p block j : Nat}
  (hp : p < panel.shape.blockDepth start) (hblock : block < panel.shape.columnBlocks)
  (hj : j < panel.width)

include hwhole hstart hp hblock hj

theorem lt_size_block : (block * panel.shape.blockDepth start + p) * panel.width + j <
    (panel.block start).size := by
  rw [size_block hwhole hstart, PanelShape.paddedColumns, Nat.mul_left_comm, ← Nat.mul_assoc]
  exact offset_lt (offset_lt hblock hp) hj

/-- The storage of a K-block holds the elements of its rows, column block by column block. -/
theorem getElem?_block :
    (panel.block start)[(block * panel.shape.blockDepth start + p) * panel.width + j]? =
      panel.get? (start + p) (block * panel.width + j) := by
  have hrow : start + p < panel.rows :=
    Nat.lt_of_lt_of_le (Nat.add_lt_add_left hp start) (PanelShape.blockDepth_le_rows hstart)
  have hcolumn : block * panel.width + j < panel.shape.paddedColumns := offset_lt hblock hj
  have hoffset := lt_size_block hwhole hstart hp hblock hj
  rw [Panel.block, Array.size_extract, Panel.width] at hoffset
  rw [get?, if_pos ⟨hrow, hcolumn⟩, Panel.width, PanelShape.index_add hstart hp hj, Panel.block,
    Array.getElem?_extract, if_pos hoffset]

theorem getD_block : (panel.block start).getD
    ((block * panel.shape.blockDepth start + p) * panel.width + j) .zero =
      panel.entry (start + p) (block * panel.width + j) := by
  rw [Array.getD_eq_getD_getElem?, getElem?_block hwhole hstart hp hblock hj, entry]

end Elements

/-- The storage of a K-block from one of its column blocks on, read at the place of a row and of a
column counted from that block. -/
theorem getD_block_from (hwhole : panel.Whole) (hstart : start ∈ panel.shape.blockStarts)
    {first p c : Nat}
    (hp : p < panel.shape.blockDepth start)
    (hc : first * panel.width + c < panel.shape.paddedColumns) :
    ((panel.block start).extract (first * panel.shape.blockDepth start * panel.width)).getD
        ((c / panel.width * panel.shape.blockDepth start + p) * panel.width + c % panel.width)
        .zero =
      panel.entry (start + p) (first * panel.width + c) := by
  have hwidth := panel.shape.width_pos
  have hcolumn : (first + c / panel.width) * panel.width + c % panel.width =
      first * panel.width + c := by
    rw [Nat.add_mul, Nat.add_assoc, Nat.div_add_mod']
  have hblock : first + c / panel.width < panel.shape.columnBlocks := by
    by_contra hbeyond
    have hmul := Nat.mul_le_mul_right panel.width (Nat.le_of_not_lt hbeyond)
    rw [PanelShape.paddedColumns] at hc
    change panel.shape.columnBlocks * panel.shape.width ≤ _ at hmul
    omega
  have hposition : first * panel.shape.blockDepth start * panel.width +
      ((c / panel.width * panel.shape.blockDepth start + p) * panel.width + c % panel.width) =
        ((first + c / panel.width) * panel.shape.blockDepth start + p) * panel.width +
          c % panel.width := by
    rw [← Nat.add_assoc, ← Nat.add_mul, ← Nat.add_assoc, ← Nat.add_mul]
  rw [getD_extract_from, hposition, getD_block hwhole hstart hp hblock (Nat.mod_lt _ hwidth),
    hcolumn]

theorem size_dense (panel : Panel) : panel.dense.size = panel.rows * panel.columns :=
  Array.size_ofFn

/-- The dense operand has the element of a row and a column where a row-major matrix has it. -/
theorem getElem?_dense {row column : Nat} (hrow : row < panel.rows)
    (hcolumn : column < panel.columns) :
    panel.dense[row * panel.columns + column]? = some (panel.entry row column) := by
  have hposition : row * panel.columns + column < panel.dense.size := by
    rw [size_dense]
    exact offset_lt hrow hcolumn
  obtain ⟨hdiv, hmod⟩ := offset_div_mod hcolumn row
  rw [Array.getElem?_eq_getElem hposition]
  simp only [dense, Array.getElem_ofFn, hdiv, hmod]

end Panel

end PanelGemm
