import Mathlib.Data.Set.Function
import Mathlib.Order.Interval.Set.Defs
import PanelGemm.Proofs.Panel.Blocks

/-!
# The layout of a panel

A panel is written K-block by K-block, which puts its positions in one order
(`PanelShape.storageOrder`), and read by `PanelShape.index`. The indices of the positions in that
order are the natural numbers in order (`map_place_storageOrder`): they are consecutive in a row of
a column block, and so are the rows of a column block, the column blocks of a K-block and the
K-blocks. The writer and the reader therefore agree on every position (`getElem?_storageOrder`), and
the index is a bijection from the positions of the padded operand to the places of its storage
(`bijOn_place`). The elements of a whole panel are read from these places (`Panel.Whole.read_eq`,
`Panel.Whole.unpack_eq`).
-/

set_option autoImplicit false
set_option relaxedAutoImplicit false

namespace PanelGemm

/-- Pieces of one length that follow one another make a longer piece. -/
theorem flatMap_range_eq_range' {part : Nat → List Nat} {first length : Nat} (count : Nat)
    (h : ∀ i < count, part i = List.range' (first + i * length) length) :
    (List.range count).flatMap part = List.range' first (count * length) := by
  induction count with
  | zero => simp
  | succ count ih =>
    have hlast := h count (Nat.lt_succ_self count)
    have hrest := ih fun i hi ↦ h i (Nat.lt_succ_of_lt hi)
    rw [List.range_succ, List.flatMap_append, hrest, List.flatMap_singleton, hlast,
      List.range'_append_1, Nat.succ_mul]

namespace PanelShape

variable {shape : PanelShape} {start : Nat}

/-- The positions of the padded operand. -/
def positions (shape : PanelShape) : Set (Nat × Nat) :=
  {position | position.1 < shape.rows ∧ position.2 < shape.paddedColumns}

/-- Where a position is stored. -/
def place (shape : PanelShape) (position : Nat × Nat) : Nat := shape.index position.1 position.2

/-- The positions of the K-block that starts at a given row. -/
def rowBlockOrder (shape : PanelShape) (start : Nat) : List (Nat × Nat) :=
  (List.range shape.columnBlocks).flatMap (shape.columnBlockOrder start (shape.blockDepth start))

/-- The positions of the padded operand in the order in which they are stored. -/
def storageOrder (shape : PanelShape) : List (Nat × Nat) :=
  shape.blockStarts.flatMap shape.rowBlockOrder

/-! ### The order of the places -/

/-- The places of a column block follow one another. -/
theorem map_place_columnBlockOrder (hstart : start ∈ shape.blockStarts) (block : Nat) :
    (shape.columnBlockOrder start (shape.blockDepth start) block).map shape.place =
      List.range' (start * shape.paddedColumns + block * (shape.blockDepth start * shape.width))
        (shape.blockDepth start * shape.width) := by
  rw [columnBlockOrder, List.map_flatMap]
  apply flatMap_range_eq_range'
  intro p hp
  rw [List.map_map, List.range'_eq_map_range]
  apply List.map_congr_left
  intro j hj
  have hindex := index_add hstart hp (List.mem_range.mp hj) block
  rw [Nat.add_mul, Nat.mul_assoc] at hindex
  simp only [Function.comp_apply, place]
  omega

/-- The places of a K-block follow one another. -/
theorem map_place_rowBlockOrder (hstart : start ∈ shape.blockStarts) :
    (shape.rowBlockOrder start).map shape.place =
      List.range' (start * shape.paddedColumns)
        (shape.blockDepth start * shape.paddedColumns) := by
  have hlength : shape.blockDepth start * shape.paddedColumns =
      shape.columnBlocks * (shape.blockDepth start * shape.width) := Nat.mul_left_comm _ _ _
  rw [rowBlockOrder, List.map_flatMap, hlength]
  exact flatMap_range_eq_range' _ fun block _ ↦ map_place_columnBlockOrder hstart block

/-- The places of the first K-blocks follow one another. -/
theorem map_place_flatMap_rowBlockOrder {blocks : Nat} (hblocks : blocks ≤ shape.rowBlocks) :
    (((List.range blocks).map fun block ↦ block * shape.blockRows).flatMap
      shape.rowBlockOrder).map shape.place =
      List.range (min shape.rows (blocks * shape.blockRows) * shape.paddedColumns) := by
  -- the K-blocks before the last of these end at a multiple of the block height; the last may be
  -- the short one, hence the minimum
  induction blocks with
  | zero => simp
  | succ blocks ih =>
    have hlt := shape.rowBlocks_mul_lt hblocks
    have hstart : blocks * shape.blockRows ∈ shape.blockStarts :=
      shape.mem_blockStarts.mpr ⟨Nat.dvd_mul_left _ _, hlt⟩
    have hdepth := shape.add_blockDepth hblocks
    rw [List.range_succ, List.map_append, List.flatMap_append, List.map_append,
      ih (Nat.le_of_succ_le hblocks), List.map_singleton, List.flatMap_singleton,
      map_place_rowBlockOrder hstart, Nat.min_eq_right (Nat.le_of_lt hlt),
      Nat.min_comm shape.rows, ← hdepth, Nat.add_mul,
      List.range_eq_range', List.range_eq_range', ← List.range'_append_1, Nat.zero_add]

/-- The places of the positions in storage order are the places of the storage in order. -/
theorem map_place_storageOrder (shape : PanelShape) :
    shape.storageOrder.map shape.place = List.range shape.size := by
  rw [storageOrder, blockStarts, map_place_flatMap_rowBlockOrder (Nat.le_refl _), size,
    Nat.min_eq_left shape.rows_le_rowBlocks_mul]

theorem length_storageOrder (shape : PanelShape) : shape.storageOrder.length = shape.size := by
  rw [← List.length_map, map_place_storageOrder, List.length_range]

/-! ### The positions -/

/-- The storage order lists every position of the padded operand. -/
theorem mem_storageOrder {position : Nat × Nat} :
    position ∈ shape.storageOrder ↔ position ∈ shape.positions := by
  obtain ⟨row, column⟩ := position
  constructor
  · intro h
    obtain ⟨start, hstart, h⟩ := List.mem_flatMap.mp h
    obtain ⟨block, hblock, h⟩ := List.mem_flatMap.mp h
    obtain ⟨p, hp, h⟩ := List.mem_flatMap.mp h
    obtain ⟨j, hj, hposition⟩ := List.mem_map.mp h
    cases hposition
    have hrow := blockDepth_le_rows hstart
    have hdepth := List.mem_range.mp hp
    have hcolumn := offset_lt (List.mem_range.mp hblock) (List.mem_range.mp hj)
    exact ⟨Nat.lt_of_lt_of_le (Nat.add_lt_add_left hdepth start) hrow, hcolumn⟩
  · rintro ⟨hrow, hcolumn⟩
    have hwidth := shape.width_pos
    have hmod := Nat.mod_lt row shape.blockRows_pos
    have hdiv := Nat.div_add_mod row shape.blockRows
    have hblock : column / shape.width < shape.columnBlocks :=
      Nat.div_lt_of_lt_mul (Nat.mul_comm shape.width _ ▸ hcolumn)
    refine List.mem_flatMap.mpr ⟨shape.blockRows * (row / shape.blockRows), ?_, ?_⟩
    · exact shape.mem_blockStarts.mpr ⟨Nat.dvd_mul_right _ _, by omega⟩
    · refine List.mem_flatMap.mpr ⟨column / shape.width, List.mem_range.mpr hblock, ?_⟩
      refine List.mem_flatMap.mpr ⟨row % shape.blockRows, List.mem_range.mpr ?_, ?_⟩
      · unfold blockDepth
        omega
      · refine List.mem_map.mpr ⟨column % shape.width, List.mem_range.mpr (Nat.mod_lt _ hwidth), ?_⟩
        rw [hdiv, Nat.mul_comm, Nat.div_add_mod]

/-- The writer comes to a position at the place where the reader looks for it. -/
theorem getElem?_storageOrder {position : Nat × Nat} (h : position ∈ shape.positions) :
    shape.storageOrder[shape.place position]? = some position := by
  obtain ⟨i, hi⟩ := List.mem_iff_getElem?.mp (mem_storageOrder.mpr h)
  have hplace : (List.range shape.size)[i]? = some (shape.place position) := by
    rw [← map_place_storageOrder, List.getElem?_map, hi, Option.map_some]
  obtain ⟨hlt, hsame⟩ := List.getElem?_eq_some_iff.mp hplace
  rw [List.getElem_range] at hsame
  rw [← hsame]
  exact hi

theorem place_lt_size {position : Nat × Nat} (h : position ∈ shape.positions) :
    shape.place position < shape.size := by
  rw [← List.mem_range, ← map_place_storageOrder]
  exact List.mem_map_of_mem (mem_storageOrder.mpr h)

/-- Every position has a place of its own, and every place belongs to a position. -/
theorem bijOn_place (shape : PanelShape) :
    Set.BijOn shape.place shape.positions (Set.Iio shape.size) := by
  refine ⟨fun position h ↦ place_lt_size h, fun first hfirst second hsecond hsame ↦ ?_,
    fun i hi ↦ ?_⟩
  · have hat := getElem?_storageOrder hfirst
    rw [hsame, getElem?_storageOrder hsecond] at hat
    exact (Option.some.inj hat).symm
  · rw [Set.mem_Iio, ← List.mem_range, ← map_place_storageOrder] at hi
    obtain ⟨position, hposition, hplace⟩ := List.mem_map.mp hi
    exact ⟨position, mem_storageOrder.mp hposition, hplace⟩

end PanelShape

namespace Panel

variable {panel : Panel}

/-- The element of a whole panel is read from its place. -/
theorem Whole.readElement_eq (h : panel.Whole) (arithmetic : Arithmetic) {row column : Nat}
    (hrow : row < panel.rows) (hcolumn : column < panel.shape.paddedColumns) :
    panel.readElement arithmetic row column = .ok (panel.entry row column) := by
  have hposition : (row, column) ∈ panel.shape.positions := ⟨hrow, hcolumn⟩
  have hplace : panel.shape.index row column < panel.shape.size :=
    PanelShape.place_lt_size hposition
  have hdata := Array.getElem?_eq_getElem (h.size_data ▸ hplace : _ < panel.data.size)
  have hentry : panel.entry row column = panel.data[panel.shape.index row column]?.getD .zero := by
    rw [entry, get?, if_pos ⟨hrow, hcolumn⟩]
  rw [readElement, Arithmetic.word_of_lt (h.paddedColumns_lt (Nat.zero_lt_of_lt hrow)),
    Arithmetic.word_of_lt (Nat.lt_trans hplace h.size_lt), hentry]
  change orPanic panel.data[panel.shape.index row column]? = _
  rw [hdata]
  rfl

/-- Reading an element of a whole panel does not panic. -/
theorem Whole.read_eq (h : panel.Whole) (arithmetic : Arithmetic) (row column : Nat) :
    panel.read arithmetic row column = .ok (panel.get? row column) := by
  unfold read
  by_cases hrow : row < panel.rows
  · rw [if_neg (Nat.not_le_of_lt hrow),
      Arithmetic.word_of_lt (h.paddedColumns_lt (Nat.zero_lt_of_lt hrow))]
    change (if panel.shape.paddedColumns ≤ column then _ else _) = _
    by_cases hcolumn : column < panel.shape.paddedColumns
    · have hposition : (row, column) ∈ panel.shape.positions := ⟨hrow, hcolumn⟩
      have hplace : panel.shape.index row column < panel.data.size :=
        h.size_data ▸ PanelShape.place_lt_size hposition
      rw [if_neg (Nat.not_le_of_lt hcolumn), h.readElement_eq arithmetic hrow hcolumn, entry, get?,
        if_pos ⟨hrow, hcolumn⟩, Array.getElem?_eq_getElem hplace]
      rfl
    · rw [if_pos (Nat.le_of_not_lt hcolumn), get?, if_neg fun hin ↦ hcolumn hin.2]
      rfl
  · rw [if_pos (Nat.le_of_not_lt hrow), get?, if_neg fun hin ↦ hrow hin.1]
    rfl

/-- A whole panel has room for the operand. -/
theorem Whole.dense_addressable (h : panel.Whole) : Addressable panel.dense := by
  have hle : panel.dense.size ≤ panel.data.size := by
    rw [size_dense, h.size_data]
    exact Nat.mul_le_mul_left _ panel.shape.columns_le_paddedColumns
  exact Nat.lt_of_le_of_lt (Nat.mul_le_mul_right _ hle) h.addressable

/-- The operand is read back from a whole panel in dense order. -/
theorem Whole.unpack_eq (h : panel.Whole) (arithmetic : Arithmetic) :
    panel.unpack arithmetic = .ok panel.dense := by
  have hroom : panel.rows * panel.columns * Capacity.singleBytes < Word.signedLimit :=
    panel.size_dense ▸ h.dense_addressable
  have hread : ∀ position ∈ List.range (panel.rows * panel.columns),
      panel.readElement arithmetic (position / panel.columns) (position % panel.columns) =
        .ok (panel.entry (position / panel.columns) (position % panel.columns)) := by
    intro position hposition
    have hlt := List.mem_range.mp hposition
    have hcolumns : 0 < panel.columns := Nat.pos_of_mul_pos_left (Nat.zero_lt_of_lt hlt)
    refine h.readElement_eq arithmetic (Nat.div_lt_of_lt_mul (by rwa [Nat.mul_comm])) ?_
    exact Nat.lt_of_lt_of_le (Nat.mod_lt _ hcolumns) panel.shape.columns_le_paddedColumns
  rw [unpack, Capacity.reserve_eq_ok.mpr hroom, mapM_eq_ok hread]
  refine congrArg Except.ok (Array.ext ?_ fun position hposition _ ↦ ?_)
  · simp [size_dense]
  · simp [dense]

end Panel

end PanelGemm
