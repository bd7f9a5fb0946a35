import PanelGemm.Proofs.Panel.Packing

/-!
# Some rows of an operand

Rows of an operand can be packed on their own. If the first of them starts a K-block of the whole
panel and the last one ends one, the K-blocks of the part are those of the whole panel
(`PanelShape.IsPart.blockDepth_add`), the short last one included, and they hold the same elements
(`Panel.IsPart`). The starts of the K-blocks of two parts, one below the other, are together those
of the whole panel (`PanelShape.blockStarts_append`).
-/

set_option autoImplicit false
set_option relaxedAutoImplicit false

namespace PanelGemm

/-! ### K-blocks -/

/-- Full blocks before the others are counted one by one. -/
theorem blockCount_mul_add (blocks total : Nat) {size : Nat} (positive : 0 < size) :
    blockCount (blocks * size + total) size = blocks + blockCount total size := by
  unfold blockCount
  rw [Nat.add_assoc, Nat.add_sub_assoc (by omega), Nat.mul_comm, Nat.mul_add_div positive]

theorem blockCount_mul (blocks : Nat) {size : Nat} (positive : 0 < size) :
    blockCount (blocks * size) size = blocks := by
  have hnone : blockCount 0 size = 0 := Nat.div_eq_of_lt (by omega)
  have hblocks := blockCount_mul_add blocks 0 positive
  rw [hnone] at hblocks
  exact hblocks

namespace PanelShape

variable {part upper lower whole : PanelShape} {first start : Nat}

/-- A shape that has the rows of another one from a given row on, up to the end of a K-block. -/
structure IsPart (part whole : PanelShape) (first : Nat) : Prop where
  level : part.level = whole.level
  columns : part.columns = whole.columns
  blockRows : part.blockRows = whole.blockRows
  rows_le : first + part.rows ≤ whole.rows
  aligned : whole.blockRows ∣ part.rows ∨ first + part.rows = whole.rows

/-- The K-blocks of a part are as high as they are in the whole. -/
theorem IsPart.blockDepth_add (h : part.IsPart whole first) (hstart : start ∈ part.blockStarts) :
    whole.blockDepth (first + start) = part.blockDepth start := by
  have hrows := h.rows_le
  unfold blockDepth
  rw [h.blockRows]
  rcases h.aligned with hfull | hlast
  -- all the blocks of a part that ends with a block are full, and they are full in the whole
  · obtain ⟨hdvd, hlt⟩ := part.mem_blockStarts.mp hstart
    rw [h.blockRows] at hdvd
    have hrest := Nat.le_of_dvd (Nat.sub_pos_of_lt hlt) (Nat.dvd_sub hfull hdvd)
    omega
  -- a part that ends with the whole has the same rows left from any row on
  · omega

theorem IsPart.width_eq (h : part.IsPart whole first) : part.width = whole.width :=
  congrArg Level.blockWidth h.level

theorem IsPart.columnBlocks_eq (h : part.IsPart whole first) :
    part.columnBlocks = whole.columnBlocks := by
  rw [columnBlocks, columnBlocks, h.columns, h.width_eq]

/-- The K-blocks of two parts, one below the other, are those of the whole. -/
theorem blockStarts_append (hupper : upper.IsPart whole 0) (hlower : lower.IsPart whole upper.rows)
    (haligned : whole.blockRows ∣ upper.rows) (hrows : upper.rows + lower.rows = whole.rows) :
    whole.blockStarts = upper.blockStarts ++ lower.blockStarts.map (upper.rows + ·) := by
  obtain ⟨blocks, hblocks⟩ := haligned
  rw [Nat.mul_comm] at hblocks
  have hpos := whole.blockRows_pos
  have hcount : upper.rowBlocks = blocks := by
    rw [rowBlocks, hupper.blockRows, hblocks, blockCount_mul blocks hpos]
  have hwhole : whole.rowBlocks = blocks + lower.rowBlocks := by
    rw [rowBlocks, rowBlocks, hlower.blockRows, ← hrows, hblocks, blockCount_mul_add _ _ hpos]
  rw [blockStarts, blockStarts, blockStarts, hwhole, hcount, hupper.blockRows, hlower.blockRows,
    List.range_add, List.map_append, List.map_map, List.map_map, hblocks]
  congr 1
  refine List.map_congr_left fun block _ ↦ ?_
  exact Nat.add_mul blocks block whole.blockRows

end PanelShape

/-! ### The elements of a part -/

namespace Packing

variable {level : Level} {part source whole : Source} {first rows blockRows : Nat}

/-- The element of a source at a row and a column. -/
def Source.get? (source : Source) (row column : Nat) : Option Single :=
  source.data[source.orientation.offset source.stride row column]?

/-- A source that has the rows of another one from a given row on. -/
structure Source.HoldsRows (part whole : Source) (first : Nat) : Prop where
  columns : part.columns = whole.columns
  alpha : part.alpha = whole.alpha
  rows_le : first + part.rows ≤ whole.rows
  element : ∀ row < part.rows, ∀ column < part.columns,
    part.get? row column = whole.get? (first + row) column

theorem Source.HoldsRows.stored_eq (h : part.HoldsRows whole first) {row : Nat}
    (hrow : row < part.rows) (column : Nat) :
    part.stored (row, column) = whole.stored (first + row, column) := by
  unfold Source.stored
  by_cases hcolumn : column < part.columns
  · have helement := h.element row hrow column hcolumn
    unfold Source.get? at helement
    rw [if_pos hcolumn, if_pos (h.columns ▸ hcolumn), h.alpha, Array.getD_eq_getD_getElem?,
      Array.getD_eq_getD_getElem?, helement]
  · rw [if_neg hcolumn, if_neg (h.columns ▸ hcolumn)]

/-- Two sources that have the rows of another one between them, cut where a K-block ends. -/
structure Source.IsCut (whole upper lower : Source) (blockRows : Nat) : Prop where
  upper_holds : upper.HoldsRows whole 0
  lower_holds : lower.HoldsRows whole upper.rows
  rows : upper.rows + lower.rows = whole.rows
  aligned : blockRows ∣ upper.rows
  upper_pos : 0 < upper.rows
  lower_pos : 0 < lower.rows

/-- The rows of a source from a given row on, in the storage of the source. -/
def Source.rowsFrom (source : Source) (first rows : Nat) : Source :=
  { source with
    data := source.data.extract (source.orientation.offset source.stride first 0)
    rows := rows }

theorem Source.holdsRows_rowsFrom (h : first + rows ≤ source.rows) :
    (source.rowsFrom first rows).HoldsRows source first where
  columns := rfl
  alpha := rfl
  rows_le := h
  element := by
    intro row _ column _
    unfold get? rowsFrom
    rw [getElem?_extract_from, Orientation.offset_row_add]

theorem Source.size_rowsFrom_le (source : Source) (level : Level)
    (hrows : first + rows ≤ source.rows) :
    (source.rowsFrom first rows).size level ≤ source.size level :=
  Nat.mul_le_mul_right _ (Nat.le_trans (Nat.le_add_left rows first) hrows)

theorem Source.Fits.rowsFrom (h : source.Fits blockRows) (hrows : first + rows ≤ source.rows) :
    (source.rowsFrom first rows).Fits blockRows := by
  refine ⟨h.1, ?_⟩
  have hpart := Orientation.holds_rows_from h.2 hrows
  simpa only [Source.rowsFrom, Array.size_extract, Nat.min_self] using hpart

/-- What can be counted of a source that fits can be counted of some of its rows. -/
theorem Source.Countable.rowsFrom (h : source.Countable level blockRows)
    (hfits : source.Fits blockRows) (hrows : first + rows ≤ source.rows) :
    (source.rowsFrom first rows).Countable level blockRows where
  operand := by
    have hpart := Orientation.holds_rows_from (hfits.2.limit h.operand) hrows
    have hlimit := Word.limit_pos
    exact hpart.countable (by omega)
  columnBlock := by
    have hheight : min blockRows rows ≤ min blockRows source.rows := by omega
    exact Nat.lt_of_le_of_lt (Nat.mul_le_mul_right _ hheight) h.columnBlock
  storage := Nat.lt_of_le_of_lt (source.size_rowsFrom_le level hrows) h.storage

theorem Source.HasRoom.rowsFrom (h : source.HasRoom level) (hrows : first + rows ≤ source.rows) :
    (source.rowsFrom first rows).HasRoom level :=
  Nat.lt_of_le_of_lt (Nat.mul_le_mul_right _ (source.size_rowsFrom_le level hrows)) h

/-- A source is cut into its rows above a multiple of the block height and the others. -/
theorem Source.isCut_rowsFrom (haligned : blockRows ∣ first) (hpos : 0 < first)
    (hlt : first < source.rows) :
    source.IsCut (source.rowsFrom 0 first) (source.rowsFrom first (source.rows - first))
      blockRows where
  upper_holds := holdsRows_rowsFrom (by omega)
  lower_holds := holdsRows_rowsFrom (by omega)
  rows := Nat.add_sub_of_le (Nat.le_of_lt hlt)
  aligned := haligned
  upper_pos := hpos
  lower_pos := Nat.sub_pos_of_lt hlt

end Packing

namespace Panel

variable {part whole : Panel} {level : Level} {blockRows first : Nat}

/-- Rows of a source that is packed can be packed on their own. -/
theorem pack_rowsFrom {arithmetic : Arithmetic} {source : Packing.Source} {rows : Nat}
    (hexact : source.CountsExactly arithmetic level blockRows)
    (h : pack arithmetic level source blockRows = .ok whole) (hrows : first + rows ≤ source.rows) :
    ∃ part, pack arithmetic level (source.rowsFrom first rows) blockRows = .ok part := by
  obtain ⟨hfits, hcount, hroom, -⟩ := (pack_eq_ok hexact).mp h
  obtain ⟨part, hpart, -⟩ := pack_of_fits (hfits.rowsFrom hrows) arithmetic
    (hcount.rowsFrom hfits hrows) (hroom.rowsFrom hrows)
  exact ⟨part, hpart⟩

/-- A panel that has the elements of another one from a given row on. -/
structure IsPart (part whole : Panel) (first : Nat) : Prop where
  shape : part.shape.IsPart whole.shape first
  entry : ∀ row < part.rows, ∀ column < part.columns,
    part.entry row column = whole.entry (first + row) column

open Packing in
/-- The panel of some rows of a source has the elements of these rows. -/
theorem IsPacked.isPart {source source' : Source} (hpart : part.IsPacked level source' blockRows)
    (hwhole : whole.IsPacked level source blockRows) (hrows : source'.HoldsRows source first)
    (haligned : blockRows ∣ source'.rows ∨ first + source'.rows = source.rows) :
    part.IsPart whole first := by
  have hshape : part.shape.IsPart whole.shape first := by
    constructor
    · rw [hpart.level, hwhole.level]
    · rw [hpart.columns, hwhole.columns, hrows.columns]
    · rw [hpart.blockRows, hwhole.blockRows]
    · rw [hpart.rows, hwhole.rows]
      exact hrows.rows_le
    · rw [hpart.rows, hwhole.rows, hwhole.blockRows]
      exact haligned
  refine ⟨hshape, fun row hrow column hcolumn ↦ ?_⟩
  have hrow' : row < source'.rows := hpart.rows ▸ hrow
  have hcolumn' : column < source'.columns := hpart.columns ▸ hcolumn
  have hlt : first + row < source.rows :=
    Nat.lt_of_lt_of_le (Nat.add_lt_add_left hrow' first) hrows.rows_le
  rw [hpart.entry_eq hrow' hcolumn', hwhole.entry_eq hlt (hrows.columns ▸ hcolumn'),
    hrows.stored_eq hrow']

end Panel

end PanelGemm
