import Mathlib.Algebra.BigOperators.Ring.List
import PanelGemm.Panel.Packing
import PanelGemm.Proofs.Binary.Unit
import PanelGemm.Proofs.Failure
import PanelGemm.Proofs.Matrix.Storage
import PanelGemm.Proofs.Panel.Layout

/-!
# What packing makes of a source

Packing counts what the source has to hold, the elements of a column block and those of the whole
storage. As long as words count them (`Source.Countable`), packing refuses a source that does not
hold the operand, panics if the storage is too long for a buffer, and otherwise makes the panel that
holds the scaled elements in storage order (`Panel.IsPacked`); with checked arithmetic it panics if
a word does not count them. What it makes is a lossless layout of the operand (`Panel.LaysOut`):
every position has a place of its own, the padding is zero, and the dense operand that is read back
packs to the same storage again. `Panel.pack_lossless` is all of this.

With wrapping arithmetic a word may count less than is to be packed. A panel holds all elements of
its shape nevertheless if a word counts these (`Panel.whole_of_pack`).
-/

set_option autoImplicit false
set_option relaxedAutoImplicit false

namespace PanelGemm

namespace Packing

variable {arithmetic : Arithmetic} {level : Level} {source : Source} {blockRows : Nat}

/-- What packing requires: a positive block height, and a source that holds the operand. -/
def Source.Fits (source : Source) (blockRows : Nat) : Prop :=
  0 < blockRows ∧ Storage.Holds source.data.size
    (source.orientation.storedRows source.rows source.columns)
    (source.orientation.storedColumns source.rows source.columns) source.stride

/-- Whether a word counts what the source has to hold. -/
def Source.OperandCountable (source : Source) : Prop :=
  Storage.Countable (source.orientation.storedRows source.rows source.columns)
    (source.orientation.storedColumns source.rows source.columns) source.stride

/-- The number of elements that are stored for a source. -/
def Source.size (source : Source) (level : Level) : Nat :=
  source.rows * (blockCount source.columns level.blockWidth * level.blockWidth)

/-- Words count what the source has to hold, the elements of a column block, and those that are
stored. -/
structure Source.Countable (source : Source) (level : Level) (blockRows : Nat) : Prop where
  operand : source.OperandCountable
  columnBlock : min blockRows source.rows * level.blockWidth < Word.limit
  storage : source.size level < Word.limit

/-- What packing counts is counted as it is, or a source that cannot be counted is a panic. -/
def Source.CountsExactly (source : Source) (arithmetic : Arithmetic) (level : Level)
    (blockRows : Nat) : Prop :=
  arithmetic = .checked ∨ source.Countable level blockRows

/-- A buffer may be as long as what is stored for the source. -/
def Source.HasRoom (source : Source) (level : Level) : Prop :=
  source.size level * Capacity.singleBytes < Word.signedLimit

/-- What is stored at a position of the padded operand. -/
def Source.stored (source : Source) (position : Nat × Nat) : Single :=
  if position.2 < source.columns then
    source.alpha.mul
      (source.data.getD (source.orientation.offset source.stride position.1 position.2) .zero)
  else .zero

/-- Every element of the operand is found in a source that fits. -/
theorem Source.Fits.getElem?_data (h : source.Fits blockRows) {row column : Nat}
    (hrow : row < source.rows) (hcolumn : column < source.columns) :
    source.data[source.orientation.offset source.stride row column]? =
      some (source.data.getD (source.orientation.offset source.stride row column) .zero) := by
  have hoffset := source.orientation.offset_lt_size h.2 hrow hcolumn
  simp [hoffset]

/-- A word counts the elements up to any one of an operand that fits and can be counted. -/
theorem Source.Fits.offset_lt_limit (h : source.Fits blockRows) (hcount : source.OperandCountable)
    {row column : Nat} (hrow : row < source.rows) (hcolumn : column < source.columns) :
    source.orientation.offset source.stride row column < Word.limit := by
  have hoffset := source.orientation.offset_lt_size (h.2.limit hcount) hrow hcolumn
  omega

/-- An element is located where the operand has it. -/
theorem Source.locate_eq {row column : Nat} (width : Nat)
    (h : source.orientation.offset source.stride row column < Word.limit) :
    source.locate arithmetic width row column =
      .ok (source.orientation.offset source.stride row column) := by
  have hpiece := Nat.div_mul_le_self column width
  unfold Source.locate
  generalize source.orientation = orientation at h ⊢
  cases orientation with
  | plain =>
    change row * source.stride + column < Word.limit at h
    refine map_eq_ok.mpr ⟨_, Arithmetic.word_of_lt (by omega), ?_⟩
    change row * source.stride + column / width * width + column % width =
      row * source.stride + column
    rw [Nat.add_assoc, Nat.div_add_mod']
  | transposed => exact Arithmetic.word_of_lt h

/-- The element of a position is found where the operand has it. -/
theorem Source.Fits.element_eq (h : source.Fits blockRows) (hcount : source.OperandCountable)
    (width : Nat) {position : Nat × Nat} (hrow : position.1 < source.rows) :
    source.element arithmetic width position = .ok (source.stored position) := by
  unfold Source.element Source.stored
  split_ifs with hcolumn
  · rw [Source.locate_eq width (h.offset_lt_limit hcount hrow hcolumn)]
    change (source.alpha.mul <$> orPanic source.data[_]?) = _
    rw [h.getElem?_data hrow hcolumn]
    rfl
  · rfl

section Blocks

variable {shape : PanelShape} {size start : Nat}

/-- A K-block ends where the storage does at the latest. -/
theorem block_le_size (hstart : start ∈ shape.blockStarts) :
    start * shape.paddedColumns ≤ (start + shape.blockDepth start) * shape.paddedColumns ∧
      (start + shape.blockDepth start) * shape.paddedColumns ≤ shape.size :=
  ⟨Nat.mul_le_mul_right _ (Nat.le_add_right _ _),
    Nat.mul_le_mul_right _ (PanelShape.blockDepth_le_rows hstart)⟩

theorem size_rowBlock (shape : PanelShape) (start : Nat) :
    (start + shape.blockDepth start) * shape.paddedColumns - start * shape.paddedColumns =
      shape.columnBlocks * (shape.blockDepth start * shape.width) := by
  rw [Nat.add_mul, Nat.add_sub_cancel_left, PanelShape.paddedColumns, Nat.mul_left_comm]

/-- The K-blocks of a source that fits hold what is stored at their positions. -/
theorem Source.Fits.packBlock_eq (h : source.Fits blockRows) (hcount : source.OperandCountable)
    (hrows : shape.rows = source.rows) (hstart : start ∈ shape.blockStarts)
    (hsize : shape.size < Word.limit)
    (hcolumnBlock : shape.blockDepth start * shape.width < Word.limit) :
    source.packBlock arithmetic shape shape.size start =
      .ok ((shape.rowBlockOrder start).map source.stored) := by
  obtain ⟨hle, hstop⟩ := block_le_size hstart
  have hpositive : 0 < shape.blockDepth start * shape.width :=
    Nat.mul_pos (PanelShape.blockDepth_pos hstart) shape.width_pos
  have hblocks := size_rowBlock shape start
  have hread : ∀ position ∈ shape.rowBlockOrder start,
      source.element arithmetic shape.width position = .ok (source.stored position) := by
    intro position hposition
    have hrow := (PanelShape.mem_storageOrder.mp
      (List.mem_flatMap.mpr ⟨start, hstart, hposition⟩)).1
    exact h.element_eq hcount shape.width (hrows ▸ hrow)
  rw [Source.packBlock]
  refine bind_eq_ok.mpr ⟨_, Arithmetic.word_of_lt (by omega), ?_⟩
  refine bind_eq_ok.mpr ⟨_, Arithmetic.word_of_lt (by omega), ?_⟩
  refine bind_eq_ok.mpr ⟨(), if_pos ⟨hle, hstop⟩, ?_⟩
  refine bind_eq_ok.mpr ⟨_, Arithmetic.word_of_lt hcolumnBlock, ?_⟩
  refine bind_eq_ok.mpr ⟨(), if_pos (Nat.pos_iff_ne_zero.mp hpositive), ?_⟩
  rw [hblocks, Nat.mul_div_cancel _ hpositive, Nat.mul_div_cancel _ shape.width_pos,
    Nat.mul_mod_left]
  refine bind_eq_ok.mpr ⟨_, mapM_eq_ok hread, ?_⟩
  rw [List.replicate_zero, List.append_nil]
  rfl

theorem length_columnBlockOrder (shape : PanelShape) (start depth block : Nat) :
    (shape.columnBlockOrder start depth block).length = depth * shape.width := by
  simp [PanelShape.columnBlockOrder, List.length_flatMap]

/-- A K-block that is packed has all of its elements if a word counts the storage. -/
theorem length_packBlock (hstart : start ∈ shape.blockStarts) (hsize : shape.size < Word.limit)
    {elements : List Single} (h : source.packBlock arithmetic shape size start = .ok elements) :
    elements.length = shape.blockDepth start * shape.paddedColumns := by
  obtain ⟨hle, hstop⟩ := block_le_size hstart
  have hblocks := size_rowBlock shape start
  rw [Source.packBlock, Arithmetic.word_of_lt (by omega)] at h
  obtain ⟨_, hword, h⟩ := bind_eq_ok.mp h
  cases hword
  rw [Arithmetic.word_of_lt (by omega)] at h
  obtain ⟨_, hword, h⟩ := bind_eq_ok.mp h
  cases hword
  obtain ⟨-, -, h⟩ := bind_eq_ok.mp h
  obtain ⟨columnBlock, hcolumnBlock, h⟩ := bind_eq_ok.mp h
  obtain ⟨-, hnonzero, h⟩ := bind_eq_ok.mp h
  obtain ⟨values, hvalues, h⟩ := bind_eq_ok.mp h
  cases h
  have hlength := length_of_mapM hvalues
  rw [hblocks, List.length_flatMap] at hlength
  simp only [length_columnBlockOrder, List.map_const', List.length_range,
    List.sum_replicate_nat] at hlength
  have hall : shape.blockDepth start * shape.paddedColumns =
      shape.columnBlocks * (shape.blockDepth start * shape.width) := Nat.mul_left_comm _ _ _
  rw [List.length_append, List.length_replicate, hlength, hblocks, hall]
  -- without column blocks the K-block is empty, and otherwise a word counts a column block
  rcases Nat.eq_zero_or_pos shape.columnBlocks with hnone | hsome
  · simp [hnone]
  · have hone : shape.blockDepth start * shape.width ≤
        shape.columnBlocks * (shape.blockDepth start * shape.width) :=
      Nat.le_mul_of_pos_left _ hsome
    rw [Arithmetic.word_of_lt (by omega)] at hcolumnBlock
    cases hcolumnBlock
    have hpositive : 0 < shape.blockDepth start * shape.width :=
      Nat.mul_pos (PanelShape.blockDepth_pos hstart) shape.width_pos
    rw [Nat.mul_div_cancel _ hpositive, Nat.mul_div_cancel _ shape.width_pos, Nat.mul_mod_left,
      Nat.add_zero]

/-- Checked arithmetic does not pack a K-block the column blocks of which it cannot count. -/
theorem packBlock_panics (hrows : 0 < shape.rows) (hsize : shape.size < Word.limit)
    (hcolumnBlock : Word.limit ≤ shape.blockDepth 0 * shape.width) :
    source.packBlock .checked shape shape.size 0 = .error .panicked := by
  have hstart : 0 ∈ shape.blockStarts := shape.mem_blockStarts.mpr ⟨Nat.dvd_zero _, hrows⟩
  obtain ⟨hle, hstop⟩ := block_le_size hstart
  have hinside : panicUnless (0 * shape.paddedColumns ≤
      (0 + shape.blockDepth 0) * shape.paddedColumns ∧
        (0 + shape.blockDepth 0) * shape.paddedColumns ≤ shape.size) = .ok () := if_pos ⟨hle, hstop⟩
  rw [Source.packBlock, Arithmetic.word_of_lt (by omega), ok_bind,
    Arithmetic.word_of_lt (by omega), ok_bind, hinside, ok_bind,
    Arithmetic.checked_word_of_le hcolumnBlock, error_bind]

end Blocks

end Packing

open Packing

attribute [ext] PanelShape Panel

namespace Panel

variable {arithmetic : Arithmetic} {level : Level} {source : Source} {blockRows : Nat}
  {panel : Panel}

/-- The panel of a source for a level, with K-blocks of a given height. -/
structure IsPacked (panel : Panel) (level : Level) (source : Source) (blockRows : Nat) :
    Prop where
  level : panel.shape.level = level
  rows : panel.shape.rows = source.rows
  columns : panel.shape.columns = source.columns
  blockRows : panel.shape.blockRows = blockRows
  alpha : panel.alpha = source.alpha
  data : panel.data.toList = panel.shape.storageOrder.map source.stored

/-- The shape of a panel depends on the extents of its source alone. -/
theorem IsPacked.shape_eq {other : Panel} {source' : Source}
    (h : panel.IsPacked level source blockRows) (hother : other.IsPacked level source' blockRows)
    (hrows : source.rows = source'.rows) (hcolumns : source.columns = source'.columns) :
    panel.shape = other.shape := by
  ext1
  · rw [h.level, hother.level]
  · rw [h.rows, hother.rows, hrows]
  · rw [h.columns, hother.columns, hcolumns]
  · rw [h.blockRows, hother.blockRows]

/-- There is only one panel of a source. -/
theorem IsPacked.eq {other : Panel} (h : panel.IsPacked level source blockRows)
    (hother : other.IsPacked level source blockRows) : panel = other := by
  have hshape := h.shape_eq hother rfl rfl
  ext1
  · exact hshape
  · rw [h.alpha, hother.alpha]
  · rw [← Array.toList_inj, h.data, hother.data, hshape]

theorem IsPacked.size_data (h : panel.IsPacked level source blockRows) :
    panel.data.size = panel.shape.size := by
  rw [← Array.length_toList, h.data, List.length_map, panel.shape.length_storageOrder]

theorem IsPacked.size_shape (h : panel.IsPacked level source blockRows) :
    panel.shape.size = source.size level := by
  rw [PanelShape.size, PanelShape.paddedColumns, PanelShape.columnBlocks, PanelShape.width,
    h.rows, h.columns, h.level, Source.size]

/-- The panel of a source that a buffer has room for is whole. -/
theorem IsPacked.whole (h : panel.IsPacked level source blockRows) (hroom : source.HasRoom level) :
    panel.Whole := by
  refine ⟨h.size_data, ?_⟩
  rw [Addressable, h.size_data, h.size_shape]
  exact hroom

/-! ### What packing does -/

/-- Without a block height nothing is packed. -/
theorem pack_zero (arithmetic : Arithmetic) (level : Level) (source : Source) :
    pack arithmetic level source 0 = .error (.refused (.shapeMismatch .zeroBlockRows)) :=
  rfl

/-- A source that does not fit is refused, unless what it has to hold cannot be counted. -/
theorem pack_of_not_fits (arithmetic : Arithmetic) (level : Level)
    (hcount : blockRows = 0 ∨ source.OperandCountable) (h : ¬ source.Fits blockRows) :
    ∃ fault, pack arithmetic level source blockRows = .error (.refused (.shapeMismatch fault)) := by
  rcases Nat.eq_zero_or_pos blockRows with rfl | hpositive
  · exact ⟨_, pack_zero arithmetic level source⟩
  · have hcountable := hcount.resolve_left (Nat.pos_iff_ne_zero.mp hpositive)
    have hholds := fun hholds ↦ h ⟨hpositive, hholds⟩
    rw [← Storage.requirements_met, Requirement.check_eq_ok,
      ← Requirement.firstFault_eq_none] at hholds
    obtain ⟨fault, hfault⟩ := Option.ne_none_iff_exists'.mp hholds
    refine ⟨fault, ?_⟩
    rw [pack, dif_pos hpositive, Source.check, Storage.check_eq hcountable, Requirement.check,
      hfault]
    rfl

section Fitting

variable (h : source.Fits blockRows)
include h

theorem check_of_fits (hcount : source.OperandCountable) :
    source.check arithmetic = .ok () :=
  (Storage.check_eq_ok hcount).mpr h.2

/-- A source that fits is packed if its elements can be counted and a buffer has room for them. -/
theorem pack_of_fits (arithmetic : Arithmetic) (hcount : source.Countable level blockRows)
    (hroom : source.HasRoom level) :
    ∃ panel, pack arithmetic level source blockRows = .ok panel ∧
      panel.IsPacked level source blockRows := by
  let shape : PanelShape := ⟨level, source.rows, source.columns, blockRows, h.1⟩
  have hsize : shape.size < Word.limit := hcount.storage
  have hblocks : ∀ start ∈ shape.blockStarts,
      source.packBlock arithmetic shape shape.size start =
        .ok ((shape.rowBlockOrder start).map source.stored) := by
    intro start hstart
    have hdepth : shape.blockDepth start * shape.width ≤
        min blockRows source.rows * level.blockWidth :=
      Nat.mul_le_mul_right _ PanelShape.blockDepth_le_stripDepth
    exact h.packBlock_eq hcount.operand rfl hstart hsize
      (Nat.lt_of_le_of_lt hdepth hcount.columnBlock)
  refine ⟨⟨shape, source.alpha,
    (shape.blockStarts.map fun start ↦
      (shape.rowBlockOrder start).map source.stored).flatten.toArray⟩,
    ?_, rfl, rfl, rfl, rfl, rfl, ?_⟩
  · rw [pack, dif_pos h.1]
    refine bind_eq_ok.mpr ⟨(), check_of_fits h hcount.operand, ?_⟩
    refine bind_eq_ok.mpr ⟨_, Arithmetic.word_of_lt hsize, ?_⟩
    refine bind_eq_ok.mpr ⟨(), Capacity.reserve_eq_ok.mpr hroom, ?_⟩
    exact bind_eq_ok.mpr ⟨_, mapM_eq_ok hblocks, rfl⟩
  · rw [List.toList_toArray, PanelShape.storageOrder, List.map_flatMap]
    rfl

/-- Without room for its elements a source is not packed. -/
theorem pack_without_room (hcount : source.Countable level blockRows)
    (hroom : ¬ source.HasRoom level) :
    pack arithmetic level source blockRows = .error .panicked := by
  have hreserve : Capacity.reserve Capacity.singleBytes (source.size level) =
      .error .panicked := if_neg hroom
  rw [pack, dif_pos h.1, check_of_fits h hcount.operand, ok_bind]
  change (arithmetic.word (source.size level) >>= _) = _
  rw [Arithmetic.word_of_lt hcount.storage, ok_bind, hreserve, error_bind]

end Fitting

/-- Checked arithmetic packs nothing that cannot be counted. -/
theorem pack_uncountable (hpositive : 0 < blockRows)
    (hfits : source.OperandCountable → source.Fits blockRows)
    (hcount : ¬ source.Countable level blockRows) :
    pack .checked level source blockRows = .error .panicked := by
  let shape : PanelShape := ⟨level, source.rows, source.columns, blockRows, hpositive⟩
  rw [pack, dif_pos hpositive]
  change (source.check .checked >>= fun _ ↦ Arithmetic.checked.word shape.size >>= _) = _
  by_cases hoperand : source.OperandCountable
  · rw [check_of_fits (hfits hoperand) hoperand, ok_bind]
    by_cases hsize : shape.size < Word.limit
    · rw [Arithmetic.word_of_lt hsize, ok_bind]
      refine (Capacity.mayPanic_reserve _ _).bind_panics fun _ _ ↦ ?_
      -- the elements of the first column block cannot be counted
      have hcolumnBlock : Word.limit ≤ min blockRows source.rows * level.blockWidth :=
        Nat.le_of_not_lt fun hlt ↦ hcount ⟨hoperand, hlt, hsize⟩
      have hrows : 0 < source.rows := by
        have hmin := Nat.pos_of_mul_pos_right (Nat.lt_of_lt_of_le Word.limit_pos hcolumnBlock)
        omega
      obtain ⟨rest, hrest⟩ := shape.exists_blockStarts_eq_cons hrows
      rw [hrest, List.mapM_cons, packBlock_panics hrows hsize hcolumnBlock]
      rfl
    · rw [Arithmetic.checked_word_of_le (Nat.le_of_not_lt hsize), error_bind]
  · rw [Source.check, Storage.check_uncountable hoperand, error_bind]

/-- A panel that is packed fits, can be counted and has room, provided the arithmetic is checked or
what is packed can be counted anyway. -/
theorem pack_eq_ok (hexact : source.CountsExactly arithmetic level blockRows) :
    pack arithmetic level source blockRows = .ok panel ↔
      source.Fits blockRows ∧ source.Countable level blockRows ∧ source.HasRoom level ∧
        panel.IsPacked level source blockRows := by
  constructor
  · intro h
    have hpositive : 0 < blockRows := by
      rcases Nat.eq_zero_or_pos blockRows with rfl | hpositive
      · exact nomatch h
      · exact hpositive
    have hfits : source.OperandCountable → source.Fits blockRows := by
      intro hoperand
      by_contra hnot
      obtain ⟨fault, hrefused⟩ := pack_of_not_fits arithmetic level (.inr hoperand) hnot
      exact nomatch h.symm.trans hrefused
    have hcount : source.Countable level blockRows := by
      rcases hexact with rfl | hcount
      · by_contra hnot
        exact nomatch h.symm.trans (pack_uncountable hpositive hfits hnot)
      · exact hcount
    have hroom : source.HasRoom level := by
      by_contra hnot
      exact nomatch h.symm.trans (pack_without_room (hfits hcount.operand) hcount hnot)
    obtain ⟨other, hother, hpacked⟩ := pack_of_fits (hfits hcount.operand) arithmetic hcount
      hroom
    cases h.symm.trans hother
    exact ⟨hfits hcount.operand, hcount, hroom, hpacked⟩
  · rintro ⟨hfits, hcount, hroom, hpacked⟩
    obtain ⟨other, hother, hpacked'⟩ := pack_of_fits hfits arithmetic hcount hroom
    rw [hother, hpacked.eq hpacked']

/-- A panel that is packed has the extents of its source. -/
theorem shape_of_pack (h : pack arithmetic level source blockRows = .ok panel) :
    panel.shape.level = level ∧ panel.shape.rows = source.rows ∧
      panel.shape.columns = source.columns ∧ panel.shape.blockRows = blockRows := by
  unfold pack at h
  split_ifs at h with hpositive
  · obtain ⟨-, -, h⟩ := bind_eq_ok.mp h
    obtain ⟨_, -, h⟩ := bind_eq_ok.mp h
    obtain ⟨-, -, h⟩ := bind_eq_ok.mp h
    obtain ⟨_, -, h⟩ := bind_eq_ok.mp h
    cases h
    exact ⟨rfl, rfl, rfl, rfl⟩

theorem size_of_pack (h : pack arithmetic level source blockRows = .ok panel) :
    panel.shape.size = source.size level := by
  obtain ⟨hlevel, hrows, hcolumns, -⟩ := shape_of_pack h
  rw [PanelShape.size, PanelShape.paddedColumns, PanelShape.columnBlocks, PanelShape.width, hlevel,
    hrows, hcolumns, Source.size]

/-- A panel that is packed is whole if a word counts its elements, whether or not one counts what
the source had to hold. -/
theorem whole_of_pack (hexact : arithmetic.Exact (source.size level))
    (h : pack arithmetic level source blockRows = .ok panel) : panel.Whole := by
  unfold pack at h
  split_ifs at h with hpositive
  · obtain ⟨-, -, h⟩ := bind_eq_ok.mp h
    obtain ⟨size, hsize, h⟩ := bind_eq_ok.mp h
    obtain ⟨rfl, hlimit⟩ := hexact.word_eq_ok.mp hsize
    obtain ⟨_, hroom, h⟩ := bind_eq_ok.mp h
    obtain ⟨blocks, hblocks, h⟩ := bind_eq_ok.mp h
    cases h
    let shape : PanelShape := ⟨level, source.rows, source.columns, blockRows, hpositive⟩
    have hlengths : blocks.map List.length =
        shape.blockStarts.map fun start ↦ shape.blockDepth start * shape.paddedColumns :=
      map_of_mapM hblocks fun start hstart elements helements ↦
        length_packBlock hstart hlimit helements
    have hsize : blocks.flatten.toArray.size = shape.size := by
      rw [List.size_toArray, List.length_flatten, hlengths, List.sum_map_mul_right,
        shape.sum_blockDepth, PanelShape.size]
    refine ⟨hsize, ?_⟩
    change blocks.flatten.toArray.size * _ < _
    rw [hsize]
    exact Capacity.reserve_eq_ok.mp hroom

/-! ### The elements of a packed panel -/

namespace IsPacked

variable (h : panel.IsPacked level source blockRows)
include h

/-- A position of the padded operand is read where it was written. -/
theorem get?_eq {row column : Nat} (hposition : (row, column) ∈ panel.shape.positions) :
    panel.get? row column = some (source.stored (row, column)) := by
  have hplace := PanelShape.getElem?_storageOrder hposition
  have hinside : row < panel.rows ∧ column < panel.shape.paddedColumns := hposition
  rw [get?, if_pos hinside, ← Array.getElem?_toList, h.data, List.getElem?_map]
  change Option.map _ panel.shape.storageOrder[panel.shape.place (row, column)]? = _
  rw [hplace, Option.map_some]

/-- The panel has what is stored for its elements. -/
theorem entry_eq {row column : Nat} (hrow : row < source.rows) (hcolumn : column < source.columns) :
    panel.entry row column = source.stored (row, column) := by
  have hpadded : column < panel.shape.paddedColumns :=
    Nat.lt_of_lt_of_le (h.columns ▸ hcolumn) panel.shape.columns_le_paddedColumns
  have hposition : (row, column) ∈ panel.shape.positions := ⟨h.rows ▸ hrow, hpadded⟩
  rw [entry, h.get?_eq hposition, Option.getD_some]

/-- The dense operand holds what is stored for its elements. -/
theorem dense_eq {row column : Nat} (hrow : row < source.rows)
    (hcolumn : column < source.columns) :
    panel.dense[row * source.columns + column]? = some (source.stored (row, column)) := by
  have hrow' : row < panel.shape.rows := h.rows ▸ hrow
  have hcolumn' : column < panel.shape.columns := h.columns ▸ hcolumn
  rw [← h.entry_eq hrow hcolumn, ← h.columns]
  exact getElem?_dense hrow' hcolumn'

end IsPacked

/-- A panel that lays an operand out without a loss: there is a place for every position of the
padded operand and no other, column block by column block in every K-block, and each of them holds
the scaled element or, in the padding, zero. The dense operand that is read back holds the scaled
elements alone. -/
structure LaysOut (arithmetic : Arithmetic) (panel : Panel) (source : Source) : Prop where
  size : panel.data.size =
    source.rows * (blockCount source.columns panel.shape.width * panel.shape.width)
  bijective : Set.BijOn panel.shape.place panel.shape.positions (Set.Iio panel.data.size)
  consecutive : ∀ start ∈ panel.shape.blockStarts, ∀ block, ∀ p < panel.shape.blockDepth start,
    ∀ j < panel.shape.width,
      panel.shape.place (start + p, block * panel.shape.width + j) =
        start * panel.shape.paddedColumns +
          block * (panel.shape.blockDepth start * panel.shape.width) + p * panel.shape.width + j
  element : ∀ row < source.rows, ∀ column < source.columns, ∃ x,
    source.data[source.orientation.offset source.stride row column]? = some x ∧
      panel.read arithmetic row column = .ok (some (source.alpha.mul x)) ∧
      panel.dense[row * source.columns + column]? = some (source.alpha.mul x)
  padding : ∀ row < source.rows, ∀ column, source.columns ≤ column →
    column < blockCount source.columns panel.shape.width * panel.shape.width →
      panel.read arithmetic row column = .ok (some .zero)
  outside : ∀ row column, ¬ (row < source.rows ∧
    column < blockCount source.columns panel.shape.width * panel.shape.width) →
      panel.read arithmetic row column = .ok none
  unpack : panel.unpack arithmetic = .ok panel.dense
  size_dense : panel.dense.size = source.rows * source.columns

/-- The panel of a source that fits lays its operand out. -/
theorem IsPacked.laysOut (h : panel.IsPacked level source blockRows)
    (hfits : source.Fits blockRows) (hroom : source.HasRoom level) :
    panel.LaysOut arithmetic source := by
  have hwhole := h.whole hroom
  have hpadded : panel.shape.paddedColumns =
      blockCount source.columns panel.shape.width * panel.shape.width := by
    rw [← h.columns]
    rfl
  have hrow : ∀ {row : Nat}, row < source.rows ↔ row < panel.shape.rows := by
    intro row
    rw [h.rows]
  refine ⟨?_, ?_, fun start hstart block p hp j hj ↦ ?_, fun row hlt column hcolumn ↦ ?_,
    fun row hlt column hcolumn hlt' ↦ ?_, fun row column houtside ↦ ?_,
    hwhole.unpack_eq arithmetic, ?_⟩
  · rw [hwhole.size_data, PanelShape.size, h.rows, hpadded]
  · rw [hwhole.size_data]
    exact panel.shape.bijOn_place
  · have hindex := PanelShape.index_add hstart hp hj block
    rw [Nat.add_mul, Nat.mul_assoc] at hindex
    simp only [PanelShape.place]
    omega
  · have hstored : source.stored (row, column) = source.alpha.mul
        (source.data.getD (source.orientation.offset source.stride row column) .zero) :=
      if_pos hcolumn
    have hcolumn' : column < panel.shape.paddedColumns :=
      Nat.lt_of_lt_of_le (h.columns ▸ hcolumn) panel.shape.columns_le_paddedColumns
    refine ⟨_, hfits.getElem?_data hlt hcolumn, ?_, ?_⟩
    · rw [hwhole.read_eq, h.get?_eq ⟨hrow.mp hlt, hcolumn'⟩, hstored]
    · rw [h.dense_eq hlt hcolumn, hstored]
  · rw [hwhole.read_eq, h.get?_eq ⟨hrow.mp hlt, hpadded ▸ hlt'⟩]
    exact congrArg (Except.ok ∘ some) (if_neg (Nat.not_lt_of_le hcolumn))
  · rw [hrow, ← hpadded] at houtside
    rw [hwhole.read_eq]
    exact congrArg Except.ok (if_neg houtside)
  · rw [size_dense, Panel.rows, Panel.columns, h.rows, h.columns]

/-! ### Packing what was unpacked -/

/-- The dense operand of a panel as a source. -/
def repacked (panel : Panel) : Source :=
  ⟨panel.dense, .plain, panel.columns, panel.rows, panel.columns, .one⟩

/-- What is stored for the dense operand is what it was unpacked from. -/
theorem IsPacked.stored_repacked (h : panel.IsPacked level source blockRows)
    {position : Nat × Nat} (hrow : position.1 < source.rows) :
    panel.repacked.stored position = source.stored position := by
  have hcolumns : panel.repacked.columns = source.columns := h.columns
  by_cases hcolumn : position.2 < source.columns
  · have hdense := h.dense_eq hrow hcolumn
    have hoffset : panel.repacked.orientation.offset panel.repacked.stride position.1 position.2 =
        position.1 * source.columns + position.2 := by
      rw [← h.columns]
      rfl
    rw [Source.stored, if_pos (hcolumns ▸ hcolumn), hoffset, Array.getD_eq_getD_getElem?]
    change Binary.one.mul (panel.dense[position.1 * source.columns + position.2]?.getD .zero) = _
    rw [hdense, Option.getD_some, Binary.unit_mul]
  · rw [Source.stored, Source.stored, if_neg (hcolumns ▸ hcolumn), if_neg hcolumn]

/-- The dense operand of a panel fits, and it packs to the same storage again. -/
theorem IsPacked.repack (h : panel.IsPacked level source blockRows) (hpositive : 0 < blockRows)
    (hcount : source.Countable level blockRows) (hroom : source.HasRoom level) :
    ∃ again, pack arithmetic level panel.repacked blockRows = .ok again ∧
      again.data = panel.data := by
  have hrows : panel.repacked.rows = source.rows := h.rows
  have hcolumns : panel.repacked.columns = source.columns := h.columns
  have hholds : Storage.Holds panel.dense.size panel.rows panel.columns panel.columns :=
    panel.size_dense ▸ Storage.holds_dense panel.rows panel.columns
  have hfits : panel.repacked.Fits blockRows := ⟨hpositive, hholds⟩
  have hsize : panel.repacked.size level = source.size level := by
    rw [Source.size, hrows, hcolumns, Source.size]
  have hcount' : panel.repacked.Countable level blockRows := by
    refine ⟨hholds.countable (h.whole hroom).dense_addressable.size_lt, ?_, ?_⟩
    · exact hrows ▸ hcount.columnBlock
    · exact hsize ▸ hcount.storage
  have hroom' : panel.repacked.HasRoom level := by
    rw [Source.HasRoom, hsize]
    exact hroom
  obtain ⟨again, hagain, hpacked⟩ := pack_of_fits hfits arithmetic hcount' hroom'
  have hshape := hpacked.shape_eq h h.rows h.columns
  refine ⟨again, hagain, ?_⟩
  rw [← Array.toList_inj, hpacked.data, h.data, hshape]
  refine List.map_congr_left fun position hposition ↦ h.stored_repacked ?_
  exact h.rows ▸ (PanelShape.mem_storageOrder.mp hposition).1

/-- Packing is a lossless layout with zeros for padding. As long as words count the elements, a
source that does not fit is refused, and one that fits is packed if a buffer has room for what is
stored, and is a panic otherwise; with checked arithmetic everything else is a panic. Whatever is
packed lays its operand out, and packing the dense operand again gives the same storage. -/
theorem pack_lossless (arithmetic : Arithmetic) (level : Level) (source : Source)
    (blockRows : Nat) :
    (blockRows = 0 ∨ source.OperandCountable → ¬ source.Fits blockRows →
      ∃ fault, pack arithmetic level source blockRows =
        .error (.refused (.shapeMismatch fault))) ∧
    (source.Fits blockRows → source.Countable level blockRows →
      (source.HasRoom level → ∃ panel, pack arithmetic level source blockRows = .ok panel) ∧
      (¬ source.HasRoom level → pack arithmetic level source blockRows = .error .panicked)) ∧
    (0 < blockRows → (source.OperandCountable → source.Fits blockRows) →
      ¬ source.Countable level blockRows →
        pack .checked level source blockRows = .error .panicked) ∧
    (source.CountsExactly arithmetic level blockRows →
      ∀ panel, pack arithmetic level source blockRows = .ok panel →
        source.Fits blockRows ∧ panel.IsPacked level source blockRows ∧
          panel.LaysOut arithmetic source ∧
          ∃ again, pack arithmetic level panel.repacked blockRows = .ok again ∧
            again.data = panel.data) := by
  refine ⟨pack_of_not_fits arithmetic level,
    fun hfits hcount ↦ ⟨fun hroom ↦ ?_, pack_without_room hfits hcount⟩, pack_uncountable,
    fun hexact panel hpack ↦ ?_⟩
  · obtain ⟨panel, hpack, -⟩ := pack_of_fits hfits arithmetic hcount hroom
    exact ⟨panel, hpack⟩
  · obtain ⟨hfits, hcount, hroom, hpacked⟩ := (pack_eq_ok hexact).mp hpack
    exact ⟨hfits, hpacked, hpacked.laysOut hfits hroom, hpacked.repack hfits.1 hcount hroom⟩

/-- A column of three elements, stored as a row. -/
def columnSource : Source := ⟨#[.ofNat 1, .ofNat 2, .ofNat 3], .transposed, 3, 3, 1, .ofNat 2⟩

theorem columnSource_countable : columnSource.Countable .avx2 2 :=
  ⟨.inr (.inr (.inr (by decide))), by decide, by decide⟩

theorem pack_lossless_column : columnSource.Fits 2 ∧ columnSource.Countable .avx2 2 ∧
    columnSource.HasRoom .avx2 ∧ ∃ panel, pack .wrapping .avx2 columnSource 2 = .ok panel ∧
      panel.LaysOut .wrapping columnSource ∧
      ∃ again, pack .wrapping .avx2 panel.repacked 2 = .ok again ∧ again.data = panel.data := by
  have hfits : columnSource.Fits 2 := ⟨by decide, .inr (.inr (by decide))⟩
  have hroom : columnSource.HasRoom .avx2 := by
    unfold Source.HasRoom
    decide
  obtain ⟨-, hpacks, -, hlossless⟩ := pack_lossless .wrapping .avx2 columnSource 2
  obtain ⟨panel, hpack⟩ := (hpacks hfits columnSource_countable).1 hroom
  obtain ⟨-, -, hlaysOut, hagain⟩ := hlossless (.inr columnSource_countable) panel hpack
  exact ⟨hfits, columnSource_countable, hroom, panel, hpack, hlaysOut, hagain⟩

/-- An operand without columns, so high that the elements of a column block are one more than a
machine word counts. -/
def emptySource : Source := ⟨#[], .plain, 0, 2 ^ 60, 0, .one⟩

/-- The operand fits, and is not packed: what the elements of a column block come to is no machine
word with checked arithmetic, and zero with wrapping arithmetic. -/
theorem pack_empty_panics : emptySource.Fits (2 ^ 60) ∧
    pack .checked .baseline emptySource (2 ^ 60) = .error .panicked ∧
    pack .wrapping .baseline emptySource (2 ^ 60) = .error .panicked := by
  let shape : PanelShape := ⟨.baseline, 2 ^ 60, 0, 2 ^ 60, by decide⟩
  have hfits : emptySource.Fits (2 ^ 60) := ⟨by decide, .inr (.inl rfl)⟩
  have hstarts : shape.blockStarts = [0] :=
    shape.blockStarts_of_le (by decide) (Nat.le_refl (2 ^ 60))
  refine ⟨hfits, pack_uncountable hfits.1 (fun _ ↦ hfits) fun hcount ↦ ?_, ?_⟩
  · exact absurd hcount.columnBlock (by decide)
  · have hcheck : emptySource.check .wrapping = .ok () := check_of_fits hfits (.inr (.inl rfl))
    have hsize : Arithmetic.wrapping.word shape.size = .ok 0 := by decide +kernel
    have hblock : emptySource.packBlock .wrapping shape 0 0 = .error .panicked := by
      decide +kernel
    rw [pack, dif_pos hfits.1, hcheck, ok_bind]
    change (Arithmetic.wrapping.word shape.size >>= fun size ↦
      Capacity.reserve Capacity.singleBytes size >>= fun _ ↦
        shape.blockStarts.mapM (emptySource.packBlock .wrapping shape size) >>= _) = _
    rw [hsize, ok_bind, hstarts, List.mapM_cons, hblock]
    rfl

end Panel

end PanelGemm
