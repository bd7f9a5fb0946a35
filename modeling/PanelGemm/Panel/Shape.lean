import PanelGemm.Level

/-!
# The shape of a packed panel

A `rows × columns` operand is cut into K-blocks of `blockRows` rows, the last one possibly
shorter, and each K-block into column blocks as wide as the level asks for, the last one padded.
The K-blocks follow one another in storage; inside a K-block the column blocks follow one another,
and each of them is stored row by row.

`PanelShape.columnBlockOrder` lists the positions of a column block in that order.
`PanelShape.index` computes where a single position is stored.
-/

set_option autoImplicit false
set_option relaxedAutoImplicit false

namespace PanelGemm

/-- The number of blocks of a given size that cover a total. -/
def blockCount (total size : Nat) : Nat := (total + size - 1) / size

/-- The extents of a packed panel and its block sizes. -/
structure PanelShape where
  level : Level
  rows : Nat
  columns : Nat
  blockRows : Nat
  blockRows_pos : 0 < blockRows

namespace PanelShape

/-- The width of a column block. -/
def width (shape : PanelShape) : Nat := shape.level.blockWidth

/-- The number of column blocks, a padded last one included. -/
def columnBlocks (shape : PanelShape) : Nat := blockCount shape.columns shape.width

/-- The number of stored elements for one row, which is the padded width. -/
def paddedColumns (shape : PanelShape) : Nat := shape.columnBlocks * shape.width

/-- The number of stored elements. -/
def size (shape : PanelShape) : Nat := shape.rows * shape.paddedColumns

/-- The number of K-blocks. -/
def rowBlocks (shape : PanelShape) : Nat := blockCount shape.rows shape.blockRows

/-- The first rows of the K-blocks. -/
def blockStarts (shape : PanelShape) : List Nat :=
  (List.range shape.rowBlocks).map fun block ↦ block * shape.blockRows

/-- The number of rows of the K-block that starts at a given row. -/
def blockDepth (shape : PanelShape) (start : Nat) : Nat :=
  min shape.blockRows (shape.rows - start)

/-- The number of rows of the last K-block. -/
def lastBlockRows (shape : PanelShape) : Nat :=
  let rest := shape.rows % shape.blockRows
  if rest = 0 ∧ 0 < shape.rows then shape.blockRows else rest

/-- Where the element at a row and a padded column is stored. -/
def index (shape : PanelShape) (row column : Nat) : Nat :=
  let start := row - row % shape.blockRows
  start * shape.paddedColumns
    + column / shape.width * shape.blockDepth start * shape.width
    + (row - start) * shape.width
    + column % shape.width

/-- The positions of one column block in `depth` rows from a given row on. -/
def columnBlockOrder (shape : PanelShape) (start depth block : Nat) : List (Nat × Nat) :=
  (List.range depth).flatMap fun p ↦
    (List.range shape.width).map fun j ↦ (start + p, block * shape.width + j)

end PanelShape

end PanelGemm
