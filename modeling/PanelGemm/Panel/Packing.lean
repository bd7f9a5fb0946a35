import PanelGemm.Matrix.Storage
import PanelGemm.Panel.Basic

/-!
# Packing

`Panel.pack` lays a stored operand out as a panel. It accepts a positive block height and a source
that holds the operand. A K-block is written into its part of the storage, column block by column
block, as many as the part has room for: a position in the padding is zero, any other one the factor
times the element of the source.

The parts and the sizes of the column blocks are machine words. A column block whose size is zero as
a word is a panic. Without columns even the highest operand needs no storage, and nothing else keeps
its column blocks small.
-/

set_option autoImplicit false
set_option relaxedAutoImplicit false

namespace PanelGemm

namespace Packing

/-- An operand that is to be packed: `rows × columns` as it is consumed. -/
structure Source where
  data : Array Single
  orientation : Orientation
  stride : Nat
  rows : Nat
  columns : Nat
  alpha : Single

namespace Source

/-- Checks that the source holds the operand. -/
def check (arithmetic : Arithmetic) (source : Source) : Except Failure Unit :=
  Storage.check arithmetic source.data.size
    (source.orientation.storedRows source.rows source.columns)
    (source.orientation.storedColumns source.rows source.columns) source.stride

/-- Where the element at a row and a column is in the source. A plain operand is read in pieces,
each from where its row enters a column block on; a transposed one is read element by element. -/
def locate (arithmetic : Arithmetic) (source : Source) (width row column : Nat) :
    Except Failure Nat :=
  match source.orientation with
  | .plain =>
    (· + column % width) <$> arithmetic.word (row * source.stride + column / width * width)
  | .transposed => arithmetic.word (column * source.stride + row)

/-- The element to store for a position of the padded operand. -/
def element (arithmetic : Arithmetic) (source : Source) (width : Nat) (position : Nat × Nat) :
    Except Failure Single :=
  if position.2 < source.columns then do
    let place ← source.locate arithmetic width position.1 position.2
    source.alpha.mul <$> orPanic source.data[place]?
  else return .zero

/-- The elements of the K-block that starts at a given row, in a storage of a given size. What a
column block does not fill any more is zero. -/
def packBlock (arithmetic : Arithmetic) (source : Source) (shape : PanelShape) (size start : Nat) :
    Except Failure (List Single) := do
  let depth := shape.blockDepth start
  let first ← arithmetic.word (start * shape.paddedColumns)
  let stop ← arithmetic.word ((start + depth) * shape.paddedColumns)
  panicUnless (first ≤ stop ∧ stop ≤ size)
  let columnBlock ← arithmetic.word (depth * shape.width)
  panicUnless (columnBlock ≠ 0)
  let positions := (List.range ((stop - first) / columnBlock)).flatMap
    (shape.columnBlockOrder start (columnBlock / shape.width))
  let elements ← positions.mapM (source.element arithmetic shape.width)
  return elements ++ List.replicate ((stop - first) % columnBlock) .zero

end Source

end Packing

/-- The panel of a source for a level, with K-blocks of a given height. -/
def Panel.pack (arithmetic : Arithmetic) (level : Level) (source : Packing.Source)
    (blockRows : Nat) : Except Failure Panel :=
  if positive : 0 < blockRows then do
    let shape : PanelShape := ⟨level, source.rows, source.columns, blockRows, positive⟩
    source.check arithmetic
    let size ← arithmetic.word shape.size
    Capacity.reserve Capacity.singleBytes size
    let blocks ← shape.blockStarts.mapM (source.packBlock arithmetic shape size)
    return ⟨shape, source.alpha, blocks.flatten.toArray⟩
  else .error (.refused (.shapeMismatch .zeroBlockRows))

end PanelGemm
