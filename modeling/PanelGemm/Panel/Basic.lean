import PanelGemm.Arithmetic
import PanelGemm.Capacity
import PanelGemm.Panel.Shape

/-!
# Packed panels

A `Panel` holds the right operand of a product in the order in which kernels consume it, with a
factor folded into every element and zeros in the padding. `Panel.read` reads one element back,
`Panel.unpack` the whole operand without its padding, and `Panel.readBlock` is the storage of one
K-block. Each of them computes where it reads in machine words. `Panel.same` compares two panels
field by field, numbers as numbers.
-/

set_option autoImplicit false
set_option relaxedAutoImplicit false

namespace PanelGemm

/-- A packed operand. -/
structure Panel where
  shape : PanelShape
  alpha : Single
  data : Array Single

namespace Panel

/-- The level that a panel is packed for. -/
def level (panel : Panel) : Level := panel.shape.level

/-- The rows of the operand. -/
def rows (panel : Panel) : Nat := panel.shape.rows

/-- The columns of the operand. -/
def columns (panel : Panel) : Nat := panel.shape.columns

/-- The width of a column block. -/
def width (panel : Panel) : Nat := panel.shape.width

/-- The storage of the K-block that starts at a given row. -/
def readBlock (arithmetic : Arithmetic) (panel : Panel) (start : Nat) :
    Except Failure (Array Single) := do
  let padded ← arithmetic.word panel.shape.paddedColumns
  let first ← arithmetic.word (start * padded)
  let stop ← arithmetic.word ((start + panel.shape.blockDepth start) * padded)
  sliceOrPanic panel.data first stop

/-- The stored element at a row and a padded column. Its place is computed by way of the padded
width, which is a word of its own. -/
def readElement (arithmetic : Arithmetic) (panel : Panel) (row column : Nat) :
    Except Failure Single := do
  let _ ← arithmetic.word panel.shape.paddedColumns
  let place ← arithmetic.word (panel.shape.index row column)
  orPanic panel.data[place]?

/-- The element at a row and a column; columns past the last one, up to the padded width, hold
zeros, and there are no elements elsewhere. -/
def read (arithmetic : Arithmetic) (panel : Panel) (row column : Nat) :
    Except Failure (Option Single) :=
  if panel.rows ≤ row then return none
  else do
    let padded ← arithmetic.word panel.shape.paddedColumns
    if padded ≤ column then return none
    some <$> readElement arithmetic panel row column

/-- The operand in dense row-major order. There is no room for more elements than a buffer may have,
even if the room for fewer of them, as many as the remainder that a word holds, is asked for. -/
def unpack (arithmetic : Arithmetic) (panel : Panel) : Except Failure (Array Single) := do
  Capacity.reserve Capacity.singleBytes (panel.rows * panel.columns)
  let elements ← (List.range (panel.rows * panel.columns)).mapM fun position ↦
    readElement arithmetic panel (position / panel.columns) (position % panel.columns)
  return elements.toArray

/-- Whether two panels have the same level, extents and block height, and equal numbers. -/
def same (first second : Panel) : Bool :=
  first.level == second.level && first.rows == second.rows && first.columns == second.columns &&
    first.shape.blockRows == second.shape.blockRows && first.alpha.equal second.alpha &&
    first.data.isEqv second.data Binary.equal

end Panel

end PanelGemm
