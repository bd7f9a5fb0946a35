import PanelGemm.Arithmetic

/-!
# Row-major storage

A matrix of `rows × columns` lies in a buffer row by row, the rows `stride` elements apart.
`Storage.check` accepts a buffer if the stride holds a row and the buffer reaches to the end of the
last row, as far as a machine word counts the elements up to there; a matrix without rows or columns
needs nothing. `Orientation` says whether an operand is consumed as it is stored or transposed, and
`Orientation.offset` where its element is.
-/

set_option autoImplicit false
set_option relaxedAutoImplicit false

namespace PanelGemm

/-- Whether an operand is consumed as stored or transposed. -/
inductive Orientation where
  | plain
  | transposed
  deriving DecidableEq, Inhabited

namespace Orientation

/-- The offset of the element at a row and a column of the operand as it is consumed. -/
def offset (orientation : Orientation) (stride row column : Nat) : Nat :=
  match orientation with
  | plain => row * stride + column
  | transposed => column * stride + row

/-- The rows of an operand as it is stored. -/
def storedRows (orientation : Orientation) (rows columns : Nat) : Nat :=
  match orientation with
  | plain => rows
  | transposed => columns

/-- The columns of an operand as it is stored. -/
def storedColumns (orientation : Orientation) (rows columns : Nat) : Nat :=
  match orientation with
  | plain => columns
  | transposed => rows

end Orientation

namespace Storage

/-- The number of elements from the start of a matrix to the end of its last row. -/
def needed (rows columns stride : Nat) : Nat := (rows - 1) * stride + columns

/-- Checks that a matrix fits a buffer of a given size. -/
def check (arithmetic : Arithmetic) (size rows columns stride : Nat) : Except Failure Unit :=
  if rows = 0 ∨ columns = 0 then .ok ()
  else if stride < columns then .error (.refused (.shapeMismatch (.shortStride stride columns)))
  else do
    let needed ← arithmetic.word (needed rows columns stride)
    if size < needed then
      .error (.refused (.shapeMismatch (.shortBuffer rows columns stride needed size)))
    else .ok ()

end Storage

end PanelGemm
