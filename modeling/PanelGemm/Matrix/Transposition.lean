import PanelGemm.Failure

/-!
# Transposition

`transpose` writes the transpose of a `rows × columns` matrix into a destination: the element at
row `i` and column `j` goes to position `j * rows + i`. Rows that the source does not hold in full
are left out, and all other elements of the destination stay as they are. A position outside the
destination is a panic.
-/

set_option autoImplicit false
set_option relaxedAutoImplicit false

namespace PanelGemm

namespace Transposition

/-- Puts a value at a position of a buffer. -/
def put (destination : Array Single) (position : Nat) (value : Single) :
    Except Failure (Array Single) :=
  if h : position < destination.size then .ok (destination.set position value)
  else .error .panicked

/-- Scatters one source row into a column of the destination. -/
def scatterRow (source : Array Single) (rows columns i : Nat) (destination : Array Single) :
    Except Failure (Array Single) :=
  (List.range columns).foldlM (fun destination j ↦ do
    let value ← orPanic source[i * columns + j]?
    put destination (j * rows + i) value) destination

/-- The number of source rows that are both wanted and held in full. -/
def completeRows (source : Array Single) (rows columns : Nat) : Nat :=
  if columns = 0 then 0 else min rows (source.size / columns)

end Transposition

/-- The destination after the transpose of a `rows × columns` source is written into it. -/
def transpose (source destination : Array Single) (rows columns : Nat) :
    Except Failure (Array Single) :=
  (List.range (Transposition.completeRows source rows columns)).foldlM
    (fun destination i ↦ Transposition.scatterRow source rows columns i destination) destination

end PanelGemm
