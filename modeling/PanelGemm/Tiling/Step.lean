import PanelGemm.Arithmetic
import PanelGemm.Capacity

/-!
# Steps and tiles

The rows of an output are covered by kernel calls. A `Step` says which kernel is called and for
how many rows; it is masked if the kernel is taller than its rows. `Tile.layOut` lays steps out one
below the other from row zero on, once there is room for as many tiles.
-/

set_option autoImplicit false
set_option relaxedAutoImplicit false

namespace PanelGemm

/-- One kernel call along the rows: the height of the kernel and the rows that count. -/
structure Step where
  kernelRows : Nat
  rows : Nat
  deriving DecidableEq

/-- Whether the kernel of a step is taller than the rows it covers. -/
def Step.isMasked (step : Step) : Bool := decide (step.rows < step.kernelRows)

/-- A step at its first output row. -/
structure Tile where
  row : Nat
  rows : Nat
  kernelRows : Nat
  deriving DecidableEq

namespace Tile

/-- Whether the kernel of a tile is taller than the rows it covers. -/
def isMasked (tile : Tile) : Bool := decide (tile.rows < tile.kernelRows)

/-- The row below a tile. -/
def stop (tile : Tile) : Nat := tile.row + tile.rows

/-- The bytes of a tile: three machine words. -/
def tileBytes : Nat := 24

/-- The tiles of steps laid out from a given row on. -/
def layOutFrom (arithmetic : Arithmetic) (row : Nat) : List Step → Except Failure (List Tile)
  | [] => .ok []
  | step :: steps => do
    let next ← arithmetic.word (row + step.rows)
    return ⟨row, step.rows, step.kernelRows⟩ :: (← layOutFrom arithmetic next steps)

/-- The tiles of steps laid out from row zero on. -/
def layOut (arithmetic : Arithmetic) (steps : List Step) : Except Failure (List Tile) := do
  Capacity.reserve tileBytes steps.length
  layOutFrom arithmetic 0 steps

end Tile

end PanelGemm
