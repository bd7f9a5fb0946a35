import PanelGemm.Capacity
import PanelGemm.Kernel.Table
import PanelGemm.Tiling.Step

/-!
# Greedy tiling

The rows are covered by the tallest kernels first. All steps of one height are taken at once, so
the tiling is a list of `Batch`es: for each height, from the tallest down, as many full steps as
fit, and at the end one masked step of the smallest kernel if rows are left that fit none. Only
heights up to a cap are considered, unless no kernel is that short.

Room for the steps is asked for before they are listed: as many as the tallest kernel needs, and
one more for each height. Low kernels may need more, and then more room is asked for on the way.
-/

set_option autoImplicit false
set_option relaxedAutoImplicit false

namespace PanelGemm

/-- Equal steps that follow one another. -/
structure Batch where
  step : Step
  count : Nat

namespace Greedy

/-- The full steps of given heights, taken in the given order while they fit, and the rows that
are left. -/
def fullBatches : List Nat → Nat → List Batch × Nat
  | [], rows => ([], rows)
  | height :: heights, rows =>
    if height ≤ rows then
      let (batches, rest) := fullBatches heights (rows % height)
      (⟨⟨height, height⟩, rows / height⟩ :: batches, rest)
    else fullBatches heights rows

/-- The batches for a number of rows, given the heights in ascending order, the smallest one
apart. -/
def batches (smallest : Nat) (heights : List Nat) (rows : Nat) : List Batch :=
  let (full, rest) := fullBatches (smallest :: heights).reverse rows
  if rest = 0 then full else full ++ [⟨⟨smallest, rest⟩, 1⟩]

/-- The steps of batches. -/
def steps (batches : List Batch) : List Step :=
  batches.flatMap fun batch ↦ List.replicate batch.count batch.step

/-- The heights that a cap admits: all of them if it admits none. -/
def considered (cap : Nat) (heights : List Nat) : List Nat :=
  let short := heights.filter fun height ↦ decide (height ≤ cap)
  if short.isEmpty then heights else short

/-- The bytes of a step: two machine words. -/
def stepBytes : Nat := 16

/-- The number of steps that room is asked for, given the heights in ascending order, the smallest
one apart. -/
def room (smallest : Nat) (heights : List Nat) (rows : Nat) : Nat :=
  rows / heights.getLastD smallest + (heights.length + 1)

/-- The numbers of steps that more room is asked for while batches are listed, with room for some
steps and some of them listed already. -/
def growth (room listed : Nat) : List Batch → List Nat
  | [] => []
  | batch :: batches =>
    let needed := listed + batch.count
    if needed ≤ room then growth room needed batches
    else Capacity.grown room needed :: growth (Capacity.grown room needed) needed batches

/-- The steps that cover a number of rows with the kernels of a table. -/
def partition (arithmetic : Arithmetic) (cap : Nat) (table : KernelTable) (rows : Nat) :
    Except Failure (List Step) :=
  match considered cap table.available with
  | [] => .error (.refused (.missingKernel table.level rows table.tallest))
  | smallest :: heights => do
    let asked ← arithmetic.word (room smallest heights rows)
    let batches := batches smallest heights rows
    (asked :: growth asked 0 batches).forM (Capacity.reserve stepBytes)
    return steps batches

end Greedy

end PanelGemm
