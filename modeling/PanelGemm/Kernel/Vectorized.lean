import PanelGemm.Kernel.Buffer
import PanelGemm.Kernel.MicroCall

/-!
# Vector kernels

A vector kernel keeps two registers for every row of a column block, so the block is twice as wide
as a register whatever width the call names. The registers start at positive zero and take one
fused multiply-add per depth. When all depths are done they are stored, either alone or, if `beta`
is not zero, by one more fused multiply-add of `beta` and the old output.
-/

set_option autoImplicit false
set_option relaxedAutoImplicit false

namespace PanelGemm

/-- A vector register. -/
abbrev Register (lanes : Nat) := Vector Single lanes

namespace Register

/-- The register that has positive zero in every lane. -/
def zero (lanes : Nat) : Register lanes := Vector.replicate lanes Binary.zero

/-- The fused multiply-add of a scalar and two registers, lane by lane. -/
def fma {lanes : Nat} (x : Single) (y z : Register lanes) : Register lanes :=
  Vector.zipWith (fun y z ↦ x.fma y z) y z

end Register

namespace VectorKernel

/-- The two registers of one row. -/
structure RowPair (lanes : Nat) where
  low : Register lanes
  high : Register lanes

/-- The accumulators of a column block. -/
abbrev Accumulators (lanes rows : Nat) := Vector (RowPair lanes) rows

/-- The width of a column block. -/
def width (lanes : Nat) : Nat := 2 * lanes

/-- Accumulators at positive zero. -/
def cleared (lanes rows : Nat) : Accumulators lanes rows :=
  Vector.replicate rows ⟨Register.zero lanes, Register.zero lanes⟩

/-- Adds the products of depth `p` to the accumulators of a block. -/
def accumulate {lanes rows : Nat} (call : MicroCall) (block : Nat)
    (accumulators : Accumulators lanes rows) (p : Nat) : Option (Accumulators lanes rows) := do
  let start := (block * call.depth + p) * width lanes
  let low ← Buffer.readVector? call.right start lanes
  let high ← Buffer.readVector? call.right (start + lanes) lanes
  let column ← Buffer.readVector? call.left (p * rows) rows
  return Vector.zipWith
    (fun x row ↦ ⟨Register.fma x low row.low, Register.fma x high row.high⟩) column accumulators

/-- The value to store for one register, given the position of its output. -/
def settle {lanes : Nat} (beta : Single) (register : Register lanes) (output : Array Single)
    (position : Nat) : Option (Register lanes) :=
  if beta.isZero then some register
  else do
    let old ← Buffer.readVector? output position lanes
    return Register.fma beta old register

/-- Stores the accumulators of row `i` of a block. -/
def storeRow {lanes rows : Nat} (call : MicroCall) (block : Nat)
    (accumulators : Accumulators lanes rows) (output : Array Single) (i : Fin rows) :
    Option (Array Single) := do
  let position := call.origin + (block * width lanes + i.val * call.stride)
  let low ← settle call.beta (accumulators.get i).low output position
  let high ← settle call.beta (accumulators.get i).high output (position + lanes)
  let output ← Buffer.writeVector? output position low
  Buffer.writeVector? output (position + lanes) high

/-- Computes and stores a block. -/
def runBlock (lanes rows : Nat) (call : MicroCall) (output : Array Single) (block : Nat) :
    Option (Array Single) := do
  let accumulators ← (List.range call.depth).foldlM (accumulate call block) (cleared lanes rows)
  (List.finRange rows).foldlM (storeRow call block accumulators) output

/-- The output buffer after the call; nothing if an access leaves a buffer. -/
def run (lanes rows : Nat) (call : MicroCall) (output : Array Single) : Option (Array Single) :=
  (List.range call.blocks).foldlM (runBlock lanes rows call) output

end VectorKernel

end PanelGemm
