import PanelGemm.Kernel.Buffer
import PanelGemm.Kernel.MicroCall

/-!
# Scalar kernels

A scalar kernel updates its output in place, one element at a time: block by block, depth by
depth, row by row, column by column. The first depth of a block starts an element with a product,
or with a fused multiply-add onto `beta` times the old element if `beta` is not zero; every later
depth adds a fused product. Without any depth the output stays as it is.
-/

set_option autoImplicit false
set_option relaxedAutoImplicit false

namespace PanelGemm.ScalarKernel

/-- The new value of an element at one depth. -/
def advance (beta : Single) (p : Nat) (x y old : Single) : Single :=
  if p > 0 then x.fma y old
  else if beta.isZero then x.mul y
  else x.fma y (beta.mul old)

/-- Updates the element at row `i` and column `j` of a block. -/
def updateElement (call : MicroCall) (block p i : Nat) (x : Single) (output : Array Single)
    (j : Nat) : Option (Array Single) := do
  let y ← call.right[(block * call.depth + p) * call.width + j]?
  let position := call.origin + (i * call.stride + block * call.width + j)
  let old ← output[position]?
  Buffer.write? output position (advance call.beta p x y old)

/-- Updates row `i` of a block at depth `p`. -/
def updateRow (rows : Nat) (call : MicroCall) (block p : Nat) (output : Array Single) (i : Nat) :
    Option (Array Single) := do
  let x ← call.left[p * rows + i]?
  (List.range call.width).foldlM (updateElement call block p i x) output

/-- Updates a block at depth `p`. -/
def updateDepth (rows : Nat) (call : MicroCall) (block : Nat) (output : Array Single) (p : Nat) :
    Option (Array Single) :=
  (List.range rows).foldlM (updateRow rows call block p) output

/-- Updates a block. -/
def updateBlock (rows : Nat) (call : MicroCall) (output : Array Single) (block : Nat) :
    Option (Array Single) :=
  (List.range call.depth).foldlM (updateDepth rows call block) output

/-- The output buffer after the call; nothing if an access leaves a buffer. -/
def run (rows : Nat) (call : MicroCall) (output : Array Single) : Option (Array Single) :=
  (List.range call.blocks).foldlM (updateBlock rows call) output

end PanelGemm.ScalarKernel
