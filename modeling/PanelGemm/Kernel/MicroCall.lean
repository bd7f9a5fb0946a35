import PanelGemm.Binary.Format

/-!
# Arguments of a kernel

A kernel of `rows` rows multiplies a packed strip of the left operand by consecutive column blocks
of the right one. In the strip the `rows` elements of one depth are consecutive; a column block is
`depth × width`, row by row, and the blocks follow one another. The output is a `rows` high window
of a row-major buffer.
-/

set_option autoImplicit false
set_option relaxedAutoImplicit false

namespace PanelGemm

/-- The arguments of one kernel call, its output buffer apart. -/
structure MicroCall where
  /-- The number of products summed for one element. -/
  depth : Nat
  /-- The packed strip of the left operand. -/
  left : Array Single
  /-- The column blocks of the right operand. -/
  right : Array Single
  /-- The factor of the old output; if it is zero the old output is not used. -/
  beta : Single
  /-- The position of the first output element in its buffer. -/
  origin : Nat
  /-- The distance between output rows. -/
  stride : Nat
  /-- The number of column blocks. -/
  blocks : Nat
  /-- The width of a column block. -/
  width : Nat

end PanelGemm
