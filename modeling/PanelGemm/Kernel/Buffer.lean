import PanelGemm.Binary.Arithmetic

/-!
# Checked access to buffers

Kernels read and write their operands through the functions of this module only. Each of them
looks whether the elements it names lie in the buffer and gives nothing if one does not, so an
access outside a buffer is visible in the result of a kernel.
-/

set_option autoImplicit false
set_option relaxedAutoImplicit false

namespace PanelGemm.Buffer

/-- Puts a value at a position. -/
def write? (buffer : Array Single) (position : Nat) (value : Single) : Option (Array Single) :=
  if h : position < buffer.size then some (buffer.set position value) else none

/-- The elements at `count` consecutive positions. -/
def readVector? (buffer : Array Single) (start count : Nat) : Option (Vector Single count) :=
  if h : start + count ≤ buffer.size then
    some (Vector.ofFn fun lane ↦ buffer[start + lane.val])
  else none

/-- Puts values at consecutive positions. -/
def writeVector? {count : Nat} (buffer : Array Single) (start : Nat)
    (values : Vector Single count) : Option (Array Single) :=
  (List.finRange count).foldlM
    (fun buffer lane ↦ write? buffer (start + lane.val) (values.get lane)) buffer

end PanelGemm.Buffer
