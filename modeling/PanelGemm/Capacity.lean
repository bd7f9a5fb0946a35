import PanelGemm.Failure
import PanelGemm.Word

/-!
# The capacity of buffers

A signed machine word counts the bytes of a buffer, so none has more bytes than that, however much
memory there is. Asking for a longer buffer is a panic; it happens before anything is written.
-/

set_option autoImplicit false
set_option relaxedAutoImplicit false

namespace PanelGemm.Capacity

/-- The bytes of a single-precision number. -/
def singleBytes : Nat := 4

/-- Asks for a buffer of elements of a given size; a buffer that is too long is a panic. -/
def reserve (elementBytes count : Nat) : Except Failure Unit :=
  panicUnless (count * elementBytes < Word.signedLimit)

/-- The elements that a buffer has room for once it has grown to hold a given number: it grows to
twice its room at least, and to no less than four elements. -/
def grown (room count : Nat) : Nat := max (max (2 * room) count) 4

/-- A buffer of zeros. -/
def zeros (count : Nat) : Except Failure (Array Single) := do
  reserve singleBytes count
  return Array.replicate count .zero

end PanelGemm.Capacity
