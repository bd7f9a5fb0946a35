import PanelGemm.Failure
import PanelGemm.Word

/-!
# Word arithmetic

Extents are multiplied and added as machine words, and no operation looks whether its result is one.
What becomes of a result that is not depends on how the program is built: with checked arithmetic it
is a panic, with wrapping arithmetic its remainder takes its place.

`Arithmetic.word` takes the value of a whole sum of products. The operations that compute it
overflow one by one, but with checked arithmetic one of them does exactly if the whole value is no
word, and with wrapping arithmetic the remainders add up to the remainder of the whole.
-/

set_option autoImplicit false
set_option relaxedAutoImplicit false

namespace PanelGemm

/-- What becomes of a result that is no machine word. -/
inductive Arithmetic where
  | checked
  | wrapping
  deriving DecidableEq, Inhabited

/-- The machine word for a value. -/
def Arithmetic.word (arithmetic : Arithmetic) (value : Nat) : Except Failure Nat :=
  if value < Word.limit then .ok value
  else match arithmetic with
    | checked => .error .panicked
    | wrapping => .ok (value % Word.limit)

end PanelGemm
