import PanelGemm.Kernel.Family
import PanelGemm.Panel.Packing

/-!
# Requests

An `Engine` multiplies with the kernels of one family. A `Request` is one product
`C = alpha * op(A) * B + beta * C` with a packed right operand; the output buffer comes apart from
it. `Engine.check` accepts a request if the family takes the panel's block width and the buffers
hold the operands, as far as machine words count them, and otherwise names the first thing that does
not fit.
-/

set_option autoImplicit false
set_option relaxedAutoImplicit false

namespace PanelGemm

/-- A multiplier on the kernels of one family. -/
structure Engine where
  family : Family

/-- A product with a packed right operand. -/
structure Request where
  /-- The arithmetic that the program is built with. -/
  arithmetic : Arithmetic
  /-- The number of rows of the output. -/
  m : Nat
  /-- The left operand as it is stored. -/
  left : Array Single
  /-- Whether the left operand is consumed as stored. -/
  orientation : Orientation
  /-- The distance between stored rows of the left operand. -/
  leftStride : Nat
  /-- The right operand. -/
  panel : Panel
  /-- The distance between rows of the output. -/
  outputStride : Nat
  /-- The factor of the product. -/
  alpha : Single
  /-- The factor of the old output. -/
  beta : Single

namespace Request

/-- The number of products summed for one element. -/
def k (request : Request) : Nat := request.panel.rows

/-- The number of columns of the output. -/
def n (request : Request) : Nat := request.panel.columns

/-- Whether there is nothing to compute. -/
def isEmpty (request : Request) : Bool :=
  request.m == 0 || request.k == 0 || request.n == 0

/-- The machine word for a count of a request. -/
def word (request : Request) (value : Nat) : Except Failure Nat := request.arithmetic.word value

/-- The element of the left operand at a row and a depth. -/
def readLeft (request : Request) (row depth : Nat) : Except Failure Single := do
  let place ← request.word (request.orientation.offset request.leftStride row depth)
  orPanic request.left[place]?

end Request

namespace Engine

/-- The level of an engine. -/
def level (engine : Engine) : Level := engine.family.level

/-- The engine on the scalar kernels. -/
def scalar : Engine := ⟨Family.scalar⟩

/-- A description of an engine. -/
def describe (engine : Engine) : String :=
  "Driver \x7b level: " ++ engine.level.label ++ " \x7d"

/-- Checks that the kernels take the panel. -/
def checkWidth (engine : Engine) (panel : Panel) : Except Failure Unit :=
  if engine.family.accepts panel.width then .ok ()
  else .error (.refused (.shapeMismatch
    (.panelWidth panel.level panel.width engine.level engine.family.blockWidth)))

/-- Checks that the output stride holds a row. -/
def checkOutputStride (request : Request) : Except Failure Unit :=
  if request.n > 0 ∧ request.outputStride < request.n then
    .error (.refused (.shapeMismatch (.shortOutputStride request.outputStride request.n)))
  else .ok ()

/-- Checks a request for an output buffer of a given size. -/
def check (engine : Engine) (request : Request) (size : Nat) : Except Failure Unit := do
  engine.checkWidth request.panel
  Storage.check request.arithmetic request.left.size
    (request.orientation.storedRows request.m request.k)
    (request.orientation.storedColumns request.m request.k) request.leftStride
  checkOutputStride request
  Storage.check request.arithmetic size request.m request.n request.outputStride

end Engine

end PanelGemm
