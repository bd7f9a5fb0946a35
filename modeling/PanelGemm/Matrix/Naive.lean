import PanelGemm.Matrix.Storage

/-!
# The naive product

`naiveGemm` computes `C = alpha * op(A) * B + beta * C` on dense row-major matrices, one row of
the output after another. A row is first scaled by `beta`, or cleared without being read if `beta`
is zero; then, for each `p` in order, row `p` of `B` times the scaled element of `A` is added to
it. Multiplications and additions are rounded separately. An element or row that a buffer does not
hold is a panic.
-/

set_option autoImplicit false
set_option relaxedAutoImplicit false

namespace PanelGemm

namespace Naive

/-- The extents and factors of a dense product. -/
structure Problem where
  orientation : Orientation
  m : Nat
  n : Nat
  k : Nat
  alpha : Single
  beta : Single

/-- Row `index` of a row-major matrix with `width` columns. -/
def row? (matrix : Array Single) (width index : Nat) : Except Failure (Array Single) :=
  if (index + 1) * width ≤ matrix.size then
    .ok (matrix.extract (index * width) ((index + 1) * width))
  else .error .panicked

/-- The stride at which the left operand is stored. -/
def Problem.leftStride (problem : Problem) : Nat :=
  problem.orientation.storedColumns problem.m problem.k

/-- An output row before any product is added. -/
def scaledRow (beta : Single) (row : Array Single) : Array Single :=
  if beta.isZero then row.map fun _ ↦ .zero else row.map fun x ↦ x.mul beta

/-- An output row with one multiple of a row of `B` added. -/
def addMultiple (factor : Single) (row right : Array Single) : Array Single :=
  Array.zipWith (fun x y ↦ x.add (factor.mul y)) row right

/-- The new values of output row `i`. -/
def computeRow (problem : Problem) (a b : Array Single) (i : Nat) (row : Array Single) :
    Except Failure (Array Single) :=
  (List.range problem.k).foldlM (fun row p ↦ do
    let x ← orPanic a[problem.orientation.offset problem.leftStride i p]?
    let right ← row? b problem.n p
    return addMultiple (problem.alpha.mul x) row right) (scaledRow problem.beta row)

/-- The output with row `i` computed. -/
def updateRow (problem : Problem) (a b : Array Single) (c : Array Single) (i : Nat) :
    Except Failure (Array Single) := do
  let row ← row? c problem.n i
  let row ← computeRow problem a b i row
  return c.extract 0 (i * problem.n) ++ row ++ c.extract ((i + 1) * problem.n)

end Naive

/-- The output after `C = alpha * op(A) * B + beta * C`. -/
def naiveGemm (problem : Naive.Problem) (a b c : Array Single) : Except Failure (Array Single) :=
  (List.range problem.m).foldlM (Naive.updateRow problem a b) c

end PanelGemm
