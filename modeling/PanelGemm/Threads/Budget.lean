import PanelGemm.Binary.Arithmetic

/-!
# Thread budget

A product of `m × k` by `k × n` takes `2 * m * n * k` operations. Small products do not repay the
start of threads, so `chooseThreads` gives them one or two, larger ones all that are allowed, and
never more than one for every full sixty-four rows. The operations are counted in double
precision, each factor and each partial product rounded, from left to right.
-/

set_option autoImplicit false
set_option relaxedAutoImplicit false

namespace PanelGemm.ThreadBudget

/-- The number of operations of a product, in double precision. -/
def operations (m n k : Nat) : Double :=
  (((Binary.ofNat 2).mul (Binary.ofNat m)).mul (Binary.ofNat n)).mul (Binary.ofNat k)

/-- Below this number of operations one thread is enough. -/
def singleThreadLimit : Double := Binary.ofNat 100000000

/-- Below this number of operations two threads are enough. -/
def twoThreadLimit : Double := Binary.ofNat 300000000

/-- The rows of the output that repay one thread. -/
def rowsPerThread : Nat := 64

/-- The number of threads that the operations ask for. -/
def wanted (m n k most : Nat) : Nat :=
  let count := operations m n k
  if count.less singleThreadLimit then 1
  else if count.less twoThreadLimit then 2
  else most

/-- The number of threads for a product, at least one. -/
def chooseThreads (m n k most : Nat) : Nat :=
  max (min (min (wanted m n k most) (max (m / rowsPerThread) 1)) most) 1

end PanelGemm.ThreadBudget
