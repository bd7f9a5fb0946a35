import PanelGemm.Failure
import PanelGemm.Kernel.Scalar
import PanelGemm.Kernel.Vectorized

/-!
# Kernel tables

A `Kernel` computes a fixed number of rows, with scalar or with vector arithmetic. The kernels of
one level form a `KernelTable`, indexed by their number of rows; entry zero is reserved and never
holds a kernel, and other entries may be missing. `KernelTable.kernel` finds the kernel of exactly
the given height and `KernelTable.available` lists the heights that have one, in ascending order.
-/

set_option autoImplicit false
set_option relaxedAutoImplicit false

namespace PanelGemm

/-- A kernel of a fixed height. -/
inductive Kernel where
  | scalar (rows : Nat)
  | vector (lanes rows : Nat)
  deriving DecidableEq

namespace Kernel

/-- The kernel of a given height at a level: the baseline computes one element at a time. -/
def ofLevel (level : Level) (rows : Nat) : Kernel :=
  match level with
  | .baseline => scalar rows
  | level => vector level.lanes rows

/-- The output buffer after a call; nothing if an access leaves a buffer. -/
def run (kernel : Kernel) (call : MicroCall) (output : Array Single) : Option (Array Single) :=
  match kernel with
  | scalar rows => ScalarKernel.run rows call output
  | vector lanes rows => VectorKernel.run lanes rows call output

end Kernel

/-- The kernels of one level: entry `rows` says whether there is one of that height. -/
structure KernelTable where
  level : Level
  entries : Array Bool
  reserved : entries[0]? = some false

namespace KernelTable

/-- A table with given entries; a table that is empty or uses entry zero is a failed assertion. -/
def make (level : Level) (entries : Array Bool) : Except Failure KernelTable :=
  if reserved : entries[0]? = some false then .ok ⟨level, entries, reserved⟩
  else .error .panicked

/-- The table of a level that has every height up to the tallest. -/
def full (level : Level) (tallest : Nat) : KernelTable :=
  ⟨level, Array.ofFn fun rows : Fin (tallest + 1) ↦ rows.val != 0, by simp⟩

/-- The tallest height that any entry may have. -/
def tallest (table : KernelTable) : Nat := table.entries.size - 1

/-- Whether there is a kernel of a given height. -/
def holds (table : KernelTable) (rows : Nat) : Bool := table.entries[rows]? == some true

/-- The kernel of exactly a given height. -/
def kernel (table : KernelTable) (rows : Nat) : Except Refusal Kernel :=
  if table.holds rows then .ok (Kernel.ofLevel table.level rows)
  else .error (.missingKernel table.level rows table.tallest)

/-- The heights that have a kernel, in ascending order. -/
def available (table : KernelTable) : List Nat :=
  (List.range table.entries.size).filter table.holds

end KernelTable

end PanelGemm
