import PanelGemm.Tiling.Greedy

/-!
# Kernel families

A `Family` is a kernel table with the way its level covers rows: greedily under a cap, or by a
fixed list of steps. The scalar kernels can be fed with panels of any block width, vector kernels
only with those of their own level, and a family may be choosier than its kernels. `Family.lookup`
finds the family that is built in for a level; the baseline has none there, its scalar kernels are
chosen explicitly as `Family.scalar`.
-/

set_option autoImplicit false
set_option relaxedAutoImplicit false

namespace PanelGemm

/-- How a family covers rows. -/
inductive TilePolicy where
  | greedy
  | fixed (steps : List Step)

/-- Whether the kernels of a level can be fed with column blocks of a given width. -/
def Level.feeds (level : Level) (width : Nat) : Bool :=
  match level with
  | .baseline => decide (0 < width)
  | level => width == level.blockWidth

/-- Kernels with their tile policy, and the widths of the column blocks that they are fed with. -/
structure Family where
  table : KernelTable
  cap : Nat
  policy : TilePolicy
  accepts : Nat → Bool
  feeds_of_accepts : ∀ width, accepts width = true → table.level.feeds width = true

namespace Family

/-- The level of a family. -/
def level (family : Family) : Level := family.table.level

/-- The width of the column blocks that a family is built for. -/
def blockWidth (family : Family) : Nat := family.level.blockWidth

/-- The family that takes all panels that its kernels can be fed with. -/
def make (table : KernelTable) (cap : Nat) (policy : TilePolicy) : Family :=
  ⟨table, cap, policy, table.level.feeds, fun _ ↦ id⟩

/-- The kernel of exactly a given height. -/
def kernel (family : Family) (rows : Nat) : Except Refusal Kernel := family.table.kernel rows

/-- The steps that cover a number of rows. -/
def partition (family : Family) (arithmetic : Arithmetic) (rows : Nat) :
    Except Failure (List Step) :=
  match family.policy with
  | .greedy => Greedy.partition arithmetic family.cap family.table rows
  | .fixed steps => .ok steps

/-- The tiles of an output with a number of rows. -/
def tiles (family : Family) (arithmetic : Arithmetic) (rows : Nat) : Except Failure (List Tile) :=
  family.partition arithmetic rows >>= Tile.layOut arithmetic

/-- The family of a level that has every height up to the tallest. -/
def upTo (level : Level) (tallest : Nat) : Family :=
  make (KernelTable.full level tallest) tallest .greedy

/-- The tallest kernel for a file of sixteen vector registers, and of the scalar kernels. -/
def narrowRows : Nat := 6

/-- The tallest kernel for a file of thirty-two vector registers. -/
def wideRows : Nat := 14

/-- The scalar kernels. -/
def scalar : Family := upTo .baseline narrowRows

/-- The family that is built in for a level. -/
def lookup (level : Level) : Except Refusal Family :=
  match level with
  | .avx2 => .ok (upTo level narrowRows)
  | .avx512Ymm => .ok (upTo level wideRows)
  | .avx512 => .ok (upTo level wideRows)
  | .baseline => .error (.unsupportedLevel level)
  | .neon => .error (.unsupportedLevel level)

end Family

end PanelGemm
