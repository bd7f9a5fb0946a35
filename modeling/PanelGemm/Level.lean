/-!
# Instruction levels

A `Level` classifies the vector instructions that a processor can execute, from the least to the
most capable. Its number of lanes decides the width of a packed column block, since a kernel keeps
two vector registers for every row it computes.
-/

set_option autoImplicit false
set_option relaxedAutoImplicit false

namespace PanelGemm

/-- A set of vector instructions, in ascending order of capability. -/
inductive Level where
  | baseline
  | neon
  | avx2
  | avx512Ymm
  | avx512
  deriving DecidableEq, Inhabited

namespace Level

/-- Every level in ascending order. -/
def all : List Level := [baseline, neon, avx2, avx512Ymm, avx512]

/-- The position of a level among all levels. -/
def rank : Level → Nat
  | baseline => 0
  | neon => 1
  | avx2 => 2
  | avx512Ymm => 3
  | avx512 => 4

/-- The order of two levels. -/
def order (first second : Level) : Ordering := compare first.rank second.rank

/-- The canonical name of a level. -/
def name : Level → String
  | baseline => "BASELINE"
  | neon => "NEON"
  | avx2 => "AVX2"
  | avx512Ymm => "AVX512_YMM"
  | avx512 => "AVX512"

/-- The name of a level inside the description of a value. -/
def label : Level → String
  | baseline => "Baseline"
  | neon => "Neon"
  | avx2 => "Avx2"
  | avx512Ymm => "Avx512Ymm"
  | avx512 => "Avx512"

/-- The number of single-precision lanes in one vector register. The baseline has no registers of
its own and shares the count of its nearest neighbour, so that panels keep the common layout. -/
def lanes : Level → Nat
  | baseline => 8
  | neon => 4
  | avx2 => 8
  | avx512Ymm => 8
  | avx512 => 16

/-- The number of vector registers that a kernel keeps for one row. -/
def registersPerRow : Nat := 2

/-- The width of a column block. -/
def blockWidth (level : Level) : Nat := level.lanes * registersPerRow

theorem blockWidth_pos (level : Level) : 0 < level.blockWidth := by
  cases level <;> decide

end Level

end PanelGemm
