import PanelGemm.Benchmark.Summary

/-!
# The listing of one size

The benchmark multiplies square operands of a few sizes, first with the naive product and then
with the kernels of every runnable level on one and on several threads. For each size it lists the
methods with their figures and their speedup over the first of them.
-/

set_option autoImplicit false
set_option relaxedAutoImplicit false

namespace PanelGemm.Benchmark

/-- The sizes that are measured. -/
def sizes : List Nat := [256, 512, 1024]

/-- The number of timed calls for each method. -/
def iterations : Nat := 3

/-- The most threads that a method uses. -/
def mostThreads : Nat := 4

/-- The name of the naive product in the tables. -/
def naiveName : String := "Naive (i-k-j)"

/-- The name of a level on several threads. -/
def threadedName (level : Level) : String := level.name ++ " MT"

/-- One hundredth, rounded. -/
def hundredth : Single := (Binary.ofNat 1).div (.ofNat 100)

/-- A measured operand: hundredths that count up to ninety-nine over and over again. -/
def operand (size : Nat) : Array Single :=
  Array.ofFn fun index : Fin size ↦ (Binary.ofNat (index.val % 100)).mul hundredth

namespace Listing

/-- The heading of a size. -/
def heading (size : Nat) : String := s!"Matrix: {size}×{size}\n" ++ Text.rule '-' 50

/-- The line about a level that cannot be measured. -/
def skipped (level : Level) (reason : Refusal) : String :=
  s!"Skipping {level.name} - {reason.message}"

/-- The line of one method, given its number and the time of the first method. -/
def line (number : Nat) (first : Double) (entry : Entry) : String :=
  let time := Text.flushRight 8 (entry.figures.milliseconds.fixed 2)
  let speed := Text.flushRight 6 (entry.figures.gflops.fixed 2)
  let speedup := (first.div entry.figures.milliseconds).fixed 1
  s!"{number}. {Text.flushLeft 16 entry.method} {time} ms  {speed} GFLOPS  ({speedup}×)"

/-- The lines of all methods. -/
def lines (entries : List Entry) : List String :=
  match entries with
  | [] => []
  | first :: _ => entries.zipIdx.map fun (entry, index) ↦
    line (index + 1) first.figures.milliseconds entry

end Listing

end PanelGemm.Benchmark
