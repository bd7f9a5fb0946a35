import PanelGemm.Benchmark.Measurement
import PanelGemm.Decimal.Fixed
import PanelGemm.Text.Column

/-!
# The summary table

The table has one line for each method and one column for each measured size, with the speed of
the method there; the last column is its speedup over the first method, averaged over the sizes.
The methods and their names are those of the first result. A result that lacks one of them, and a
table without results, is a panic.
-/

set_option autoImplicit false
set_option relaxedAutoImplicit false

namespace PanelGemm.Benchmark

/-- A method and its figures. -/
structure Entry where
  method : String
  figures : Figures

/-- The entries measured at one size. -/
structure Result where
  size : Nat
  entries : List Entry

namespace Summary

/-- The width of the table. -/
def tableWidth : Nat := 90

/-- A title for a square size. -/
def sizeTitle (size : Nat) : String := s!"{size}×{size}"

/-- The line of column titles. -/
def titleLine (sizes : List Nat) : String :=
  Text.flushLeft 18 "Method" ++
    String.join (sizes.map fun size ↦ " " ++ Text.flushRight 14 (sizeTitle size)) ++
    " " ++ Text.flushRight 12 "Speedup" ++ "\n"

/-- The average of doubles, summed from the left. The sum starts at negative zero, which every
double leaves as it is. -/
def average (values : List Double) : Double :=
  (values.foldl Binary.add (.signedZero true)).div (.ofNat values.length)

/-- The figures of one method in one result, and its speedup over the first method there. -/
def cell (method : Nat) (result : Result) : Except Failure (Figures × Double) := do
  let entry ← orPanic result.entries[method]?
  let first ← orPanic result.entries[0]?
  return (entry.figures, first.figures.milliseconds.div entry.figures.milliseconds)

/-- The speed in one cell. -/
def speed (figures : Figures) : String :=
  " " ++ Text.flushRight 11 (figures.gflops.fixed 2) ++ " GF"

/-- The line of one method. -/
def methodLine (results : List Result) (name : String) (method : Nat) :
    Except Failure String := do
  let cells ← results.mapM (cell method)
  let speedup := average (cells.map Prod.snd)
  return Text.flushLeft 18 name ++ String.join (cells.map fun cell ↦ speed cell.1) ++
    " " ++ Text.flushRight 11 (speedup.fixed 1) ++ "×\n"

/-- The lines of all methods. -/
def methodLines (results : List Result) : Except Failure (List String) := do
  let first ← orPanic results[0]?
  (first.entries.map Entry.method).zipIdx.mapM fun (name, method) ↦
    methodLine results name method

/-- The whole table. -/
def text (results : List Result) (sizes : List Nat) : Except Failure String := do
  let lines ← methodLines results
  let ruled := Text.rule '=' tableWidth ++ "\n"
  return "\n" ++ ruled ++ "SUMMARY\n" ++ ruled ++ "\n" ++ titleLine sizes ++
    Text.rule '-' tableWidth ++ "\n" ++ String.join lines ++ ruled ++
    "\nGF = GFLOPS (billion floating point operations per second)\n" ++
    "Speedup relative to Naive (i-k-j). Higher is better.\n\n"

end Summary

end PanelGemm.Benchmark
