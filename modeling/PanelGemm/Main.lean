import PanelGemm.Benchmark.Banner
import PanelGemm.Benchmark.Listing
import PanelGemm.Matrix.Naive

/-!
# The benchmark program

Prints the banner, measures every method at every size, and prints the listing of each size and
the summary table. The clock, the environment and the printing are all that happens here.
-/

set_option autoImplicit false
set_option relaxedAutoImplicit false

namespace PanelGemm.Benchmark

/-- The seconds that a computation takes, and its value. -/
def timed {α : Type} (computation : Unit → α) : IO (α × Double) := do
  let start ← IO.monoNanosNow
  let value ← IO.lazyPure computation
  let stop ← IO.monoNanosNow
  return (value, (Binary.ofNat (stop - start)).div (.ofNat 1000000000))

/-- The processor of the benchmark and the arithmetic that it is built with. -/
def platform : Platform := ⟨⟨true, true, true, true⟩, .wrapping⟩

/-- Warms up and measures the calls of a method, and prints what each of them complains about. -/
def measure (size : Nat) (method : String) (call : Unit → Except Failure String) :
    IO Entry := do
  let mut seconds := []
  for index in [0:iterations + 1] do
    let (complaint, elapsed) ← timed call
    match complaint with
    | .ok text => IO.eprint text
    | .error _ => throw (IO.userError "a measured call panicked")
    if 0 < index then seconds := seconds ++ [elapsed]
  match Figures.ofElapsed platform.arithmetic size size size seconds with
  | .ok figures => return ⟨method, figures⟩
  | .error _ => throw (IO.userError "the operations cannot be counted")

/-- Measures the naive product. -/
def measureNaive (size : Nat) : IO Entry := do
  let a := operand (size * size)
  let output := Array.replicate (size * size) Binary.zero
  measure size naiveName fun () ↦ do
    let _ ← naiveGemm ⟨.plain, size, size, size, .one, .zero⟩ a a output
    return ""

/-- Measures a product with the kernels of a level. -/
def measureSubject (dispatcher : Dispatcher) (size : Nat) (method : String) (subject : Subject) :
    IO Entry :=
  measure size method fun () ↦ Prod.snd <$> (subject.freshCall.run.run dispatcher).1

/-- Measures a level on one and on several threads, if an engine and a panel can be made. -/
def measureLevel (dispatcher : Dispatcher) (size : Nat) (level : Level) : IO (List Entry) := do
  let data := operand (size * size)
  let prepared : Attempt (Engine × Panel) := do
    let engine ← Engine.ofLevel level
    return (engine, ← Panel.packWith level ⟨data, .plain, size, size, size, .one⟩ none)
  match (prepared.run.run dispatcher).1 with
  | .ok (engine, panel) =>
    let threads := ThreadBudget.chooseThreads size size size mostThreads
    let alone ← measureSubject dispatcher size level.name ⟨engine, data, panel, size, 1⟩
    let threaded ← measureSubject dispatcher size (threadedName level)
      ⟨engine, data, panel, size, threads⟩
    return [alone, threaded]
  | .error (.refused reason) =>
    IO.println (Listing.skipped level reason)
    return []
  | .error _ => throw (IO.userError "packing panicked")

/-- Measures and lists every method at one size. -/
def measureSize (dispatcher : Dispatcher) (runnable : List Level) (size : Nat) : IO Result := do
  IO.println (Listing.heading size)
  let naive ← measureNaive size
  let levels ← runnable.mapM (measureLevel dispatcher size)
  let entries := naive :: levels.flatten
  for line in Listing.lines entries do IO.println line
  IO.println ""
  return ⟨size, entries⟩

/-- The environment of the running program. -/
def currentEnvironment : IO Environment := do
  return ⟨← IO.getEnv levelVariable, ← IO.getEnv blockRowsVariable⟩

end PanelGemm.Benchmark

open PanelGemm PanelGemm.Benchmark in
/-- Runs the benchmark. -/
def main : IO Unit := do
  let (banner, dispatcher) := Banner.prepare.run (.start platform (← currentEnvironment))
  for line in banner.lines do IO.println line
  IO.println ""
  let results ← sizes.mapM (measureSize dispatcher banner.runnable)
  match Summary.text results sizes with
  | .ok text => IO.print text
  | .error _ => throw (IO.userError "a result lacks a method")
