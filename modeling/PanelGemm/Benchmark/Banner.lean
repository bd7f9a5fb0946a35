import PanelGemm.Dispatch.Service

/-!
# The banner of the benchmark

Before it measures, the benchmark says which level is dispatched for, or why there is
none, and which levels the host can run whatever the configuration says. To find these it makes
their engines, which the dispatcher reports.
-/

set_option autoImplicit false
set_option relaxedAutoImplicit false

namespace PanelGemm.Benchmark

/-- What the benchmark says before it measures. -/
structure Banner where
  /-- The decided level, or the reason why there is none. -/
  decided : Except Refusal Level
  /-- The levels that an engine can be made for. -/
  runnable : List Level

namespace Banner

/-- Makes an engine for every level that allows it, and then decides on a level. -/
def prepare : Dispatch Banner := do
  let runnable ← Level.all.filterM Engine.isRunnable
  return ⟨← Dispatcher.level, runnable⟩

/-- The words for the decided level. -/
def levelWords (banner : Banner) : String :=
  match banner.decided with
  | .ok level => level.name
  | .error reason => s!"unavailable ({reason.message})"

/-- The lines of a banner. -/
def lines (banner : Banner) : List String :=
  ["=== Dispatched SGEMM Benchmark ===", "", "Dispatch level: " ++ banner.levelWords,
    "Runnable levels: " ++ ", ".intercalate (banner.runnable.map Level.name)]

end Banner

end PanelGemm.Benchmark
