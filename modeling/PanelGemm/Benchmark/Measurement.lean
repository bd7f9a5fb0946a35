import PanelGemm.Capacity
import PanelGemm.Dispatch.Service

/-!
# Measurements

One measured call computes a product on a fresh output, `C = A * B` with dense operands, and puts
a refusal into words in place of stopping; the dispatcher reports it like any other product. A
measurement makes one call to warm up and then as many as asked for; `Figures.ofElapsed` turns the
seconds that these took into the average time of a call and the operations per second. Without any
timed call both figures are no numbers.
-/

set_option autoImplicit false
set_option relaxedAutoImplicit false

namespace PanelGemm.Benchmark

/-- A product that is measured. -/
structure Subject where
  engine : Engine
  left : Array Single
  panel : Panel
  m : Nat
  threads : Nat

namespace Subject

/-- The request of a measured product. -/
def request (arithmetic : Arithmetic) (subject : Subject) : Request where
  arithmetic := arithmetic
  m := subject.m
  left := subject.left
  orientation := .plain
  leftStride := subject.panel.rows
  panel := subject.panel
  outputStride := subject.panel.columns
  alpha := .one
  beta := .zero

/-- The complaint about a refused call. -/
def complaint (subject : Subject) (reason : Refusal) : String :=
  s!"{subject.engine.level.name} run failed: {reason.message}\n"

/-- One call on a given output: the complaint, empty if the call succeeds, and the output. -/
def call (subject : Subject) (output : Array Single) : Dispatch (Outcome String) := do
  let request := subject.request (← Dispatcher.arithmetic)
  let outcome ← subject.engine.runReported request output subject.threads
  let complaint := match outcome.result with
    | .ok _ => .ok ""
    | .error (.refused reason) => .ok (subject.complaint reason)
    | .error failure => .error failure
  return ⟨complaint, outcome.output⟩

/-- The output before a measured call. -/
def freshOutput (arithmetic : Arithmetic) (subject : Subject) : Except Failure (Array Single) := do
  Capacity.zeros (← arithmetic.word (subject.m * subject.panel.columns))

/-- A call on a fresh output: the output before and after it, and the complaint. -/
def freshCall (subject : Subject) : Attempt ((Array Single × Array Single) × String) := do
  let output ← Attempt.ofFailing (subject.freshOutput (← Dispatcher.arithmetic))
  let outcome ← subject.call output
  let complaint ← Attempt.ofFailing outcome.result
  return ((output, outcome.output), complaint)

/-- The outputs before and after every call of a measurement, the one to warm up first, and the
complaints about all of them. -/
def calls (subject : Subject) (iterations : Nat) :
    Attempt (List (Array Single × Array Single) × String) := do
  let first ← subject.freshCall
  let timed ← (List.replicate iterations subject).mapM freshCall
  let runs := first :: timed
  return (runs.map Prod.fst, String.join (runs.map Prod.snd))

end Subject

/-- The average time of a call, in milliseconds, and the billions of operations per second. -/
structure Figures where
  milliseconds : Double
  gflops : Double

/-- The figures of an `m × k` by `k × n` product whose timed calls took the given seconds. -/
def Figures.ofElapsed (arithmetic : Arithmetic) (m n k : Nat) (seconds : List Double) :
    Except Failure Figures := do
  let total := seconds.foldl Binary.add .zero
  let average := total.div (.ofNat seconds.length)
  let operations := (Binary.ofNat 2).mul (.ofNat (← arithmetic.word (m * n * k)))
  return ⟨average.mul (.ofNat 1000), (operations.div average).div (.ofNat 1000000000)⟩

end PanelGemm.Benchmark
