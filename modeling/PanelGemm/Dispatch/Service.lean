import PanelGemm.Dispatch.Dispatcher
import PanelGemm.Engine.Run
import PanelGemm.Threads.Budget

/-!
# Dispatched calls

The calls that go through the dispatcher: engines for a level or for the decided one, packing, and
products on operands whose buffers hold exactly their elements. Products with a packed operand take
the level from the panel; `multiply` adds the product of two plain operands to the output, packs for
the decided level and chooses the number of threads by the size of the product. Extents of the
dense calls are signed, and a negative one is refused by name.
-/

set_option autoImplicit false
set_option relaxedAutoImplicit false

namespace PanelGemm

namespace Engine

/-- The engine for a level: scalar kernels for the baseline, and for any other level the kernels
built in for it, if the host can execute them. -/
def ofLevel (level : Level) : Attempt Engine := do
  if level = .baseline then return scalar
  if !(← Dispatcher.host).supports level then throw (.refused (.unsupportedLevel level))
  let family ← Attempt.ofExcept (Family.lookup level)
  Dispatcher.report (.selected level family.table.tallest family.blockWidth)
  return ⟨family⟩

/-- The engine for the decided level. -/
def detected : Attempt Engine := do
  ofLevel (← Attempt.ofDispatch Dispatcher.level)

/-- Whether an engine for a level can be made. -/
def isRunnable (level : Level) : Dispatch Bool := Except.isOk <$> (ofLevel level).run

/-- The product on up to `threads` threads, reported unless there was nothing to compute. -/
def runReported (engine : Engine) (request : Request) (output : Array Single) (threads : Nat) :
    Dispatch (Outcome RunStats) := do
  let outcome := engine.run request output threads
  match outcome.result with
  | .ok stats =>
    if !request.isEmpty then
      Dispatcher.report (.computed engine.level request.m request.n request.k stats.tiles
        stats.kernelCalls threads)
  | .error _ => pure ()
  return outcome

end Engine

namespace Panel

/-- Packs for a level, with K-blocks of a given height or, without one, of the configured height,
and reports the panel. -/
def packWith (level : Level) (source : Packing.Source) (blockRows? : Option Nat) :
    Attempt Panel := do
  let blockRows ← match blockRows? with
    | some rows => pure rows
    | none => Config.blockRows <$> Attempt.ofDispatch Dispatcher.config
  let panel ← Attempt.ofFailing (Panel.pack (← Dispatcher.arithmetic) level source blockRows)
  Dispatcher.report (.packed panel.rows panel.columns level panel.shape.columnBlocks panel.width)
  return panel

end Panel

namespace Dense

/-- A signed extent as a natural one. -/
def extent (name : String) (value : Int) : Except Refusal Nat :=
  if value < 0 then .error (.negativeExtent name value) else .ok value.toNat

/-- Checks that a buffer has exactly the size of an operand. -/
def checkSize (arithmetic : Arithmetic) (operand : Operand) (size rows columns : Nat) :
    Except Failure Unit := do
  let needed ← arithmetic.word (rows * columns)
  if size = needed then return ()
  else .error (.refused (.shapeMismatch (.operandSize operand rows columns needed size)))

/-- Packs a row-major operand for the decided level with the configured block height. -/
def pack (data : Array Single) (k n : Int) (stride : Nat) : Attempt Panel := do
  let rows ← Attempt.ofExcept (extent "k" k)
  let columns ← Attempt.ofExcept (extent "n" n)
  let level ← Attempt.ofDispatch Dispatcher.level
  Panel.packWith level ⟨data, .plain, stride, rows, columns, .one⟩ none

/-- Checks that both buffers have exactly the size of their operands. -/
def checkOperands (arithmetic : Arithmetic) (m : Nat) (left : Array Single) (panel : Panel)
    (output : Array Single) : Except Failure Unit := do
  checkSize arithmetic .a left.size m panel.rows
  checkSize arithmetic .c output.size m panel.columns

/-- The request for a product of dense operands. -/
def request (arithmetic : Arithmetic) (orientation : Orientation) (m : Nat) (left : Array Single)
    (panel : Panel) (beta : Single) : Request where
  arithmetic := arithmetic
  m := m
  left := left
  orientation := orientation
  leftStride := orientation.storedColumns m panel.rows
  panel := panel
  outputStride := panel.columns
  alpha := .one
  beta := beta

/-- An attempt to prepare a call, and the call itself; a failed attempt leaves the output alone. -/
def prepared {α β : Type} (attempt : Attempt α) (output : Array Single)
    (call : α → Dispatch (Outcome β)) : Dispatch (Outcome β) := do
  match ← attempt.run with
  | .ok value => call value
  | .error failure => return ⟨.error failure, output⟩

/-- `C = op(A) * B + beta * C` for the row tiles of one thread among several. -/
def gemm (orientation : Orientation) (m : Int) (left : Array Single) (panel : Panel)
    (beta : Single) (output : Array Single) (thread threads : Nat) :
    Dispatch (Outcome RunStats) := do
  let arithmetic ← Dispatcher.arithmetic
  let attempt : Attempt (Nat × ThreadSlot × Engine) := do
    let rows ← Attempt.ofExcept (extent "m" m)
    let slot ← Attempt.ofExcept (ThreadSlot.make thread threads)
    Attempt.ofFailing (checkOperands arithmetic rows left panel output)
    return (rows, slot, ← Engine.ofLevel panel.level)
  prepared attempt output fun (rows, slot, engine) ↦
    return engine.runShare (request arithmetic orientation rows left panel beta) output slot

/-- `C = op(A) * B + beta * C` on up to `threads` threads. -/
def gemmParallel (orientation : Orientation) (m : Int) (left : Array Single) (panel : Panel)
    (beta : Single) (output : Array Single) (threads : Nat) : Dispatch (Outcome RunStats) := do
  let arithmetic ← Dispatcher.arithmetic
  let attempt : Attempt (Nat × Engine) := do
    let rows ← Attempt.ofExcept (extent "m" m)
    Attempt.ofFailing (checkOperands arithmetic rows left panel output)
    return (rows, ← Engine.ofLevel panel.level)
  prepared attempt output fun (rows, engine) ↦
    engine.runReported (request arithmetic orientation rows left panel beta) output threads

/-- `C = C + A * B` on up to `threads` threads, fewer for a small product. -/
def multiply (left right output : Array Single) (m n k threads : Nat) :
    Dispatch (Outcome RunStats) := do
  let arithmetic ← Dispatcher.arithmetic
  let attempt : Attempt (Panel × Engine) := do
    Attempt.ofFailing (checkSize arithmetic .a left.size m k)
    Attempt.ofFailing (checkSize arithmetic .b right.size k n)
    Attempt.ofFailing (checkSize arithmetic .c output.size m n)
    let level ← Attempt.ofDispatch Dispatcher.level
    let panel ← Panel.packWith level ⟨right, .plain, n, k, n, .one⟩ none
    return (panel, ← Engine.ofLevel level)
  prepared attempt output fun (panel, engine) ↦
    engine.runReported (request arithmetic .plain m left panel .one) output
      (ThreadBudget.chooseThreads m n k threads)

end Dense

end PanelGemm
