import PanelGemm.Engine.Stage
import PanelGemm.Threads.Workers

/-!
# Running a request

`Engine.run` computes a whole product on up to a given number of threads, and `Engine.runShare`
the tiles of one thread among several on the whole output. Both check the request before they
touch the output and leave it alone if there is nothing to compute.
-/

set_option autoImplicit false
set_option relaxedAutoImplicit false

namespace PanelGemm

/-- What a run has done: the row tiles it covered and the kernel calls it made. -/
structure RunStats where
  tiles : Nat
  kernelCalls : Nat
  deriving DecidableEq

namespace Engine

/-- A call that ends before it touches the output. -/
def untouched {α : Type} (result : Except Failure α) (output : Array Single) : Outcome α :=
  ⟨result, output⟩

/-- The run of a checked request that has something to compute. -/
def runChecked (engine : Engine) (request : Request) (output : Array Single) (threads : Nat) :
    Outcome RunStats :=
  match engine.family.tiles request.arithmetic request.m with
  | .error failure => untouched (.error failure) output
  | .ok tiles =>
    (Workers.run request.arithmetic output request.outputStride tiles threads
      (engine.runSpan request)).map fun calls ↦ ⟨tiles.length, calls⟩

/-- The product on up to `threads` threads. -/
def run (engine : Engine) (request : Request) (output : Array Single) (threads : Nat) :
    Outcome RunStats :=
  if threads = 0 then untouched (.error (.refused (.shapeMismatch .zeroThreads))) output
  else
    match engine.check request output.size with
    | .error failure => untouched (.error failure) output
    | .ok () =>
      if request.isEmpty then untouched (.ok ⟨0, 0⟩) output
      else engine.runChecked request output threads

/-- The tiles of one thread among several. -/
def sharedTiles (engine : Engine) (request : Request) (slot : ThreadSlot) :
    Except Failure (List Tile) := do
  let tiles ← engine.family.tiles request.arithmetic request.m
  let span ← slot.span request.arithmetic tiles.length
  span.slice? tiles

/-- The share of one thread of a checked request that has something to compute. -/
def runShareChecked (engine : Engine) (request : Request) (output : Array Single)
    (slot : ThreadSlot) : Outcome RunStats :=
  match engine.sharedTiles request slot with
  | .error failure => untouched (.error failure) output
  | .ok share => (engine.runSpan request output share 0).map fun calls ↦ ⟨share.length, calls⟩

/-- The share of one thread among several. -/
def runShare (engine : Engine) (request : Request) (output : Array Single) (slot : ThreadSlot) :
    Outcome RunStats :=
  match engine.check request output.size with
  | .error failure => untouched (.error failure) output
  | .ok () =>
    if request.isEmpty then untouched (.ok ⟨0, 0⟩) output
    else engine.runShareChecked request output slot

end Engine

end PanelGemm
