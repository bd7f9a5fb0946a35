import PanelGemm.Threads.Span
import PanelGemm.Tiling.Step

/-!
# Workers

Row tiles are shared among workers in spans. The output is cut into one band for each worker, from
the first row of its tiles to the first row of the next worker's, so no two workers share an
element. A worker gets its band, its tiles and the row at which its band starts, and leaves an
`Outcome`. `Workers.run` joins them: the bands are put together again, and if any worker fails the
failure of the first one in order is the result, where the panic of a worker is reported with its
number. With one worker the work is done directly on the whole output.

The caller computes the places where it cuts, and the sum of what the workers count, in machine
words. It panics itself if one of these is not to be had.
-/

set_option autoImplicit false
set_option relaxedAutoImplicit false

namespace PanelGemm.Workers

/-- What a worker does with a band, the tiles on it and the row at which it starts. -/
abbrev Work := Array Single → List Tile → Nat → Outcome Nat

/-- The number of workers for a list of tiles: no more than tiles, and at least one. -/
def count (threads : Nat) (tiles : List Tile) : Nat := max (min threads tiles.length) 1

/-- The tiles of one worker. -/
def tilesOf (workers : Nat) (tiles : List Tile) (worker : Nat) : List Tile :=
  (Span.share worker workers tiles.length).slice tiles

/-- The tiles of every worker. -/
def tileSpans (workers : Nat) (tiles : List Tile) : List (List Tile) :=
  (List.range workers).map (tilesOf workers tiles)

/-- The row at which the first of a list of tiles starts. -/
def firstRow (tiles : List Tile) : Nat := (tiles.head?.map Tile.row).getD 0

/-! ### Bands -/

/-- Where an output of a given size is cut in front of the given rows, the previous cut being at an
offset. Behind its end there is nothing to cut, and a cut in front of the previous one is a panic.
-/
def splits (arithmetic : Arithmetic) (size stride offset : Nat) :
    List Nat → Except Failure (List Nat)
  | [] => .ok []
  | row :: rows => do
    let position ← arithmetic.word (row * stride)
    let split := min position size
    panicUnless (offset ≤ split)
    return split :: (← splits arithmetic size stride split rows)

/-- The bands between given places; the first one starts at an offset and the last one goes to the
end. -/
def cut (output : Array Single) (offset : Nat) : List Nat → List (Array Single)
  | [] => [output.extract offset]
  | split :: splits => output.extract offset split :: cut output split splits

/-- The band of every worker. -/
def bands (arithmetic : Arithmetic) (output : Array Single) (stride : Nat)
    (spans : List (List Tile)) : Except Failure (List (Array Single)) :=
  cut output 0 <$> splits arithmetic output.size stride 0 ((spans.drop 1).map firstRow)

/-! ### Results -/

/-- The failure of a worker as its caller sees it. -/
def report (worker : Nat) : Failure → Failure
  | .panicked => .refused (.workerPanicked worker)
  | failure => failure

/-- What the caller keeps of the results that it has joined: the sum of the counts, and the first
failure. -/
structure Tally where
  calls : Except Failure Nat
  failure? : Option Failure

namespace Tally

/-- Nothing is joined yet. -/
def start : Tally := ⟨.ok 0, none⟩

/-- One more result, that of a given worker. -/
def add (arithmetic : Arithmetic) (tally : Tally) (worker : Nat) : Except Failure Nat → Tally
  | .ok calls => { tally with calls := do arithmetic.word ((← tally.calls) + calls) }
  | .error failure => { tally with failure? := tally.failure? <|> some (report worker failure) }

/-- The result once all workers are joined. -/
def result (tally : Tally) : Except Failure Nat := do
  let calls ← tally.calls
  match tally.failure? with
  | some failure => .error failure
  | none => .ok calls

end Tally

/-- The tally with the results of all workers from a given number on. -/
def join (arithmetic : Arithmetic) (tally : Tally) (worker : Nat) :
    List (Except Failure Nat) → Tally
  | [] => tally
  | result :: results =>
    join arithmetic (tally.add arithmetic worker result) (worker + 1) results

/-- The outcome of every worker on its own band. -/
def outcomes (bands : List (Array Single)) (spans : List (List Tile)) (work : Work) :
    List (Outcome Nat) :=
  List.zipWith (fun band tiles ↦ work band tiles (firstRow tiles)) bands spans

/-- The work of several workers joined. -/
def runMany (arithmetic : Arithmetic) (output : Array Single) (stride : Nat)
    (spans : List (List Tile)) (work : Work) : Outcome Nat :=
  match bands arithmetic output stride spans with
  | .error failure => ⟨.error failure, output⟩
  | .ok bands =>
    let outcomes := outcomes bands spans work
    ⟨(join arithmetic .start 0 (outcomes.map Outcome.result)).result,
      outcomes.foldl (fun joined outcome ↦ joined ++ outcome.output) #[]⟩

/-- The work on all tiles, shared among up to `threads` workers. -/
def run (arithmetic : Arithmetic) (output : Array Single) (stride : Nat) (tiles : List Tile)
    (threads : Nat) (work : Work) : Outcome Nat :=
  let workers := count threads tiles
  if workers = 1 then work output tiles 0
  else runMany arithmetic output stride (tileSpans workers tiles) work

end PanelGemm.Workers
