import PanelGemm.Capacity
import PanelGemm.Engine.Request

/-!
# Stages of a span

The tiles of a span are computed one after another in a `Workspace`: a packed strip of the left
operand, a staging area for output that cannot be written in place, and the band of the output
that the span covers. The strip and the staging area are made once for the span, large enough for
its tallest kernel, and used again by every tile. A span may name a kernel that is taller than any
in the table; room for it is asked for, but never used, since its tile is refused.

Each tile goes through the K-blocks in order. Only the first of them sees the caller's `beta`, the
others add to what is there. The kernel writes full column blocks of a full tile straight into the
band. The ragged last column block of such a tile is computed in the staging area and merged into
the band, and so are all column blocks of a masked tile.

Sizes and positions are computed in machine words. Kernel calls are counted without a limit, since
each of them has been made.
-/

set_option autoImplicit false
set_option relaxedAutoImplicit false

namespace PanelGemm

/-- The buffers of one span. -/
structure Workspace where
  strip : Array Single
  staging : Array Single
  band : Array Single

/-- A computation on a workspace that may fail; the workspace is kept as the failure leaves it. -/
abbrev Stage := EStateM Failure Workspace

namespace Stage

/-- A refusal ends the computation. -/
def refuse {α : Type} (reason : Refusal) : Stage α := throw (.refused reason)

/-- The machine word for a count. -/
def word (request : Request) (value : Nat) : Stage Nat := ofExcept (request.word value)

/-- The first elements of a buffer; a buffer that is too short is a panic. -/
def firstElements (buffer : Array Single) (count : Nat) : Stage (Array Single) :=
  if count ≤ buffer.size then pure (buffer.extract 0 count) else throw .panicked

/-- A buffer with its first elements replaced. -/
def withFirst (buffer first : Array Single) : Array Single := first ++ buffer.extract first.size

/-- The output of a kernel; an access outside its buffers is wild. -/
def callKernel (kernel : Kernel) (call : MicroCall) (output : Array Single) :
    Stage (Array Single) :=
  match kernel.run call output with
  | some output => pure output
  | none => throw .wild

end Stage

namespace Engine

open Stage

/-- The element of a strip at a row of a tile and a depth: a scaled element of the left operand in
the rows of the tile, and zero below them. -/
def stripElement (request : Request) (tile : Tile) (start p i : Nat) : Except Failure Single :=
  if i < tile.rows then
    request.alpha.mul <$> request.readLeft (tile.row + i) (start + p)
  else .ok .zero

/-- The strip of a tile for the K-block that starts at a given row. -/
def packedStrip (request : Request) (tile : Tile) (start depth : Nat) :
    Except Failure (Array Single) :=
  List.toArray <$> (List.range (depth * tile.kernelRows)).mapM fun position ↦
    stripElement request tile start (position / tile.kernelRows) (position % tile.kernelRows)

/-- Packs the strip of a tile into the workspace and returns it. There are as many depths in it as
its size has room for. -/
def packStrip (request : Request) (tile : Tile) (start depth : Nat) : Stage (Array Single) := do
  let size ← word request (depth * tile.kernelRows)
  let old ← firstElements (← get).strip size
  let packed ← ofExcept (packedStrip request tile start (size / tile.kernelRows))
  let strip := withFirst old packed
  modify fun workspace ↦ { workspace with strip := withFirst workspace.strip strip }
  return strip

/-- The merge of one staged element into an element of the output. -/
def mergeElement (beta old staged : Single) : Single :=
  if beta.isZero then staged else beta.fma old staged

/-- Merges `width` staged elements, from an offset on, into the elements of the band from a
position on. -/
def mergeElements (beta : Single) (staged : Array Single) (offset width position : Nat)
    (band : Array Single) : Array Single :=
  (List.range width).foldl (fun band j ↦
    band.modify (position + j) fun old ↦
      mergeElement beta old (staged.getD (offset + j) .zero)) band

/-- Merges row `i` of a staged tile into the columns from `first` up to `stop` of the band, where
the tile starts at a given position of the band. -/
def mergeRow (request : Request) (beta : Single) (origin first stop : Nat)
    (staged : Array Single) (stagedStride i : Nat) : Stage Unit := do
  let position ← word request (i * request.outputStride + first)
  let last ← word request (i * request.outputStride + stop)
  if last < position ∨ (← get).band.size < origin + last then throw .panicked
  let offset ← word request (i * stagedStride)
  let width := last - position
  if staged.size < offset + width then throw .panicked
  modify fun workspace ↦ { workspace with
    band := mergeElements beta staged offset width (origin + position) workspace.band }

/-- Merges the rows of a staged tile. -/
def merge (request : Request) (beta : Single) (origin first stop : Nat)
    (staged : Array Single) (stagedStride rows : Nat) : Stage Unit :=
  (List.range rows).forM (mergeRow request beta origin first stop staged stagedStride)

/-- Computes column blocks in the staging area, with rows at a given stride, and returns what is
staged. -/
def stageBlocks (request : Request) (kernel : Kernel) (tile : Tile) (depth : Nat)
    (left right : Array Single) (blocks width stride : Nat) : Stage (Array Single) := do
  let size ← word request (tile.kernelRows * stride)
  let staged ← firstElements (← get).staging size
  let staged ← callKernel kernel ⟨depth, left, right, .zero, 0, stride, blocks, width⟩ staged
  modify fun workspace ↦ { workspace with staging := withFirst workspace.staging staged }
  return staged

/-- Computes column blocks in place. -/
def computeBlocks (kernel : Kernel) (request : Request) (beta : Single) (origin depth : Nat)
    (left right : Array Single) (blocks width : Nat) : Stage Unit := do
  let band ← callKernel kernel
    ⟨depth, left, right, beta, origin, request.outputStride, blocks, width⟩ (← get).band
  modify fun workspace ↦ { workspace with band }

/-- One tile in one K-block: what its kernel calls have in common. -/
structure Pass where
  kernel : Kernel
  tile : Tile
  /-- The position of the first element of the tile in the band. -/
  origin : Nat
  /-- The factor of the old output in this K-block. -/
  beta : Single
  /-- The number of rows of the K-block. -/
  depth : Nat
  /-- The packed strip of the left operand. -/
  left : Array Single
  /-- The storage of the K-block. -/
  right : Array Single

/-- The number of column blocks that are not ragged. -/
def fullBlocks (request : Request) : Nat := request.n / request.panel.width

/-- All column blocks of a masked tile, by way of the staging area. -/
def runMasked (request : Request) (pass : Pass) : Stage Nat := do
  let blocks := request.panel.shape.columnBlocks
  let width := request.panel.width
  let stride ← word request (blocks * width)
  let staged ← stageBlocks request pass.kernel pass.tile pass.depth pass.left pass.right blocks
    width stride
  merge request pass.beta pass.origin 0 request.n staged stride pass.tile.rows
  return 1

/-- The full column blocks of a full tile, in place. -/
def runFull (request : Request) (pass : Pass) : Stage Nat :=
  if 0 < fullBlocks request then do
    computeBlocks pass.kernel request pass.beta pass.origin pass.depth pass.left pass.right
      (fullBlocks request) request.panel.width
    return 1
  else return 0

/-- The ragged last column block of a full tile, by way of the staging area. -/
def runRagged (request : Request) (pass : Pass) : Stage Nat :=
  let blocks := fullBlocks request
  let width := request.panel.width
  if blocks < request.panel.shape.columnBlocks then do
    let first ← word request (blocks * pass.depth * width)
    if pass.right.size < first then throw .panicked
    let staged ← stageBlocks request pass.kernel pass.tile pass.depth pass.left
      (pass.right.extract first) 1 width width
    merge request pass.beta pass.origin (blocks * width) request.n staged width pass.tile.rows
    return 1
  else return 0

/-- Computes a tile in one K-block and returns the number of kernel calls. -/
def runPass (request : Request) (pass : Pass) : Stage Nat :=
  if pass.tile.isMasked then runMasked request pass
  else do
    let direct ← runFull request pass
    let ragged ← runRagged request pass
    return direct + ragged

/-- The factor of the old output in the K-block that starts at a given row. -/
def blockBeta (request : Request) (start : Nat) : Single :=
  if start = 0 then request.beta else .one

/-- Packs the strip of a tile for the K-block that starts at a given row and computes the tile in
it. The number of rows of the K-block is read off its storage. -/
def runBlock (request : Request) (kernel : Kernel) (tile : Tile) (origin start : Nat) :
    Stage Nat := do
  let right ← ofExcept (request.panel.readBlock request.arithmetic start)
  let padded ← word request request.panel.shape.paddedColumns
  if padded = 0 then throw .panicked
  let depth := right.size / padded
  let left ← packStrip request tile start depth
  runPass request ⟨kernel, tile, origin, blockBeta request start, depth, left, right⟩

/-- Refuses a tile. -/
def misplaced {α : Type} (tile : Tile) (fault : TileFault) : Stage α :=
  refuse (.misplacedTile tile.row tile.rows fault)

/-- Checks that a tile has rows and that they lie in the band, which starts at a given row, and
returns the position of its first element. -/
def placeTile (request : Request) (firstRow : Nat) (tile : Tile) : Stage Nat := do
  if tile.row < firstRow then misplaced tile .beforeBand
  if tile.rows = 0 then misplaced tile .empty
  let row := tile.row - firstRow
  let needed ← word request ((row + tile.rows - 1) * request.outputStride + request.n)
  let size := (← get).band.size
  if size < needed then misplaced tile (.beyondBand needed size)
  let origin ← word request (row * request.outputStride)
  if size < origin then throw .panicked
  return origin

/-- Computes a tile and returns the number of kernel calls. -/
def runTile (engine : Engine) (request : Request) (firstRow : Nat) (tile : Tile) : Stage Nat := do
  let kernel ← ofExcept (Refusal.check (engine.family.kernel tile.kernelRows))
  let origin ← placeTile request firstRow tile
  request.panel.shape.blockStarts.foldlM (fun calls start ↦ do
    return calls + (← runBlock request kernel tile origin start)) 0

/-- The tallest kernel of a span. -/
def tallest (tiles : List Tile) : Nat :=
  tiles.foldl (fun height tile ↦ max height tile.kernelRows) 0

/-- The width of the staging area: masked tiles stage every column block, full ones only a ragged
last one. -/
def stagingWidth (request : Request) (tiles : List Tile) : Nat :=
  let panel := request.panel
  if tiles.any Tile.isMasked then panel.shape.columnBlocks * panel.width
  else if fullBlocks request < panel.shape.columnBlocks then panel.width
  else 0

/-- The greatest number of rows of a K-block. -/
def stripDepth (request : Request) : Nat := min request.panel.shape.blockRows request.k

/-- A buffer with room for a number of columns in each row of the tallest kernel of a span. Kernels
that are taller than the table do not get to use theirs. -/
def rowBuffer (engine : Engine) (request : Request) (tiles : List Tile) (columns : Nat) :
    Except Failure (Array Single) := do
  let size ← request.word (tallest tiles * columns)
  Capacity.reserve Capacity.singleBytes size
  return Array.replicate (min size (engine.family.table.tallest * columns)) .zero

/-- The workspace of a span with a given band. -/
def workspace (engine : Engine) (request : Request) (tiles : List Tile) (band : Array Single) :
    Except Failure Workspace := do
  let strip ← engine.rowBuffer request tiles (stripDepth request)
  let width ← request.word (stagingWidth request tiles)
  let staging ← engine.rowBuffer request tiles width
  return ⟨strip, staging, band⟩

/-- Computes the tiles of a span one after another and returns the number of kernel calls. -/
def runTiles (engine : Engine) (request : Request) (firstRow : Nat) (tiles : List Tile) :
    Stage Nat :=
  tiles.foldlM (fun calls tile ↦ do
    return calls + (← runTile engine request firstRow tile)) 0

/-- Computes the tiles of a span on a band that starts at a given row. -/
def runSpan (engine : Engine) (request : Request) (band : Array Single) (tiles : List Tile)
    (firstRow : Nat) : Outcome Nat :=
  match workspace engine request tiles band with
  | .error failure => ⟨.error failure, band⟩
  | .ok workspace =>
    match (runTiles engine request firstRow tiles).run workspace with
    | .ok calls workspace => ⟨.ok calls, workspace.band⟩
    | .error failure workspace => ⟨.error failure, workspace.band⟩

end Engine

end PanelGemm
