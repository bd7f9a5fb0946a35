import Mathlib.Data.List.Perm.Basic
import Mathlib.Logic.Relation
import PanelGemm.Engine.Run
import PanelGemm.Proofs.Engine.Stack
import PanelGemm.Proofs.Threads.Cuts

/-!
# Workers side by side

`Workers.run` lets one worker finish before the next one starts. A `Crew` is the same work in any
order: its workers share the output, each has a window of it and buffers of its own, and in one step
any worker that has a tile left computes it on its window (`Crew.Step`). A crew is finished when no
tile is left.

What a crew has done to the output so far is a trace of tiles, in the order of its steps. As the
tiles are stacked the order does not matter (`tilesRewrite_perm`), so `Crew.Consistent`, which a
step preserves, only counts them.
-/

set_option autoImplicit false
set_option relaxedAutoImplicit false

namespace PanelGemm

open Workers

/-- A worker in the middle of its work. -/
structure Worker where
  /-- The elements of the output that the worker may touch. -/
  window : Span
  /-- The row at which the window starts. -/
  firstRow : Nat
  strip : Array Single
  staging : Array Single
  /-- The tiles that are computed. -/
  done : List Tile
  /-- The tiles that are left. -/
  pending : List Tile
  /-- The number of kernel calls so far, or the failure that ended the work. -/
  result : Except Failure Nat

/-- Workers that share an output, and the number of tiles that they have together. -/
structure Crew where
  tiles : Nat
  output : Array Single
  workers : List Worker

namespace Worker

/-- All tiles of a worker. -/
def span (worker : Worker) : List Tile := worker.done ++ worker.pending

/-- What a worker sees of the output. -/
def band (worker : Worker) (output : Array Single) : Array Single :=
  output.extract worker.window.start worker.window.stop

/-- The output with the window of a worker replaced. -/
def putBack (worker : Worker) (output band : Array Single) : Array Single :=
  output.extract 0 worker.window.start ++ band ++ output.extract worker.window.stop

/-- A worker that has computed a tile on its window, and the output after that. After a failure the
worker leaves its other tiles alone. -/
def compute (engine : Engine) (request : Request) (worker : Worker) (tile : Tile)
    (rest : List Tile) (output : Array Single) : Worker × Array Single :=
  match (engine.runTile request worker.firstRow tile).run
      ⟨worker.strip, worker.staging, worker.band output⟩ with
  | .ok calls next =>
    (⟨worker.window, worker.firstRow, next.strip, next.staging, worker.done ++ [tile], rest,
      (· + calls) <$> worker.result⟩, worker.putBack output next.band)
  | .error failure next =>
    (⟨worker.window, worker.firstRow, next.strip, next.staging, worker.done, [],
      .error failure⟩, worker.putBack output next.band)

end Worker

namespace Crew

/-- Any worker that has a tile left computes it. -/
inductive Step (engine : Engine) (request : Request) : Crew → Crew → Prop
  | compute (tiles : Nat) (output : Array Single) (before : List Worker) (worker : Worker)
      (after : List Worker) (tile : Tile) (rest : List Tile)
      (hpending : worker.pending = tile :: rest) :
      Step engine request ⟨tiles, output, before ++ worker :: after⟩
        ⟨tiles, (worker.compute engine request tile rest output).2,
          before ++ (worker.compute engine request tile rest output).1 :: after⟩

/-- A crew that comes from another one by any number of steps. -/
def Reaches (engine : Engine) (request : Request) : Crew → Crew → Prop :=
  Relation.ReflTransGen (Step engine request)

/-- A crew without a tile left. -/
def Finished (crew : Crew) : Prop := ∀ worker ∈ crew.workers, worker.pending = []

/-- The joined results of the workers; a single worker does the work of the caller. -/
def result (arithmetic : Arithmetic) (crew : Crew) : Except Failure Nat :=
  match crew.workers with
  | [worker] => worker.result
  | workers => (Workers.join arithmetic .start 0 (workers.map Worker.result)).result

/-- What a finished crew leaves to the caller. -/
def outcome (arithmetic : Arithmetic) (crew : Crew) : Outcome RunStats :=
  ⟨(fun calls ↦ ⟨crew.tiles, calls⟩) <$> crew.result arithmetic, crew.output⟩

end Crew

/-! ### The crew of a run -/

namespace Workers

/-- The windows between given places; the first one starts at an offset and the last one goes to the
end. -/
def windows (size offset : Nat) : List Nat → List Span
  | [] => [⟨offset, size⟩]
  | split :: splits => ⟨offset, split⟩ :: windows size split splits

/-- The bands that the output is cut into are what lies in the windows. -/
theorem cut_eq_windows (output : Array Single) (offset : Nat) (splits : List Nat) :
    cut output offset splits = (windows output.size offset splits).map fun window ↦
      output.extract window.start window.stop := by
  induction splits generalizing offset with
  | nil => rfl
  | cons split splits ih =>
    rw [cut, windows, List.map_cons, ih]

end Workers

namespace Engine

/-- A worker before its first tile, with the buffers that a span asks for. -/
def recruit (engine : Engine) (request : Request) (window : Span) (row : Nat)
    (tiles : List Tile) : Worker :=
  match workspace engine request tiles #[] with
  | .ok buffers => ⟨window, row, buffers.strip, buffers.staging, [], tiles, .ok 0⟩
  | .error failure => ⟨window, row, #[], #[], [], [], .error failure⟩

/-- The workers for spans of tiles, each with its window. -/
def recruits (engine : Engine) (request : Request) (windows : List Span)
    (spans : List (List Tile)) : List Worker :=
  List.zipWith (fun window tiles ↦ engine.recruit request window (firstRow tiles) tiles)
    windows spans

/-- The workers for the tiles of a run; a single one has the whole output. -/
def workers (engine : Engine) (request : Request) (size : Nat) (tiles : List Tile)
    (threads : Nat) : Except Failure (List Worker) :=
  if count threads tiles = 1 then .ok [engine.recruit request ⟨0, size⟩ 0 tiles]
  else do
    let spans := tileSpans (count threads tiles) tiles
    let splits ← splits request.arithmetic size request.outputStride 0
      ((spans.drop 1).map firstRow)
    return engine.recruits request (windows size 0 splits) spans

/-- The crew that a run of a request that passes its check starts with. There is nobody to do
nothing. -/
def crew (engine : Engine) (request : Request) (output : Array Single) (threads : Nat) :
    Except Failure Crew :=
  if request.isEmpty then .ok ⟨0, output, []⟩
  else do
    let tiles ← engine.family.tiles request.arithmetic request.m
    return ⟨tiles.length, output, ← engine.workers request output.size tiles threads⟩

end Engine

namespace Engine

variable {engine : Engine} {request : Request} {tile other : Tile} {tiles trace : List Tile}
  {row stop : Nat}

/-! ### Tiles in any order -/

/-- Two tiles of a stack are the same, or one lies above the other. -/
theorem above_or_below (hstacked : Stacked row tiles stop) (htile : tile ∈ tiles)
    (hother : other ∈ tiles) : tile = other ∨ tile.stop ≤ other.row ∨ other.stop ≤ tile.row := by
  induction tiles generalizing row with
  | nil => exact nomatch htile
  | cons first tiles ih =>
    have hbelow := hstacked.2.bounds.2
    rcases List.mem_cons.mp htile with rfl | htile'
    · rcases List.mem_cons.mp hother with rfl | hother'
      · exact .inl rfl
      · exact .inr (.inl (hbelow other hother').1)
    · rcases List.mem_cons.mp hother with rfl | hother'
      · exact .inr (.inr (hbelow tile htile').1)
      · exact ih hstacked.2 htile' hother'

/-- Two tiles of a stack can be computed in either order. -/
theorem tileRewrite_comm (hstride : request.n ≤ request.outputStride)
    (hstacked : Stacked row tiles stop) (htile : tile ∈ tiles) (hother : other ∈ tiles) (q : Nat)
    (x : Single) :
    tileRewrite engine request other q (tileRewrite engine request tile q x) =
      tileRewrite engine request tile q (tileRewrite engine request other q x) := by
  have hkept : ∀ {upper lower : Tile}, upper.stop ≤ lower.row →
      (∀ x, tileRewrite engine request upper q x = x) ∨
        ∀ x, tileRewrite engine request lower q x = x := by
    intro upper lower hle
    have hmul := Nat.mul_le_mul_right request.outputStride hle
    rcases Nat.lt_or_ge q (lower.row * request.outputStride) with hq | hq
    · exact .inr (tileRewrite_of_lt hq)
    · exact .inl (tileRewrite_of_le hstride (Nat.le_trans hmul hq))
  rcases above_or_below hstacked htile hother with rfl | hle | hle
  · rfl
  · rcases hkept hle with hsame | hsame
    · rw [hsame, hsame]
    · rw [hsame, hsame]
  · rcases hkept hle with hsame | hsame
    · rw [hsame, hsame]
    · rw [hsame, hsame]

/-- The tiles of a stack can be computed in any order. -/
theorem tilesRewrite_perm (hstride : request.n ≤ request.outputStride)
    (hstacked : Stacked row tiles stop) (hperm : trace.Perm tiles) (q : Nat) (x : Single) :
    tilesRewrite engine request trace q x = tilesRewrite engine request tiles q x := by
  refine hperm.foldl_eq' (fun tile htile other hother x ↦ ?_) x
  exact tileRewrite_comm hstride hstacked (hperm.mem_iff.mp htile) (hperm.mem_iff.mp hother) q x

/-! ### What a step preserves -/

/-- A worker that is on its way through sound tiles: its result counts the calls of the tiles that
are done, its buffers have room for all of its tiles, and its window holds their rows. -/
structure OnTheWay (engine : Engine) (request : Request) (size : Nat) (worker : Worker) : Prop where
  sound : ∀ tile ∈ worker.span, engine.SoundTile request tile
  result : worker.result = .ok (worker.done.map (tileCalls request)).sum
  room : HasRoom request worker.span
  strip : worker.strip.size = (spanRoom engine request worker.span 0).strip
  staging : worker.staging.size = (spanRoom engine request worker.span 0).staging
  start : worker.window.start = worker.firstRow * request.outputStride
  start_le : worker.window.start ≤ worker.window.stop
  stop_le : worker.window.stop ≤ size
  firstRow : ∀ tile ∈ worker.span, worker.firstRow ≤ tile.row
  rows : ∀ tile ∈ worker.span, ∀ i < tile.stop,
    i * request.outputStride + request.n ≤ worker.window.stop

variable {worker : Worker} {output : Array Single} {f : Nat → Single → Single} {size : Nat}
  {rest : List Tile}

/-- An elementwise computation on a window that keeps everything outside of it is one on the whole
output. -/
theorem putBack_mapIdx (hstart : worker.window.start ≤ worker.window.stop)
    (hstop : worker.window.stop ≤ output.size)
    (hbefore : ∀ q < worker.window.start, ∀ x, f q x = x)
    (hbehind : ∀ q, worker.window.stop ≤ q → ∀ x, f q x = x) :
    worker.putBack output ((worker.band output).mapIdx fun q ↦ f (worker.window.start + q)) =
      output.mapIdx f :=
  splice_mapIdx hstart hstop hbefore hbehind

namespace OnTheWay

variable (hworker : OnTheWay engine request size worker)
include hworker

/-- A tile of a worker keeps everything outside of the window of the worker. -/
theorem tile_kept (htile : tile ∈ worker.span) :
    (∀ q < worker.window.start, ∀ x, tileRewrite engine request tile q x = x) ∧
      ∀ q, worker.window.stop ≤ q → ∀ x, tileRewrite engine request tile q x = x := by
  constructor
  · intro q hq
    have hrow := Nat.mul_le_mul_right request.outputStride (hworker.firstRow tile htile)
    rw [hworker.start] at hq
    exact tileRewrite_of_lt (Nat.lt_of_lt_of_le hq hrow)
  · intro q hq x
    refine Window.rewrite_of_forall_ne (fun i hi j hj hposition ↦ ?_) x
    have hrow := hworker.rows tile htile (tile.row + i) (Nat.add_lt_add_left hi _)
    rw [Nat.add_mul] at hrow
    omega

/-- The buffers of a worker are counted in words, and so is its band of an output. -/
theorem countable_buffers (hresident : request.Resident size) :
    Room.Countable ⟨worker.strip.size, worker.staging.size, (worker.band output).size⟩ := by
  have hlimit := hresident.size_lt
  have hband : (worker.band output).size < Word.limit := by
    have hle := hworker.stop_le
    rw [Worker.band, Array.size_extract]
    omega
  have hcount := hworker.room.countable_spanRoom engine hband
  exact ⟨hworker.strip ▸ hcount.strip, hworker.staging ▸ hcount.staging, hband⟩

/-- A worker computes a tile on its window as it is computed on the whole output. -/
theorem runTile_rewrites (hadmits : engine.Admits request size) (htile : tile ∈ worker.span)
    (hsize : output.size = size) :
    (engine.runTile request worker.firstRow tile).Rewrites
      ⟨worker.strip.size, worker.staging.size, (worker.band output).size⟩
      (· = tileCalls request tile)
      fun q ↦ tileRewrite engine request tile (worker.window.start + q) := by
  have hsound := hworker.sound tile htile
  have hbuffers := span_room request 0 htile hsound.holds
  have hwindow : worker.firstRow * request.outputStride + (worker.band output).size =
      worker.window.stop := by
    rw [Worker.band, Array.size_extract, Nat.min_eq_left (hsize ▸ hworker.stop_le),
      ← hworker.start, Nat.add_sub_of_le hworker.start_le]
  have hfits : engine.FittingTile request worker.firstRow (worker.band output).size tile :=
    hsound.fitting (hworker.firstRow tile htile) fun i hi ↦ hwindow ▸ hworker.rows tile htile i hi
  rw [hworker.start]
  exact Engine.runTile_rewrites hadmits (hworker.countable_buffers hadmits.resident) hfits
    (hsound.supplies hadmits) (hworker.firstRow tile htile) (hworker.strip ▸ hbuffers.1)
    (hworker.staging ▸ hbuffers.2)

/-- A worker that has its next tile done is still on its way, if its buffers keep their sizes. -/
theorem advance (hpending : worker.pending = tile :: rest) {strip staging : Array Single}
    (hstrip : strip.size = worker.strip.size) (hstaging : staging.size = worker.staging.size) :
    OnTheWay engine request size ⟨worker.window, worker.firstRow, strip, staging,
      worker.done ++ [tile], rest,
      .ok ((worker.done.map (tileCalls request)).sum + tileCalls request tile)⟩ := by
  have hspan : worker.done ++ [tile] ++ rest = worker.span := by
    rw [Worker.span, hpending, List.append_assoc, List.singleton_append]
  refine ⟨?_, ?_, ?_, ?_, ?_, hworker.start, hworker.start_le, hworker.stop_le, ?_, ?_⟩
  · rw [Worker.span, hspan]
    exact hworker.sound
  · rw [List.map_append, List.sum_append, List.map_singleton, List.sum_singleton]
  · rw [Worker.span, hspan]
    exact hworker.room
  · rw [Worker.span, hspan, ← hworker.strip]
    exact hstrip
  · rw [Worker.span, hspan, ← hworker.staging]
    exact hstaging
  · rw [Worker.span, hspan]
    exact hworker.firstRow
  · rw [Worker.span, hspan]
    exact hworker.rows

end OnTheWay

/-- The next tile of a worker on its way is computed, and the output changes as the tile says. -/
theorem compute_eq (hadmits : engine.Admits request size)
    (hworker : OnTheWay engine request size worker) (hpending : worker.pending = tile :: rest)
    (hsize : output.size = size) :
    OnTheWay engine request size (worker.compute engine request tile rest output).1 ∧
      (worker.compute engine request tile rest output).1.done = worker.done ++ [tile] ∧
      (worker.compute engine request tile rest output).1.pending = rest ∧
      (worker.compute engine request tile rest output).2 =
        output.mapIdx (tileRewrite engine request tile) := by
  have hmem : tile ∈ worker.span := by
    rw [Worker.span, hpending]
    simp
  obtain ⟨hbefore, hbehind⟩ := hworker.tile_kept hmem
  obtain ⟨calls, next, hrun, hcalls, hnext, hband⟩ :=
    hworker.runTile_rewrites hadmits hmem hsize ⟨worker.strip, worker.staging, worker.band output⟩
      rfl
  have hcompute : worker.compute engine request tile rest output =
      (⟨worker.window, worker.firstRow, next.strip, next.staging, worker.done ++ [tile], rest,
        .ok ((worker.done.map (tileCalls request)).sum + tileCalls request tile)⟩,
        output.mapIdx (tileRewrite engine request tile)) := by
    rw [Worker.compute, hrun, hworker.result, ← putBack_mapIdx hworker.start_le
      (hsize ▸ hworker.stop_le) hbefore hbehind, ← hcalls]
    dsimp only
    rw [hband]
    rfl
  rw [hcompute]
  exact ⟨hworker.advance hpending (congrArg Room.strip hnext) (congrArg Room.staging hnext), rfl,
    rfl, rfl⟩

end Engine

end PanelGemm
