import PanelGemm.Proofs.Engine.BuiltIn
import PanelGemm.Proofs.Threads.Crew

/-!
# Any number of threads, in any order

A run starts with the crew of `Engine.crew`. Whatever the number of its workers and the order of
their steps, it can be brought to its end, and then it leaves what `Engine.run` leaves, which in
turn is the same for every number of threads (`Engine.run_schedules`).
-/

set_option autoImplicit false
set_option relaxedAutoImplicit false

namespace PanelGemm

open Workers

namespace Crew

/-- A crew that is on its way through the tiles of a run: its workers have all of the tiles, in
order, and what is done to the output is what the tiles that are done do to it, in some order. -/
structure Consistent (engine : Engine) (request : Request) (output : Array Single)
    (tiles : List Tile) (crew : Crew) : Prop where
  count : crew.tiles = tiles.length
  spans : (crew.workers.map Worker.span).flatten = tiles
  workers : ∀ worker ∈ crew.workers, engine.OnTheWay request output.size worker
  trace : ∃ trace : List Tile, trace.Perm (crew.workers.map Worker.done).flatten ∧
    crew.output = output.mapIdx (engine.tilesRewrite request trace)

variable {engine : Engine} {request : Request} {output : Array Single} {tiles : List Tile}
  {crew next : Crew}

/-- A step keeps a crew on its way. -/
theorem Consistent.step (hadmits : engine.Admits request output.size)
    (h : Consistent engine request output tiles crew) (hstep : Step engine request crew next) :
    Consistent engine request output tiles next := by
  cases hstep with
  | compute count shared before worker after tile rest hpending =>
    obtain ⟨trace, hperm, houtput⟩ := h.trace
    have hsize : shared.size = output.size :=
      (congrArg Array.size houtput).trans Array.size_mapIdx
    have hworker := h.workers worker (by simp)
    obtain ⟨hnext, hdone, hleft, hshared⟩ :=
      Engine.compute_eq hadmits hworker hpending hsize
    have hspan : (worker.compute engine request tile rest shared).1.span = worker.span := by
      rw [Worker.span, Worker.span, hdone, hleft, hpending, List.append_assoc,
        List.singleton_append]
    refine ⟨h.count, ?_, ?_, trace ++ [tile], ?_, ?_⟩
    · have hspans := h.spans
      simp only [List.map_append, List.map_cons] at hspans ⊢
      rw [hspan, hspans]
    · intro other hother
      rcases List.mem_append.mp hother with hbefore | hother
      · exact h.workers other (List.mem_append_left _ hbefore)
      · rcases List.mem_cons.mp hother with rfl | hafter
        · exact hnext
        · exact h.workers other (by simp [hafter])
    · simp only [List.map_append, List.map_cons, List.flatten_append, List.flatten_cons,
        hdone, List.append_assoc] at hperm ⊢
      refine (hperm.append_right [tile]).trans ?_
      rw [List.append_assoc, List.append_assoc]
      exact (List.perm_append_comm.append_left _).append_left _
    · rw [hshared, show shared = _ from houtput, Array.mapIdx_mapIdx]
      refine congrArg output.mapIdx (funext fun q ↦ funext fun x ↦ ?_)
      rw [Engine.tilesRewrite_append]
      rfl

/-- Any number of steps keeps a crew on its way. -/
theorem Consistent.reaches (hadmits : engine.Admits request output.size)
    (h : Consistent engine request output tiles crew)
    (hreaches : Reaches engine request crew next) :
    Consistent engine request output tiles next := by
  induction hreaches with
  | refl => exact h
  | tail _ hstep ih => exact ih.step hadmits hstep

/-- The results of workers that are on their way. -/
theorem result_of_consistent (h : Consistent engine request output tiles crew)
    (hcalls : (((crew.workers.map Worker.done).flatten).map (Engine.tileCalls request)).sum <
      Word.limit) (arithmetic : Arithmetic) :
    crew.result arithmetic = .ok (((crew.workers.map Worker.done).flatten).map
      (Engine.tileCalls request)).sum := by
  have hsum : (((crew.workers.map Worker.done).flatten).map (Engine.tileCalls request)).sum =
      (crew.workers.map fun worker ↦ (worker.done.map (Engine.tileCalls request)).sum).sum := by
    rw [List.map_flatten, List.sum_flatten, List.map_map, List.map_map]
    rfl
  have hresults : crew.workers.map Worker.result = (crew.workers.map fun worker ↦
      (worker.done.map (Engine.tileCalls request)).sum).map .ok := by
    rw [List.map_map]
    exact List.map_congr_left fun worker hworker ↦ (h.workers worker hworker).result
  have hjoined : crew.result arithmetic =
      (join arithmetic .start 0 (crew.workers.map Worker.result)).result := by
    unfold result
    split
    · next worker hworkers =>
      have hworker := (h.workers worker (by simp [hworkers])).result
      rw [hworkers, List.map_singleton, List.flatten_singleton] at hcalls
      rw [hworkers, List.map_singleton, result_join_of_lt, hworker]
      · rfl
      · rw [hworker]
        exact hcalls
    · rfl
  rw [hsum] at hcalls ⊢
  rw [hjoined, hresults, result_join_of_lt, joined_map_ok]
  rw [total_map_ok]
  exact hcalls

/-- A finished crew leaves what its tiles do to the output in their order. -/
theorem Consistent.outcome_of_finished (h : Consistent engine request output tiles crew)
    (hstride : request.n ≤ request.outputStride) (hstacked : Stacked 0 tiles request.m)
    (hcalls : (tiles.map (Engine.tileCalls request)).sum < Word.limit)
    (hfinished : crew.Finished) (arithmetic : Arithmetic) :
    crew.outcome arithmetic = ⟨.ok (Engine.stats request tiles),
      output.mapIdx (engine.tilesRewrite request tiles)⟩ := by
  have hdone : (crew.workers.map Worker.done).flatten = tiles := by
    rw [← h.spans]
    refine congrArg List.flatten (List.map_congr_left fun worker hworker ↦ ?_)
    rw [Worker.span, hfinished worker hworker, List.append_nil]
  obtain ⟨trace, hperm, houtput⟩ := h.trace
  rw [hdone] at hperm
  have hall : crew.output = output.mapIdx (engine.tilesRewrite request tiles) := by
    rw [houtput]
    refine congrArg output.mapIdx (funext fun q ↦ funext fun x ↦ ?_)
    exact Engine.tilesRewrite_perm hstride hstacked hperm q x
  rw [outcome, result_of_consistent h (hdone ▸ hcalls), hdone, hall, h.count]
  rfl

/-- A crew that is on its way can be brought to its end. -/
theorem Consistent.exists_finished (hadmits : engine.Admits request output.size)
    (h : Consistent engine request output tiles crew) :
    ∃ last, Reaches engine request crew last ∧ last.Finished := by
  obtain ⟨left, hleft⟩ : ∃ left, (crew.workers.map fun worker ↦ worker.pending.length).sum = left :=
    ⟨_, rfl⟩
  induction left using Nat.strong_induction_on generalizing crew with
  | _ left ih =>
    by_cases hfinished : crew.Finished
    · exact ⟨crew, .refl, hfinished⟩
    · obtain ⟨worker, hmem, hpending⟩ : ∃ worker ∈ crew.workers, worker.pending ≠ [] := by
        unfold Finished at hfinished
        push Not at hfinished
        exact hfinished
      obtain ⟨tile, rest, hrest⟩ := List.exists_cons_of_ne_nil hpending
      obtain ⟨before, after, hworkers⟩ := List.append_of_mem hmem
      obtain ⟨count, shared, workers⟩ := crew
      obtain rfl : workers = before ++ worker :: after := hworkers
      obtain ⟨trace, -, houtput⟩ := h.trace
      have hstep : Step engine request ⟨count, shared, before ++ worker :: after⟩ _ :=
        .compute count shared before worker after tile rest hrest
      obtain ⟨-, -, hleft', -⟩ := Engine.compute_eq hadmits (h.workers worker hmem) hrest
        ((congrArg Array.size houtput).trans Array.size_mapIdx)
      have hless : ((before ++ (worker.compute engine request tile rest shared).1 :: after).map
          fun worker ↦ worker.pending.length).sum < left := by
        rw [← hleft]
        simp only [List.map_append, List.map_cons, List.sum_append, List.sum_cons, hleft', hrest,
          List.length_cons]
        omega
      obtain ⟨last, hreaches, hlast⟩ := ih _ hless (h.step hadmits hstep) rfl
      exact ⟨last, hreaches.head hstep, hlast⟩

end Crew

namespace Engine

variable {engine : Engine} {request : Request} {output : Array Single} {span tiles : List Tile}
  {spans : List (List Tile)} {row stop size : Nat}

/-! ### The crew at the start -/

/-- A stack with a tile that has rows starts before the last row. -/
theorem start_lt_of_stacked (hsound : ∀ tile ∈ span, engine.SoundTile request tile)
    (hspan : span ≠ []) (hstacked : Stacked row span stop) : row < request.m := by
  cases span with
  | nil => exact absurd rfl hspan
  | cons tile span =>
    have htile := hsound tile List.mem_cons_self
    have hrow : tile.row = row := hstacked.1
    have hlt : tile.row < tile.stop := Nat.lt_add_of_pos_right htile.rows_pos
    exact hrow ▸ Nat.lt_of_lt_of_le hlt htile.stop_le

/-- Spans of which the first one has a tile start within the output. -/
theorem start_le_size (hadmits : engine.Admits request size)
    (hsound : ∀ tile ∈ (span :: spans).flatten, engine.SoundTile request tile) (hspan : span ≠ [])
    (hstacked : Stacked row (span :: spans).flatten stop) :
    row * request.outputStride ≤ size := by
  have hne : (span :: spans).flatten ≠ [] := by
    rw [List.flatten_cons]
    exact List.append_ne_nil_of_left_ne_nil hspan _
  have hlast := hadmits.output row (start_lt_of_stacked hsound hne hstacked)
  omega

/-- A worker whose window starts with its first row and ends behind its last one is on its way
before its first tile. -/
theorem onTheWay_recruit (hadmits : engine.Admits request size)
    (hsound : ∀ tile ∈ span, engine.SoundTile request tile)
    (hroom : HasRoom request span) (hfirst : ∀ tile ∈ span, row ≤ tile.row)
    (hwindow : row * request.outputStride ≤ stop) (hstop : stop ≤ size)
    (hrows : ∀ tile ∈ span, ∀ i < tile.stop, i * request.outputStride + request.n ≤ stop) :
    OnTheWay engine request size
        (engine.recruit request ⟨row * request.outputStride, stop⟩ row span) ∧
      (engine.recruit request ⟨row * request.outputStride, stop⟩ row span).span = span ∧
      (engine.recruit request ⟨row * request.outputStride, stop⟩ row span).done = [] := by
  obtain ⟨buffers, hbuffers, -, hsizes⟩ := workspace_eq_ok engine hadmits.resident.whole
    hadmits.depth_pos hroom #[]
  have hrecruit : engine.recruit request ⟨row * request.outputStride, stop⟩ row span =
      ⟨⟨row * request.outputStride, stop⟩, row, buffers.strip, buffers.staging, [], span,
        .ok 0⟩ := by
    rw [recruit, hbuffers]
  rw [hrecruit]
  refine ⟨⟨hsound, rfl, hroom, ?_, ?_, rfl, hwindow, hstop, hfirst, hrows⟩, rfl, rfl⟩
  · exact congrArg Room.strip hsizes
  · exact congrArg Room.staging hsizes

theorem recruits_singleton (size offset stride : Nat) (span : List Tile) :
    engine.recruits request (windows size offset (starts size stride [span])) [span] =
      [engine.recruit request ⟨offset, size⟩ (firstRow span) span] :=
  rfl

/-- The first of several workers has the window up to the first row of the next one. -/
theorem recruits_cons (size offset stride : Nat) (span next : List Tile)
    (spans : List (List Tile)) :
    engine.recruits request (windows size offset (starts size stride (span :: next :: spans)))
        (span :: next :: spans) =
      engine.recruit request ⟨offset, min (firstRow next * stride) size⟩ (firstRow span) span ::
        engine.recruits request (windows size (min (firstRow next * stride) size)
          (starts size stride (next :: spans))) (next :: spans) :=
  rfl

/-- The workers for the spans of a stack are on their way before their first tiles. -/
theorem onTheWay_recruits (hadmits : engine.Admits request size) (hspans : spans ≠ [])
    (hsound : ∀ tile ∈ spans.flatten, engine.SoundTile request tile)
    (hroom : HasRoom request spans.flatten) (hnonempty : ∀ span ∈ spans, span ≠ [])
    (hstacked : Stacked row spans.flatten stop) (hrow : row * request.outputStride ≤ size) :
    (∀ worker ∈ engine.recruits request (windows size (row * request.outputStride)
        (starts size request.outputStride spans)) spans,
      OnTheWay engine request size worker ∧ worker.done = []) ∧
    (engine.recruits request (windows size (row * request.outputStride)
      (starts size request.outputStride spans)) spans).map Worker.span = spans := by
  induction spans generalizing row with
  | nil => exact absurd rfl hspans
  | cons span spans ih =>
    have hfirst := firstRow_of_stacked (hnonempty span List.mem_cons_self) hstacked
    rw [List.flatten_cons] at hsound hroom hstacked
    obtain ⟨middle, hspan, hrest⟩ := Stacked.append_iff.mp hstacked
    have hsound' : ∀ tile ∈ span, engine.SoundTile request tile :=
      fun tile htile ↦ hsound tile (List.mem_append_left _ htile)
    have hroom' := hroom.mono (List.subset_append_left span _)
    have hrows : ∀ tile ∈ span, row ≤ tile.row := fun tile htile ↦ (hspan.bounds.2 tile htile).1
    cases spans with
    | nil =>
      obtain ⟨hworker, hall, hdone⟩ := onTheWay_recruit hadmits hsound' hroom' hrows hrow
        (Nat.le_refl size) fun tile htile i hi ↦
          hadmits.output i (Nat.lt_of_lt_of_le hi (hsound' tile htile).stop_le)
      rw [recruits_singleton, hfirst]
      refine ⟨List.forall_mem_singleton.mpr ⟨hworker, hdone⟩, ?_⟩
      rw [List.map_singleton, hall]
    | cons next spans =>
      have hnext := firstRow_of_stacked (hnonempty next (by simp)) hrest
      have hmiddle : middle * request.outputStride ≤ size :=
        start_le_size hadmits (fun tile htile ↦ hsound tile (List.mem_append_right _ htile))
          (hnonempty next (by simp)) hrest
      obtain ⟨hworker, hall, hdone⟩ := onTheWay_recruit hadmits hsound' hroom' hrows
        (Nat.mul_le_mul_right _ hspan.bounds.1) hmiddle fun tile htile i hi ↦ by
          have hrow := row_end_le (Nat.lt_of_lt_of_le hi (hspan.bounds.2 tile htile).2)
            request.outputStride
          have hstride := hadmits.stride
          omega
      obtain ⟨hworkers, hothers⟩ := ih (List.cons_ne_nil _ _)
        (fun tile htile ↦ hsound tile (List.mem_append_right _ htile))
        (hroom.mono (List.subset_append_right span _))
        (fun other hother ↦ hnonempty other (List.mem_cons_of_mem _ hother)) hrest hmiddle
      rw [recruits_cons, hfirst, hnext, Nat.min_eq_left hmiddle]
      refine ⟨List.forall_mem_cons.mpr ⟨⟨hworker, hdone⟩, hworkers⟩, ?_⟩
      rw [List.map_cons, hall, hothers]

/-- The workers of a run are on their way through its tiles, and have not done any yet. -/
theorem exists_workers (hadmits : engine.Admits request size)
    (hsound : ∀ tile ∈ tiles, engine.SoundTile request tile) (hroom : HasRoom request tiles)
    (hstacked : Stacked 0 tiles stop) (threads : Nat) :
    ∃ workers, engine.workers request size tiles threads = .ok workers ∧
      (∀ worker ∈ workers, OnTheWay engine request size worker ∧ worker.done = []) ∧
      (workers.map Worker.span).flatten = tiles := by
  have hzero : 0 * request.outputStride ≤ size := by
    rw [Nat.zero_mul]
    exact Nat.zero_le _
  by_cases hcount : count threads tiles = 1
  · obtain ⟨hworker, hall, hdone⟩ := onTheWay_recruit hadmits hsound hroom
      (fun _ _ ↦ Nat.zero_le _) hzero (Nat.le_refl size) fun tile htile i hi ↦
        hadmits.output i (Nat.lt_of_lt_of_le hi (hsound tile htile).stop_le)
    rw [Nat.zero_mul] at hworker hall hdone
    refine ⟨_, if_pos hcount, List.forall_mem_singleton.mpr ⟨hworker, hdone⟩, ?_⟩
    rw [List.map_singleton, hall, List.flatten_singleton]
  · have hpos := count_pos threads tiles
    have hflatten := tileSpans_flatten hpos tiles
    have hnonempty : ∀ span ∈ tileSpans (count threads tiles) tiles, span ≠ [] :=
      fun span hspan ↦ ne_nil_of_mem_tileSpans hpos (count_le hcount) hspan
    have hstacked' : Stacked 0 (tileSpans (count threads tiles) tiles).flatten stop :=
      hflatten.symm ▸ hstacked
    obtain ⟨hworkers, hspans⟩ := onTheWay_recruits hadmits (tileSpans_ne_nil hpos tiles)
      (hflatten.symm ▸ hsound) (hflatten.symm ▸ hroom) hnonempty hstacked' hzero
    have hwords : ∀ tile ∈ (tileSpans (count threads tiles) tiles).flatten,
        tile.row * request.outputStride < Word.limit := by
      intro tile htile
      have hfits := (hsound tile (hflatten ▸ htile)).fitting_whole hadmits
      exact (hfits.countable hadmits.resident.size_lt).row
    have hsplits := splits_spans request.arithmetic size
      (pairwise_firstRow hnonempty hstacked') (firstRow_mul_lt hnonempty hwords)
    rw [Nat.zero_mul] at hworkers hspans
    refine ⟨_, ?_, hworkers, hspans.symm ▸ hflatten⟩
    rw [workers, if_neg hcount]
    dsimp only
    rw [hsplits]
    rfl

/-- The crew that a run starts with is on its way. -/
theorem consistent_start {workers : List Worker}
    (hworkers : ∀ worker ∈ workers, OnTheWay engine request output.size worker ∧ worker.done = [])
    (hspans : (workers.map Worker.span).flatten = tiles) :
    Crew.Consistent engine request output tiles ⟨tiles.length, output, workers⟩ := by
  have hdone : (workers.map Worker.done).flatten = [] := by
    refine List.flatten_eq_nil_iff.mpr fun done hmem ↦ ?_
    obtain ⟨worker, hworker, rfl⟩ := List.mem_map.mp hmem
    exact (hworkers worker hworker).2
  refine ⟨rfl, hspans, fun worker hworker ↦ (hworkers worker hworker).1, [], ?_, ?_⟩
  · rw [hdone]
  · exact (mapIdx_eq_self fun _ _ ↦ rfl).symm

/-! ### All schedules -/

/-- A crew without workers has nothing to do. -/
theorem eq_of_reaches_of_no_workers {crew reached : Crew}
    (h : Crew.Reaches engine request crew reached) (hnone : crew.workers = []) :
    reached = crew := by
  induction h with
  | refl => rfl
  | tail _ hstep ih =>
    rw [← ih] at hnone
    cases hstep with
    | compute count shared before worker after tile rest hpending =>
      exact absurd hnone (by simp)

/-- Every number of threads and every order in which the workers compute their tiles gives the same
statistics and leaves the same output, for every request that passes a check that counts exactly.
Whatever a crew has done so far, it can be brought to its end. -/
theorem run_schedules (engine : Engine) (request : Request) (output : Array Single)
    (hfamily : engine.family.BuiltIn ∨ engine.Prepared request)
    (hexact : request.CountsExactly) (hresident : request.Resident output.size)
    (hcheck : engine.check request output.size = .ok ()) :
    ∃ stats final, ∀ threads, 0 < threads →
      engine.run request output threads = ⟨.ok stats, final⟩ ∧
      ∃ crew, engine.crew request output threads = .ok crew ∧
        ∀ reached, Crew.Reaches engine request crew reached →
          (reached.Finished → reached.outcome request.arithmetic = ⟨.ok stats, final⟩) ∧
          ∃ last, Crew.Reaches engine request reached last ∧ last.Finished := by
  by_cases hempty : request.isEmpty = true
  · refine ⟨⟨0, 0⟩, output, fun threads hthreads ↦
      ⟨run_of_isEmpty hthreads hcheck hempty, ⟨0, output, []⟩, if_pos hempty, ?_⟩⟩
    intro reached hreached
    rw [eq_of_reaches_of_no_workers hreached rfl]
    exact ⟨fun _ ↦ rfl, _, .refl, fun worker hworker ↦ absurd hworker List.not_mem_nil⟩
  · have hadmits := admits_of_not_isEmpty hcheck hexact hresident hempty
    obtain ⟨steps, hcovers⟩ := hadmits.prepared hfamily
    have hsound := soundTile_of_isTiling hcovers.tiling
    have hcalls := sum_tileCalls_lt hadmits hsound hcovers.tiling.stacked
    refine ⟨stats request (Tile.place steps),
      output.mapIdx (tilesRewrite engine request (Tile.place steps)), fun threads hthreads ↦
        ⟨run_eq hthreads hcheck hadmits hcovers, ?_⟩⟩
    obtain ⟨workers, hworkers, hall, hspans⟩ :=
      exists_workers hadmits hsound hcovers.room hcovers.tiling.stacked threads
    refine ⟨⟨(Tile.place steps).length, output, workers⟩, ?_, fun reached hreached ↦ ?_⟩
    · rw [crew, if_neg hempty, hcovers.tiles_eq_ok hadmits, ok_bind, hworkers]
      rfl
    · have hcrew := (consistent_start hall hspans).reaches hadmits hreached
      refine ⟨fun hfinished ↦ ?_, hcrew.exists_finished hadmits⟩
      exact hcrew.outcome_of_finished hadmits.stride hcovers.tiling.stacked hcalls hfinished _

/-- Three rows of ones. -/
def threeRows : Request :=
  { Request.ones with
    m := 3
    left := Array.replicate 6 .one }

theorem countsExactly_threeRows : threeRows.CountsExactly :=
  .inr (.inr ⟨by decide, by decide⟩)

theorem resident_threeRows : threeRows.Resident 3 :=
  ⟨⟨by decide, by decide⟩, by decide, by decide, by decide⟩

/-- An engine with a full tile of one row and a masked tile of two. -/
def unevenEngine : Engine :=
  ⟨.make (KernelTable.full .avx2 Family.narrowRows) Family.narrowRows (.fixed [⟨1, 1⟩, ⟨6, 2⟩])⟩

theorem prepared_unevenEngine : unevenEngine.Prepared threeRows :=
  ⟨[⟨1, 1⟩, ⟨6, 2⟩], rfl, ⟨by decide, by decide, by decide, by decide⟩, by decide, by decide,
    by decide⟩

theorem run_schedules_uneven :
    ∃ crew, unevenEngine.crew threeRows #[.one, .one, .one] 2 = .ok crew ∧
      ∀ reached, Crew.Reaches unevenEngine threeRows crew reached → reached.Finished →
        reached.outcome .wrapping = unevenEngine.run threeRows #[.one, .one, .one] 1 := by
  obtain ⟨stats, final, hschedules⟩ := run_schedules unevenEngine threeRows #[.one, .one, .one]
    (.inr prepared_unevenEngine) countsExactly_threeRows resident_threeRows (by rfl)
  obtain ⟨hone, -⟩ := hschedules 1 (by decide)
  obtain ⟨-, crew, hcrew, hall⟩ := hschedules 2 (by decide)
  refine ⟨crew, hcrew, fun reached hreached hfinished ↦ ?_⟩
  rw [hone]
  exact (hall reached hreached).1 hfinished

/-- Where counts wrap around, the number of threads may matter. Thirteen rows that are too far apart
for the output pass the check. One thread stops at the first tile and writes nothing; of three, the
last one has the whole output as its band and computes the last row at its start. -/
theorem run_schedules_past_words :
    scalar.check (.distantRows .wrapping 13) 17 = .ok () ∧
      (scalar.run (.distantRows .wrapping 13) (Array.replicate 17 .zero) 1).output[0]? =
        some .zero ∧
      (scalar.run (.distantRows .wrapping 13) (Array.replicate 17 .zero) 3).output[0]? =
        some (Binary.one.add Binary.one) :=
  ⟨by decide +kernel, by decide +kernel, by decide +kernel⟩

end Engine

end PanelGemm
