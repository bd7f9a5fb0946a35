import PanelGemm.Proofs.Threads.Bands
import PanelGemm.Proofs.Threads.Crew
import PanelGemm.Proofs.Threads.Rendezvous

/-!
# Fork and join

A run with several workers cuts the output at the rows where their spans of tiles start, so that
their windows follow one another from the first element to the last (`Workers.pairwise_tasksFrom`,
`Workers.flatten_bands`). The tasks of the run are the windows with the spans.

A team with these tasks may take its steps in any order (`Team.Concurs`): it never gets stuck before
the caller has joined all workers, it cannot go on forever, and in the end it has the outcome of
`Workers.run`, in which one worker comes after the other. Words have to count where the output is
cut (`Workers.run_forks_and_joins_past_words`). Besides, this holds for any work that is done in
steps, however it ends on the single bands, and any work that keeps the size of its band can be done
in steps (`Procedure.does_copying`).
-/

set_option autoImplicit false
set_option relaxedAutoImplicit false

namespace PanelGemm

/-! ### Any work in steps -/

namespace Procedure

/-- The procedure that finds out at once what some work leaves, and then copies it to the band. Its
state before that is the input of the work, and after that the outcome and the next position. -/
def copying (work : Workers.Work) : Procedure where
  State := (List Tile × Nat) ⊕ (Outcome Nat × Nat)
  start tiles row := .inl (tiles, row)
  step state band :=
    let (outcome, position) := match state with
      | .inl (tiles, row) => (work band tiles row, 0)
      | .inr copied => copied
    if h : position < outcome.output.size then
      .write position outcome.output[position] (.inr (outcome, position + 1))
    else .finish outcome.result

variable {work : Workers.Work} {outcome : Outcome Nat} {band : Array Single} {position : Nat}

/-- From a position on the rest of the output is copied. The state may also be the first one, which
takes the step of the state at position zero. -/
theorem takes_copying {state : (copying work).State}
    (hstate : (copying work).step state band = (copying work).step (.inr (outcome, position)) band)
    (hsize : band.size = outcome.output.size) (hposition : position ≤ band.size)
    (hcopied : ∀ q < position, band[q]? = outcome.output[q]?) :
    ∃ writes, (copying work).Takes writes state band outcome := by
  induction hleft : band.size - position generalizing state band position with
  | zero =>
    have hband : band = outcome.output := by
      refine Array.ext_getElem? fun q ↦ ?_
      rcases Nat.lt_or_ge q position with hq | hq
      · exact hcopied q hq
      · rw [Array.getElem?_eq_none (by omega), Array.getElem?_eq_none (by omega)]
    have hfinish : (copying work).step (.inr (outcome, position)) band = .finish outcome.result :=
      dif_neg (by omega)
    have htakes := Takes.finish (hstate.trans hfinish)
    rw [hband] at htakes ⊢
    exact ⟨0, htakes⟩
  | succ left ih =>
    have hlt : position < outcome.output.size := by omega
    have hwrite : (copying work).step (.inr (outcome, position)) band =
        .write position outcome.output[position] (.inr (outcome, position + 1)) := dif_pos hlt
    have hset : (band.setIfInBounds position outcome.output[position]).size = band.size :=
      Array.size_setIfInBounds
    have hcopied' : ∀ q < position + 1,
        (band.setIfInBounds position outcome.output[position])[q]? = outcome.output[q]? := by
      intro q hq
      rw [Array.getElem?_setIfInBounds]
      split_ifs with hhere
      · subst hhere
        exact (Array.getElem?_eq_getElem hlt).symm
      · omega
      · exact hcopied q (by omega)
    have hrest : ∃ writes, (copying work).Takes writes (.inr (outcome, position + 1))
        (band.setIfInBounds position outcome.output[position]) outcome :=
      ih rfl (hset.trans hsize) (by omega) hcopied' (by omega)
    obtain ⟨writes, hrest⟩ := hrest
    exact ⟨writes + 1, .write (hstate.trans hwrite) hrest⟩

/-- Any work that keeps the size of a band can be done in steps. -/
theorem does_copying {task : Task} {output : Array Single}
    (hsize : (task.alone work output).output.size = (task.band output).size) :
    task.Does (copying work) work output :=
  takes_copying rfl hsize.symm (Nat.zero_le _) fun _ hq ↦ absurd hq (Nat.not_lt_zero _)

end Procedure

namespace Workers

variable {arithmetic : Arithmetic} {output : Array Single}
  {size stride offset row stop threads : Nat} {tiles : List Tile} {spans : List (List Tile)}
  {work : Work}

/-! ### The tasks of a run -/

/-- The tasks for spans of tiles on an output from an offset on, each with the window from its first
row to the first row of the next span. -/
def tasksFrom (size stride offset : Nat) (spans : List (List Tile)) : List Task :=
  List.zipWith Task.mk (windows size offset (starts size stride spans)) spans

/-- The tasks of the workers that share the tiles of a run. -/
def tasks (size stride : Nat) (tiles : List Tile) (threads : Nat) : List Task :=
  tasksFrom size stride 0 (tileSpans (count threads tiles) tiles)

/-- The first of several tasks has the window up to the first row of the next one. -/
theorem tasksFrom_cons (span next : List Tile) (spans : List (List Tile)) :
    tasksFrom size stride offset (span :: next :: spans) =
      ⟨⟨offset, min (firstRow next * stride) size⟩, span⟩ ::
        tasksFrom size stride (min (firstRow next * stride) size) (next :: spans) :=
  rfl

/-- The spans are the tiles of the tasks. -/
theorem map_tiles_tasksFrom (hspans : spans ≠ []) :
    (tasksFrom size stride offset spans).map Task.tiles = spans := by
  induction spans generalizing offset with
  | nil => exact absurd rfl hspans
  | cons span spans ih =>
    cases spans with
    | nil => rfl
    | cons next spans =>
      rw [tasksFrom_cons, List.map_cons, ih (List.cons_ne_nil _ _)]

/-- A worker comes to the outcome that it comes to on its own. -/
theorem outcomesFrom_eq_map_alone : outcomesFrom output stride offset spans work =
    (tasksFrom output.size stride offset spans).map fun task ↦ task.alone work output := by
  unfold outcomesFrom tasksFrom
  rw [← cut_eq_slices, cut_eq_windows, outcomes, List.zipWith_map_left, List.map_zipWith]
  rfl

/-- The windows of stacked tiles follow one another from the first row on. -/
theorem pairwise_tasksFrom (size stride : Nat) (hspans : spans ≠ [])
    (hnonempty : ∀ span ∈ spans, span ≠ []) (hstacked : Stacked row spans.flatten stop) :
    (tasksFrom size stride (min (row * stride) size) spans).Pairwise
        (fun task other ↦ task.window.stop ≤ other.window.start) ∧
      ∀ task ∈ tasksFrom size stride (min (row * stride) size) spans,
        min (row * stride) size ≤ task.window.start := by
  induction spans generalizing row with
  | nil => exact absurd rfl hspans
  | cons span spans ih =>
    rw [List.flatten_cons] at hstacked
    obtain ⟨middle, hspan, hrest⟩ := Stacked.append_iff.mp hstacked
    cases spans with
    | nil =>
      refine ⟨List.pairwise_singleton _ _, fun task htask ↦ ?_⟩
      rw [List.mem_singleton.mp htask]
    | cons next spans =>
      have hnext := firstRow_of_stacked (hnonempty next (by simp)) hrest
      obtain ⟨hpairwise, hstart⟩ := ih (List.cons_ne_nil _ _)
        (fun other hother ↦ hnonempty other (List.mem_cons_of_mem _ hother)) hrest
      rw [tasksFrom_cons, hnext]
      refine ⟨List.pairwise_cons.mpr ⟨hstart, hpairwise⟩, fun task htask ↦ ?_⟩
      rcases List.mem_cons.mp htask with rfl | htask
      · exact Nat.le_refl _
      · have hrows := Nat.mul_le_mul_right stride hspan.bounds.1
        exact Nat.le_trans (by omega) (hstart task htask)

/-- Bands put together after what is there already. -/
theorem foldl_append (bands : List (Array Single)) (start : Array Single) :
    bands.foldl (· ++ ·) start = start ++ bands.foldl (· ++ ·) #[] := by
  have hassoc : Std.Associative fun band other : Array Single ↦ band ++ other :=
    ⟨fun _ _ _ ↦ Array.append_assoc⟩
  calc bands.foldl (· ++ ·) start
      = bands.foldl (· ++ ·) (start ++ #[]) := by rw [Array.append_empty]
    _ = start ++ bands.foldl (· ++ ·) #[] := List.foldl_assoc

/-- The bands of stacked tiles make up the output from the first row on. -/
theorem flatten_bands (output : Array Single) (stride : Nat) (hspans : spans ≠ [])
    (hnonempty : ∀ span ∈ spans, span ≠ []) (hstacked : Stacked row spans.flatten stop) :
    ((tasksFrom output.size stride (min (row * stride) output.size) spans).map fun task ↦
        task.band output).foldl (· ++ ·) #[] =
      output.extract (min (row * stride) output.size) := by
  induction spans generalizing row with
  | nil => exact absurd rfl hspans
  | cons span spans ih =>
    rw [List.flatten_cons] at hstacked
    obtain ⟨middle, hspan, hrest⟩ := Stacked.append_iff.mp hstacked
    cases spans with
    | nil => exact Array.empty_append
    | cons next spans =>
      have hnext := firstRow_of_stacked (hnonempty next (by simp)) hrest
      have hrows := Nat.mul_le_mul_right stride hspan.bounds.1
      rw [tasksFrom_cons, hnext, List.map_cons, List.foldl_cons, Array.empty_append, foldl_append,
        ih (List.cons_ne_nil _ _)
          (fun other hother ↦ hnonempty other (List.mem_cons_of_mem _ hother)) hrest, Task.band,
        Array.extract_append_extract]
      dsimp only
      congr 1 <;> omega

/-! ### What the workers come to -/

/-- Of some results a failure is the first one. -/
structure FailsFirst (results : List (Except Failure Nat)) (worker : Nat) (failure : Failure) :
    Prop where
  fails : results[worker]? = some (.error failure)
  before : ∀ earlier < worker, ∃ calls, results[earlier]? = some (.ok calls)

/-- Results after one that is not a failure. -/
theorem FailsFirst.cons {results : List (Except Failure Nat)} {worker calls : Nat}
    {failure : Failure} (h : FailsFirst results worker failure) :
    FailsFirst (.ok calls :: results) (worker + 1) failure := by
  refine ⟨h.fails, fun earlier hearlier ↦ ?_⟩
  cases earlier with
  | zero => exact ⟨calls, rfl⟩
  | succ earlier => exact h.before earlier (Nat.lt_of_succ_lt_succ hearlier)

/-- The counts of workers that all succeed add up, and otherwise the first failure is reported. -/
theorem joined_cases (results : List (Except Failure Nat)) (worker : Nat) :
    (∃ counts : List Nat, results = counts.map .ok ∧ joined worker results = .ok counts.sum) ∨
      ∃ ahead failure, FailsFirst results ahead failure ∧
        joined worker results = .error (report (worker + ahead) failure) := by
  induction results generalizing worker with
  | nil => exact .inl ⟨[], rfl, rfl⟩
  | cons result results ih =>
    cases result with
    | error failure => exact .inr ⟨0, failure, ⟨rfl, nofun⟩, rfl⟩
    | ok calls =>
      rcases ih (worker + 1) with ⟨counts, rfl, hjoined⟩ | ⟨ahead, failure, hfirst, hjoined⟩
      · exact .inl ⟨calls :: counts, rfl, joined_map_ok (calls :: counts) worker⟩
      · refine .inr ⟨ahead + 1, failure, hfirst.cons, ?_⟩
        rw [joined_cons_ok, hjoined, Nat.add_right_comm, Nat.add_assoc]
        rfl

/-! ### Runs in turn and side by side -/

/-- Tasks for several workers: every worker has tiles, every tile belongs to one worker, and the
bands are apart and make up the output. -/
structure Forks (tasks : List Task) (output : Array Single) (tiles : List Tile) : Prop where
  nonempty : ∀ task ∈ tasks, task.tiles ≠ []
  shared : (tasks.map Task.tiles).flatten = tiles
  apart : tasks.Pairwise Task.Apart
  cut : ∀ other : Array Single, other.size = output.size →
    (tasks.map fun task ↦ task.band other).foldl (· ++ ·) #[] = other

/-- What several workers come to together: their bands are put together in order. If a word counts
what they count together, the result is the sum of their counts if none of them fails. Otherwise it
is the failure of the first worker that fails, where a panic is reported with the number of the
worker. -/
structure Joins (outcomes : List (Outcome Nat)) (outcome : Outcome Nat) : Prop where
  output : outcome.output = (outcomes.map Outcome.output).foldl (· ++ ·) #[]
  result : total (outcomes.map Outcome.result) < Word.limit →
    (∃ counts : List Nat, outcomes.map Outcome.result = counts.map .ok ∧
      outcome.result = .ok counts.sum) ∨
    (∃ worker, FailsFirst (outcomes.map Outcome.result) worker .panicked ∧
      outcome.result = .error (.refused (.workerPanicked worker))) ∨
    ∃ worker failure, failure ≠ .panicked ∧
      FailsFirst (outcomes.map Outcome.result) worker failure ∧ outcome.result = .error failure

/-- A team that comes to an outcome in every schedule: no schedule goes on forever or gets stuck
before the caller has joined all workers, and then every worker has passed its second meeting with
the result that it comes to on its own. -/
structure Concurs (arithmetic : Arithmetic) (tasks : List Task) (output : Array Single)
    (work : Work) (procedure : Procedure) (outcome : Outcome Nat) : Prop where
  ends : Acc (fun next team ↦ Team.Step arithmetic tasks team next)
    (Team.start procedure tasks.length output)
  goes_on : ∀ team, Team.Reaches arithmetic tasks (Team.start procedure tasks.length output) team →
    ¬team.Finished → ∃ next, Team.Step arithmetic tasks team next
  outcome : ∀ team, Team.Reaches arithmetic tasks (Team.start procedure tasks.length output) team →
    team.Finished → team.outcome = outcome ∧ ∀ worker, team.phase worker =
      .passed (.exit ((tasks.get worker).alone work output).result)

theorem map_tiles_tasks (size stride : Nat) (tiles : List Tile) (threads : Nat) :
    (tasks size stride tiles threads).map Task.tiles = tileSpans (count threads tiles) tiles :=
  map_tiles_tasksFrom (tileSpans_ne_nil (count_pos threads tiles) tiles)

theorem length_tasks : (tasks size stride tiles threads).length = count threads tiles := by
  have hlength := congrArg List.length (map_tiles_tasks size stride tiles threads)
  rw [List.length_map, tileSpans, List.length_map, List.length_range] at hlength
  exact hlength

/-- The spans of stacked tiles and their windows are tasks for several workers. -/
theorem forks_tasks (output : Array Single) (stride : Nat) (hstacked : Stacked 0 tiles stop)
    (h : count threads tiles ≠ 1) :
    Forks (tasks output.size stride tiles threads) output tiles := by
  have hpos := count_pos threads tiles
  have hspans := tileSpans_ne_nil hpos tiles
  have hflatten := tileSpans_flatten hpos tiles
  have hnonempty : ∀ span ∈ tileSpans (count threads tiles) tiles, span ≠ [] :=
    fun span hspan ↦ ne_nil_of_mem_tileSpans hpos (count_le h) hspan
  have htiles := map_tiles_tasks output.size stride tiles threads
  rw [← hflatten] at hstacked
  refine ⟨fun task htask ↦ ?_, htiles ▸ hflatten, ?_, fun other hsize ↦ ?_⟩
  · exact hnonempty task.tiles (htiles ▸ List.mem_map_of_mem htask)
  · have hpairwise := (pairwise_tasksFrom output.size stride hspans hnonempty hstacked).1
    rw [Nat.zero_mul, Nat.zero_min] at hpairwise
    exact hpairwise.imp .inl
  · have hbands := flatten_bands other stride hspans hnonempty hstacked
    rw [Nat.zero_mul, Nat.zero_min, Array.extract_size, hsize] at hbands
    exact hbands

/-- What several workers leave when one comes after the other, if words count where the output is
cut. -/
theorem run_of_several (arithmetic : Arithmetic) (output : Array Single) (work : Work)
    (hwords : ∀ tile ∈ tiles, tile.row * stride < Word.limit) (hstacked : Stacked 0 tiles stop)
    (h : count threads tiles ≠ 1) :
    run arithmetic output stride tiles threads work =
      ⟨(join arithmetic .start 0 (((tasks output.size stride tiles threads).map fun task ↦
          task.alone work output).map Outcome.result)).result,
        (((tasks output.size stride tiles threads).map fun task ↦
          task.alone work output).map Outcome.output).foldl (· ++ ·) #[]⟩ := by
  have hpos := count_pos threads tiles
  have hflatten := tileSpans_flatten hpos tiles
  have hnonempty : ∀ span ∈ tileSpans (count threads tiles) tiles, span ≠ [] :=
    fun span hspan ↦ ne_nil_of_mem_tileSpans hpos (count_le h) hspan
  have hbands := bands_eq arithmetic output
    (pairwise_firstRow hnonempty (hflatten.symm ▸ hstacked))
    (firstRow_mul_lt hnonempty (hflatten.symm ▸ hwords))
  have hall : outcomesFrom output stride 0 (tileSpans (count threads tiles) tiles) work =
      (tasks output.size stride tiles threads).map fun task ↦ task.alone work output :=
    outcomesFrom_eq_map_alone
  have hrun : run arithmetic output stride tiles threads work = runMany arithmetic output stride
      (tileSpans (count threads tiles) tiles) work := if_neg h
  rw [hrun, runMany, hbands, List.foldl_map, ← hall]
  rfl

/-- Workers that are joined after one another come to what they come to together. -/
theorem joins_run (arithmetic : Arithmetic) (output : Array Single) (work : Work)
    (hwords : ∀ tile ∈ tiles, tile.row * stride < Word.limit) (hstacked : Stacked 0 tiles stop)
    (h : count threads tiles ≠ 1) :
    Joins ((tasks output.size stride tiles threads).map fun task ↦ task.alone work output)
      (run arithmetic output stride tiles threads work) := by
  have hrun := run_of_several arithmetic output work hwords hstacked h
  generalize hresults : ((tasks output.size stride tiles threads).map fun task ↦
    task.alone work output).map Outcome.result = results at hrun
  refine ⟨congrArg Outcome.output hrun, fun htotal ↦ ?_⟩
  rw [hresults] at htotal ⊢
  rw [hrun, result_join_of_lt arithmetic htotal]
  rcases joined_cases results 0 with hcounts | ⟨worker, failure, hfirst, hjoined⟩
  · exact .inl hcounts
  · rw [Nat.zero_add] at hjoined
    cases failure with
    | panicked => exact .inr (.inl ⟨worker, hfirst, hjoined⟩)
    | refused reason => exact .inr (.inr ⟨worker, .refused reason, nofun, hfirst, hjoined⟩)
    | wild => exact .inr (.inr ⟨worker, .wild, nofun, hfirst, hjoined⟩)

theorem Forks.apart_of_ne {tasks : List Task} (h : Forks tasks output tiles)
    (worker other : Fin tasks.length) (hne : worker ≠ other) :
    (tasks.get worker).Apart (tasks.get other) := by
  rcases Nat.lt_or_gt_of_ne (Fin.val_ne_of_ne hne) with hlt | hlt
  · exact List.pairwise_iff_get.mp h.apart worker other hlt
  · exact (List.pairwise_iff_get.mp h.apart other worker hlt).symm

/-- A team with such tasks comes to the same outcome in every schedule. -/
theorem Forks.concurs {tasks : List Task} {procedure : Procedure}
    (h : Forks tasks output tiles) (hpos : 0 < tasks.length)
    (hdoes : ∀ task ∈ tasks, task.Does procedure work output) :
    Concurs arithmetic tasks output work procedure
      ⟨(join arithmetic .start 0
          ((tasks.map fun task ↦ task.alone work output).map Outcome.result)).result,
        ((tasks.map fun task ↦ task.alone work output).map Outcome.output).foldl (· ++ ·) #[]⟩ := by
  have htiles : ∀ worker, (tasks.get worker).tiles ≠ [] :=
    fun worker ↦ h.nonempty _ (tasks.get_mem worker)
  have hstart := Team.exists_onTrack_start arithmetic hpos
    fun worker ↦ hdoes _ (tasks.get_mem worker)
  have hreach : ∀ team,
      Team.Reaches arithmetic tasks (Team.start procedure tasks.length output) team →
      ∃ left, team.OnTrack arithmetic tasks output
        (fun worker ↦ (tasks.get worker).alone work output) left :=
    fun team hreaches ↦ Team.OnTrack.reaches h.apart_of_ne htiles hstart hreaches
  obtain ⟨left, hleft⟩ := hstart
  refine ⟨hleft.acc h.apart_of_ne htiles, fun team hreaches hunfinished ↦ ?_,
    fun team hreaches hfinished ↦ ?_⟩
  · obtain ⟨left', hteam⟩ := hreach team hreaches
    exact hteam.exists_step hunfinished
  · obtain ⟨left', hteam⟩ := hreach team hreaches
    have hended := hteam.ended_of_finished hfinished
    refine ⟨?_, fun worker ↦ (hended worker).1⟩
    have htally : team.caller.tally = join arithmetic .start 0
        ((tasks.map fun task ↦ task.alone work output).map Outcome.result) := by
      rw [hteam.tally_of_finished hfinished, List.map_map, ← List.ofFn_getElem_eq_map]
      rfl
    have hbands : (tasks.map fun task ↦ task.band team.output) =
        (tasks.map fun task ↦ task.alone work output).map Outcome.output := by
      rw [List.map_map]
      refine List.map_congr_left fun task htask ↦ ?_
      obtain ⟨worker, rfl⟩ := List.mem_iff_get.mp htask
      exact (hended worker).2
    rw [Team.outcome, htally, ← hbands, h.cut team.output hteam.size]

/-- Stacked tiles are shared among as many workers as there are threads, but no more than tiles.
With at most one the work is done on the whole output. As long as words count the elements in front
of the tiles, several workers join what they come to on their own, and a team of workers whose
procedure does the work comes to that in every schedule. -/
theorem run_forks_and_joins (arithmetic : Arithmetic) (output : Array Single) (stride : Nat)
    (tiles : List Tile) (threads stop : Nat) (work : Work) (hstacked : Stacked 0 tiles stop) :
    (min threads tiles.length ≤ 1 →
      run arithmetic output stride tiles threads work = work output tiles 0) ∧
      (1 < min threads tiles.length → (∀ tile ∈ tiles, tile.row * stride < Word.limit) →
        (tasks output.size stride tiles threads).length = min threads tiles.length ∧
        Forks (tasks output.size stride tiles threads) output tiles ∧
        Joins ((tasks output.size stride tiles threads).map fun task ↦ task.alone work output)
          (run arithmetic output stride tiles threads work) ∧
        ∀ procedure : Procedure,
          (∀ task ∈ tasks output.size stride tiles threads, task.Does procedure work output) →
            Concurs arithmetic (tasks output.size stride tiles threads) output work procedure
              (run arithmetic output stride tiles threads work)) := by
  have hcount : count threads tiles = max (min threads tiles.length) 1 := rfl
  refine ⟨fun hone ↦ if_pos (by omega), fun hmany hwords ↦ ?_⟩
  have hseveral : count threads tiles ≠ 1 := by omega
  have hlength : (tasks output.size stride tiles threads).length = min threads tiles.length := by
    rw [length_tasks]
    omega
  refine ⟨hlength, forks_tasks output stride hstacked hseveral,
    joins_run arithmetic output work hwords hstacked hseveral, fun procedure hdoes ↦ ?_⟩
  rw [run_of_several arithmetic output work hwords hstacked hseveral]
  exact (forks_tasks output stride hstacked hseveral).concurs (by omega) hdoes

/-- Work that changes its band, and then ends differently on the first bands. -/
def mixed : Work := fun band _ row ↦
  ⟨match row with
    | 0 => .ok 1
    | 1 => .error .panicked
    | _ => .error (.refused (.shapeMismatch .zeroBlockRows)), band.setIfInBounds 0 .one⟩

theorem run_forks_and_joins_mixed :
    run .checked #[.zero, .zero, .zero] 1 [⟨0, 1, 1⟩, ⟨1, 1, 1⟩, ⟨2, 1, 1⟩] 3 mixed =
        ⟨.error (.refused (.workerPanicked 1)), #[.one, .one, .one]⟩ ∧
      Concurs .checked (tasks 3 1 [⟨0, 1, 1⟩, ⟨1, 1, 1⟩, ⟨2, 1, 1⟩] 3) #[.zero, .zero, .zero] mixed
        (.copying mixed) ⟨.error (.refused (.workerPanicked 1)), #[.one, .one, .one]⟩ := by
  have hrun : run .checked #[.zero, .zero, .zero] 1 [⟨0, 1, 1⟩, ⟨1, 1, 1⟩, ⟨2, 1, 1⟩] 3 mixed =
      ⟨.error (.refused (.workerPanicked 1)), #[.one, .one, .one]⟩ := rfl
  obtain ⟨-, hseveral⟩ := run_forks_and_joins .checked #[.zero, .zero, .zero] 1
    [⟨0, 1, 1⟩, ⟨1, 1, 1⟩, ⟨2, 1, 1⟩] 3 3 mixed ⟨rfl, rfl, rfl, rfl⟩
  obtain ⟨-, -, -, hconcurs⟩ := hseveral (by decide) (by decide)
  refine ⟨hrun, ?_⟩
  have hteam := hconcurs (.copying mixed) fun task _ ↦
    Procedure.does_copying Array.size_setIfInBounds
  rw [hrun] at hteam
  exact hteam

/-- Rows that no word counts the elements in front of are not left to the workers: the caller panics
where it cuts the output, in checked arithmetic at the product and in wrapping arithmetic because
the place is before the previous one. Counts that have no word as their sum are a panic, or wrap
around. -/
theorem run_forks_and_joins_past_words :
    run .checked #[.zero] (2 ^ 63) [⟨0, 1, 1⟩, ⟨1, 1, 1⟩, ⟨2, 1, 1⟩] 3 mixed =
        ⟨.error .panicked, #[.zero]⟩ ∧
      run .wrapping #[.zero] (2 ^ 63) [⟨0, 1, 1⟩, ⟨1, 1, 1⟩, ⟨2, 1, 1⟩] 3 mixed =
        ⟨.error .panicked, #[.zero]⟩ ∧
      run .checked #[.zero, .zero] 1 [⟨0, 1, 1⟩, ⟨1, 1, 1⟩] 2
          (fun band _ _ ↦ ⟨.ok (2 ^ 64 - 1), band⟩) = ⟨.error .panicked, #[.zero, .zero]⟩ ∧
      run .wrapping #[.zero, .zero] 1 [⟨0, 1, 1⟩, ⟨1, 1, 1⟩] 2
          (fun band _ _ ↦ ⟨.ok (2 ^ 64 - 1), band⟩) = ⟨.ok (2 ^ 64 - 2), #[.zero, .zero]⟩ :=
  ⟨by cbv, by cbv, by rfl, by rfl⟩

end Workers

end PanelGemm
