import Mathlib.Algebra.Order.BigOperators.Group.Finset
import Mathlib.Data.List.OfFn
import Mathlib.Tactic.SplitIfs
import PanelGemm.Proofs.Threads.Barrier

/-!
# Teams to the end

Side by side the workers of a team do what each of them does on its own, as their bands are apart
(`Task.band_write_of_apart`). `Team.OnTrack` says how far everybody is: a worker has steps ahead of
it that lead to its own outcome (`Ahead`), the barrier counts (`Barrier.Counts`), and the caller has
gathered what the workers that it has joined leave (`Caller.Follows`). Every step preserves this and
takes one of the steps that are ahead (`Team.OnTrack.step`), so no schedule goes on forever. As long
as the team is not finished somebody can take a step (`Team.OnTrack.exists_step`).
-/

set_option autoImplicit false
set_option relaxedAutoImplicit false

namespace PanelGemm

/-! ### Bands -/

namespace Task

variable {task other : Task} {output : Array Single} {position : Nat} {value : Single}

/-- Two tasks that have no element of the output in common. -/
def Apart (task other : Task) : Prop :=
  task.window.stop ≤ other.window.start ∨ other.window.stop ≤ task.window.start

theorem size_write : (task.write output position value).size = output.size := by
  unfold write
  split_ifs
  · exact Array.size_setIfInBounds
  · rfl

/-- An element of a band is the element of the output that the band has there. -/
theorem getElem?_band (q : Nat) : (task.band output)[q]? =
    if task.window.start + q < task.window.stop then output[task.window.start + q]? else none := by
  unfold band
  rw [Array.getElem?_extract]
  split_ifs with hq hstop hstop
  · rfl
  · omega
  · exact (Array.getElem?_eq_none (by omega)).symm
  · rfl

/-- A write to a band is a write to the band alone. -/
theorem band_write : task.band (task.write output position value) =
    (task.band output).setIfInBounds position value := by
  have hsize : (task.band output).size =
      min task.window.stop output.size - task.window.start := Array.size_extract
  refine Array.ext_getElem? fun q ↦ ?_
  rw [Array.getElem?_setIfInBounds, getElem?_band, getElem?_band, write, hsize]
  by_cases hq : position = q
  · subst hq
    by_cases hstop : task.window.start + position < task.window.stop
    · rw [if_pos hstop, if_pos hstop, if_pos rfl, Array.getElem?_setIfInBounds, if_pos rfl]
      exact if_congr (by omega) rfl rfl
    · rw [if_neg hstop, if_pos rfl, if_neg (by omega)]
  · rw [if_neg hq]
    split_ifs
    · rw [Array.getElem?_setIfInBounds, if_neg (by omega)]
    · rfl
    · rfl

/-- A write to a band leaves the bands apart from it alone. -/
theorem band_write_of_apart (h : task.Apart other) :
    other.band (task.write output position value) = other.band output := by
  refine Array.ext_getElem? fun q ↦ ?_
  rw [getElem?_band, getElem?_band, write]
  unfold Apart at h
  split_ifs with hq hposition
  · rw [Array.getElem?_setIfInBounds, if_neg (by omega)]
  · rfl
  · rfl

end Task

/-! ### The caller -/

/-- A worker that is born and whose thread has not ended. -/
def Phase.Running {State : Type} : Phase State → Prop
  | unborn | passed (.exit _) => False
  | _ => True

namespace Caller

variable {State : Type} {workers : Nat} {arithmetic : Arithmetic} {caller : Caller}
  {phase : Fin workers → Phase State} {results : Fin workers → Except Failure Nat}
  {worker : Fin workers} {old new : Phase State}

/-- The caller has spawned the workers that are born, the workers that it has joined have ended, and
with what is left to gather it comes to the tally of all results. -/
structure Follows (arithmetic : Arithmetic) (caller : Caller)
    (results : Fin workers → Except Failure Nat) (phase : Fin workers → Phase State) : Prop where
  spawned : ∀ worker : Fin workers, phase worker = .unborn ↔ caller.spawned ≤ worker
  spawned_le : caller.spawned ≤ workers
  joined : ∀ worker : Fin workers, worker < caller.joined →
    ∃ result, phase worker = .passed (.exit result)
  joined_le : caller.joined ≤ workers
  gathered : Workers.join arithmetic caller.tally caller.joined
      ((List.ofFn results).drop caller.joined) =
    Workers.join arithmetic .start 0 (List.ofFn results)

/-- A running worker may change its phase. -/
theorem Follows.update (h : caller.Follows arithmetic results phase) (hphase : phase worker = old)
    (hrunning : old.Running) (hnew : new ≠ .unborn) :
    caller.Follows arithmetic results (Function.update phase worker new) := by
  refine ⟨fun other ↦ ?_, h.spawned_le, fun other hjoined ↦ ?_, h.joined_le, h.gathered⟩
  · by_cases hother : other = worker
    · rw [hother, Function.update_self]
      refine iff_of_false hnew fun hle ↦ ?_
      rw [← hphase, (h.spawned worker).mpr hle] at hrunning
      exact hrunning
    · rw [Function.update_of_ne hother]
      exact h.spawned other
  · obtain ⟨result, hresult⟩ := h.joined other hjoined
    have hother : other ≠ worker := by
      rintro rfl
      rw [← hphase, hresult] at hrunning
      exact hrunning
    rw [Function.update_of_ne hother]
    exact ⟨result, hresult⟩

theorem Follows.spawn (h : caller.Follows arithmetic results phase)
    (hturn : caller.spawned = worker)
    (hnew : new ≠ .unborn) :
    Follows arithmetic { caller with spawned := caller.spawned + 1 } results
      (Function.update phase worker new) := by
  have hunborn : phase worker = .unborn := (h.spawned worker).mpr (Nat.le_of_eq hturn)
  refine ⟨fun other ↦ ?_, hturn ▸ worker.isLt, fun other hjoined ↦ ?_, h.joined_le, h.gathered⟩
  · change _ ↔ caller.spawned + 1 ≤ other
    by_cases hother : other = worker
    · rw [hother, Function.update_self]
      exact iff_of_false hnew (by omega)
    · have hne : (other : Nat) ≠ worker := Fin.val_ne_of_ne hother
      rw [Function.update_of_ne hother, h.spawned other]
      omega
  · obtain ⟨result, hresult⟩ := h.joined other hjoined
    have hother : other ≠ worker := by
      rintro rfl
      exact nomatch hunborn.symm.trans hresult
    rw [Function.update_of_ne hother]
    exact ⟨result, hresult⟩

theorem Follows.join (h : caller.Follows arithmetic results phase) (hturn : caller.joined = worker)
    (hphase : phase worker = .passed (.exit (results worker))) :
    (caller.join arithmetic (results worker)).Follows arithmetic results phase := by
  have hdrop : (List.ofFn results).drop caller.joined =
      results worker :: (List.ofFn results).drop (caller.joined + 1) := by
    have hlength : (worker : Nat) < (List.ofFn results).length := by
      rw [List.length_ofFn]
      exact worker.isLt
    rw [hturn, List.drop_eq_getElem_cons hlength, List.getElem_ofFn]
  refine ⟨h.spawned, h.spawned_le, fun other hother ↦ ?_, ?_, ?_⟩
  · rcases Nat.lt_succ_iff_lt_or_eq.mp hother with hearlier | hnow
    · exact h.joined other hearlier
    · obtain rfl : other = worker := Fin.ext (hnow.trans hturn)
      exact ⟨_, hphase⟩
  · exact lt_of_eq_of_lt hturn worker.isLt
  · rw [← h.gathered, hdrop]
    rfl

end Caller

/-! ### What is ahead of a worker -/

/-- The number of steps that are ahead of a worker in a phase with a band, until it has come to an
outcome and its thread has ended. Besides its writes these are its spawning, the start and the end
of its work, and two steps for each meeting; the last one to arrive takes these two at once. -/
inductive Ahead (procedure : Procedure) (start : procedure.State) (initial : Array Single)
    (outcome : Outcome Nat) : Phase procedure.State → Array Single → Nat → Prop
  | unborn {writes : Nat} (h : procedure.Takes writes start initial outcome) :
    Ahead procedure start initial outcome .unborn initial (writes + 7)
  | arriving {writes : Nat} (h : procedure.Takes writes start initial outcome) :
    Ahead procedure start initial outcome (.arriving .entry) initial (writes + 6)
  | waiting {writes generation : Nat} (h : procedure.Takes writes start initial outcome) :
    Ahead procedure start initial outcome (.waiting generation .entry) initial (writes + 5)
  | passed {writes : Nat} (h : procedure.Takes writes start initial outcome) :
    Ahead procedure start initial outcome (.passed .entry) initial (writes + 4)
  | working {writes : Nat} {state : procedure.State} {band : Array Single}
    (h : procedure.Takes writes state band outcome) :
    Ahead procedure start initial outcome (.working state) band (writes + 3)
  | settled : Ahead procedure start initial outcome (.arriving (.exit outcome.result))
    outcome.output 2
  | leaving {generation : Nat} : Ahead procedure start initial outcome
    (.waiting generation (.exit outcome.result)) outcome.output 1
  | ended : Ahead procedure start initial outcome (.passed (.exit outcome.result))
    outcome.output 0

namespace Ahead

variable {procedure : Procedure} {start state next : procedure.State} {initial band : Array Single}
  {outcome : Outcome Nat} {left position generation : Nat} {gate : Gate} {value : Single}
  {result : Except Failure Nat}

theorem spawn (h : Ahead procedure start initial outcome .unborn band left) :
    ∃ fewer < left, Ahead procedure start initial outcome (.arriving .entry) band fewer := by
  cases h with
  | unborn h => exact ⟨_, Nat.lt_succ_self _, .arriving h⟩

theorem wait (h : Ahead procedure start initial outcome (.arriving gate) band left)
    (generation : Nat) :
    ∃ fewer < left,
      Ahead procedure start initial outcome (.waiting generation gate) band fewer := by
  cases h with
  | arriving h => exact ⟨_, Nat.lt_succ_self _, .waiting h⟩
  | settled => exact ⟨_, Nat.lt_succ_self _, .leaving⟩

theorem leave (h : Ahead procedure start initial outcome (.waiting generation gate) band left) :
    ∃ fewer < left, Ahead procedure start initial outcome (.passed gate) band fewer := by
  cases h with
  | waiting h => exact ⟨_, Nat.lt_succ_self _, .passed h⟩
  | leaving => exact ⟨_, Nat.lt_succ_self _, .ended⟩

theorem begin (h : Ahead procedure start initial outcome (.passed .entry) band left) :
    ∃ fewer < left, Ahead procedure start initial outcome (.working start) band fewer := by
  cases h with
  | passed h => exact ⟨_, Nat.lt_succ_self _, .working h⟩

/-- The writes of a worker are those that it makes on its own. -/
theorem write (h : Ahead procedure start initial outcome (.working state) band left)
    (hstep : procedure.step state band = .write position value next) :
    ∃ fewer < left, Ahead procedure start initial outcome (.working next)
      (band.setIfInBounds position value) fewer := by
  cases h with
  | working h =>
    cases h with
    | finish hfinish => exact nomatch hfinish.symm.trans hstep
    | write hwrite hrest =>
      cases hwrite.symm.trans hstep
      exact ⟨_, Nat.lt_succ_self _, .working hrest⟩

theorem settle (h : Ahead procedure start initial outcome (.working state) band left)
    (hstep : procedure.step state band = .finish result) :
    ∃ fewer < left,
      Ahead procedure start initial outcome (.arriving (.exit result)) band fewer := by
  cases h with
  | working h =>
    cases h with
    | finish hfinish =>
      cases hfinish.symm.trans hstep
      exact ⟨_, Nat.lt_succ_self _, .settled⟩
    | write hwrite hrest => exact nomatch hwrite.symm.trans hstep

/-- A worker whose thread has ended has come to its outcome. -/
theorem eq_of_ended (h : Ahead procedure start initial outcome (.passed (.exit result)) band left) :
    outcome = ⟨result, band⟩ := by
  cases h with
  | ended => rfl

end Ahead

/-! ### Steps of a team -/

namespace Team

variable {arithmetic : Arithmetic} {procedure : Procedure} {tasks : List Task}
  {output : Array Single} {outcome : Fin tasks.length → Outcome Nat}
  {left : Fin tasks.length → Nat} {team next : Team procedure tasks.length}

/-- A team on its way: every worker comes to its own outcome on its band, the barrier counts, and
the caller follows. -/
structure OnTrack (arithmetic : Arithmetic) (tasks : List Task) (output : Array Single)
    (outcome : Fin tasks.length → Outcome Nat) (left : Fin tasks.length → Nat)
    (team : Team procedure tasks.length) : Prop where
  ahead : ∀ worker, Ahead procedure ((tasks.get worker).begin procedure)
    ((tasks.get worker).band output) (outcome worker) (team.phase worker)
    ((tasks.get worker).band team.output) (left worker)
  size : team.output.size = output.size
  barrier : team.barrier.Counts team.phase
  caller : team.caller.Follows arithmetic (fun worker ↦ (outcome worker).result) team.phase

/-- The number of steps that are ahead of a team, a join for every worker included. -/
def stepsAhead (left : Fin tasks.length → Nat) (team : Team procedure tasks.length) : Nat :=
  (∑ worker, left worker) + (tasks.length - team.caller.joined)

theorem sum_update_lt {workers : Nat} {left : Fin workers → Nat} {worker : Fin workers}
    {fewer : Nat} (h : fewer < left worker) :
    ∑ other, Function.update left worker fewer other < ∑ other, left other := by
  refine Finset.sum_lt_sum (fun other _ ↦ ?_) ⟨worker, Finset.mem_univ worker, ?_⟩
  · by_cases hother : other = worker
    · rw [hother, Function.update_self]
      exact Nat.le_of_lt h
    · rw [Function.update_of_ne hother]
  · rw [Function.update_self]
    exact h

/-- A worker takes a step of its own. -/
theorem OnTrack.advance (h : team.OnTrack arithmetic tasks output outcome left)
    {worker : Fin tasks.length}
    {phase : Phase procedure.State} {after : Array Single} {barrier : Barrier} {caller : Caller}
    (hahead : ∃ fewer < left worker, Ahead procedure ((tasks.get worker).begin procedure)
      ((tasks.get worker).band output) (outcome worker) phase ((tasks.get worker).band after) fewer)
    (hothers : ∀ other, other ≠ worker →
      (tasks.get other).band after = (tasks.get other).band team.output)
    (hsize : after.size = team.output.size)
    (hbarrier : barrier.Counts (Function.update team.phase worker phase))
    (hcaller : caller.Follows arithmetic (fun worker ↦ (outcome worker).result)
      (Function.update team.phase worker phase))
    (hjoined : caller.joined = team.caller.joined) :
    ∃ left', OnTrack arithmetic tasks output outcome left'
        ⟨after, barrier, Function.update team.phase worker phase, caller⟩ ∧
      stepsAhead left' ⟨after, barrier, Function.update team.phase worker phase, caller⟩ <
        team.stepsAhead left := by
  obtain ⟨fewer, hfewer, hahead⟩ := hahead
  refine ⟨Function.update left worker fewer,
    ⟨fun other ↦ ?_, hsize.trans h.size, hbarrier, hcaller⟩, ?_⟩
  · dsimp only
    by_cases hother : other = worker
    · rw [hother, Function.update_self, Function.update_self]
      exact hahead
    · rw [Function.update_of_ne hother, Function.update_of_ne hother, hothers other hother]
      exact h.ahead other
  · unfold stepsAhead
    rw [hjoined]
    exact Nat.add_lt_add_right (sum_update_lt hfewer) _

theorem OnTrack.ahead_of_eq (h : team.OnTrack arithmetic tasks output outcome left)
    {worker : Fin tasks.length} {phase : Phase procedure.State}
    (hphase : team.phase worker = phase) :
    Ahead procedure ((tasks.get worker).begin procedure) ((tasks.get worker).band output)
      (outcome worker) phase ((tasks.get worker).band team.output) (left worker) :=
  hphase ▸ h.ahead worker

/-- Every step keeps a team on its way, and brings it closer to its end. -/
theorem OnTrack.step (hapart : ∀ worker other, worker ≠ other →
      (tasks.get worker).Apart (tasks.get other))
    (htiles : ∀ worker, (tasks.get worker).tiles ≠ [])
    (h : team.OnTrack arithmetic tasks output outcome left)
    (hstep : Step arithmetic tasks team next) :
    ∃ left', next.OnTrack arithmetic tasks output outcome left' ∧
      next.stepsAhead left' < team.stepsAhead left := by
  cases hstep with
  | spawn worker hturn =>
    have hphase : team.phase worker = .unborn :=
      (h.caller.spawned worker).mpr (Nat.le_of_eq hturn)
    have hfits := h.barrier.fits_of_eq hphase
    exact h.advance (h.ahead_of_eq hphase).spawn (fun _ _ ↦ rfl) rfl
      (h.barrier.update hphase rfl rfl hfits) (h.caller.spawn hturn nofun) rfl
  | arrive worker gate hphase hothers =>
    exact h.advance ((h.ahead_of_eq hphase).wait _) (fun _ _ ↦ rfl) rfl
      (h.barrier.arrive hphase hothers) (h.caller.update hphase trivial nofun) rfl
  | last worker gate hphase hothers =>
    obtain ⟨fewer, hfewer, hwaiting⟩ := (h.ahead_of_eq hphase).wait team.barrier.generation
    obtain ⟨fewest, hfewest, hpassed⟩ := hwaiting.leave
    exact h.advance ⟨fewest, Nat.lt_trans hfewest hfewer, hpassed⟩ (fun _ _ ↦ rfl) rfl
      (h.barrier.last hphase hothers) (h.caller.update hphase trivial nofun) rfl
  | leave worker generation gate hphase hover =>
    have hfits := (h.barrier.fits_of_eq hphase).passed_of_waiting hover
    exact h.advance (h.ahead_of_eq hphase).leave (fun _ _ ↦ rfl) rfl
      (h.barrier.update hphase (beq_eq_false_iff_ne.mpr hover) rfl hfits)
      (h.caller.update hphase trivial nofun) rfl
  | begin worker hphase hsome =>
    have hfits := h.barrier.fits_of_eq hphase
    exact h.advance (h.ahead_of_eq hphase).begin (fun _ _ ↦ rfl) rfl
      (h.barrier.update hphase rfl rfl hfits) (h.caller.update hphase trivial nofun) rfl
  | lose worker hphase hnone => exact absurd hnone (htiles worker)
  | write worker state next position value hphase hstep =>
    have hfits := h.barrier.fits_of_eq hphase
    have hahead := (h.ahead_of_eq hphase).write hstep
    rw [← Task.band_write] at hahead
    have hothers : ∀ other, other ≠ worker →
        (tasks.get other).band ((tasks.get worker).write team.output position value) =
          (tasks.get other).band team.output :=
      fun other hother ↦ Task.band_write_of_apart (hapart worker other hother.symm)
    exact h.advance hahead hothers Task.size_write (h.barrier.update hphase rfl rfl hfits)
      (h.caller.update hphase trivial nofun) rfl
  | settle worker state result hphase hstep =>
    have hfits := h.barrier.fits_of_eq hphase
    exact h.advance ((h.ahead_of_eq hphase).settle hstep) (fun _ _ ↦ rfl) rfl
      (h.barrier.update hphase rfl rfl hfits) (h.caller.update hphase trivial nofun) rfl
  | join worker result hspawned hturn hphase =>
    obtain rfl : (outcome worker).result = result :=
      congrArg Outcome.result (h.ahead_of_eq hphase).eq_of_ended
    refine ⟨left, ⟨h.ahead, h.size, h.barrier, h.caller.join hturn hphase⟩, ?_⟩
    have hlt : team.caller.joined < tasks.length := hturn ▸ worker.isLt
    change (∑ worker, left worker) + (tasks.length - (team.caller.joined + 1)) <
      team.stepsAhead left
    unfold stepsAhead
    omega
  | joinLost worker hspawned hturn hphase => exact (h.barrier.fits_of_eq hphase).elim

/-! ### Runs of a team -/

/-- A team starts on its way if every worker comes to its outcome on its own. -/
theorem exists_onTrack_start (arithmetic : Arithmetic) (hpos : 0 < tasks.length)
    (htakes : ∀ worker, ∃ writes, procedure.Takes writes ((tasks.get worker).begin procedure)
      ((tasks.get worker).band output) (outcome worker)) :
    ∃ left, (start procedure tasks.length output).OnTrack arithmetic tasks output outcome left := by
  choose writes hwrites using htakes
  refine ⟨fun worker ↦ writes worker + 7, ⟨fun worker ↦ .unborn (hwrites worker), rfl,
    ⟨fun _ ↦ rfl, ?_, hpos⟩, ⟨fun _ ↦ iff_of_true rfl (Nat.zero_le _), Nat.zero_le _, ?_,
      Nat.zero_le _, rfl⟩⟩⟩
  · exact Finset.card_eq_zero.mpr (Finset.filter_false_of_mem fun _ _ ↦ nofun)
  · exact fun worker hworker ↦ absurd hworker (Nat.not_lt_zero _)

/-- A worker that is born takes a step, or it waits in the current generation, or it has ended. -/
theorem OnTrack.step_or_waits (h : team.OnTrack arithmetic tasks output outcome left)
    {worker : Fin tasks.length} (hborn : team.phase worker ≠ .unborn) :
    (∃ next, Step arithmetic tasks team next) ∨
      (team.phase worker).waitsIn team.barrier.generation = true ∨
        ∃ result, team.phase worker = .passed (.exit result) := by
  cases hphase : team.phase worker with
  | unborn => exact absurd hphase hborn
  | arriving gate =>
    rcases Nat.lt_or_ge (team.barrier.arrived + 1) tasks.length with hothers | hothers
    · exact .inl ⟨_, .arrive worker gate hphase hothers⟩
    · exact .inl ⟨_, .last worker gate hphase hothers⟩
  | waiting generation gate =>
    by_cases hover : generation = team.barrier.generation
    · exact .inr (.inl (beq_iff_eq.mpr hover))
    · exact .inl ⟨_, .leave worker generation gate hphase hover⟩
  | passed gate =>
    cases gate with
    | entry =>
      by_cases htiles : (tasks.get worker).tiles = []
      · exact .inl ⟨_, .lose worker hphase htiles⟩
      · exact .inl ⟨_, .begin worker hphase htiles⟩
    | exit result => exact .inr (.inr ⟨result, rfl⟩)
  | working state =>
    cases hstep : procedure.step state ((tasks.get worker).band team.output) with
    | write position value next =>
      exact .inl ⟨_, .write worker state next position value hphase hstep⟩
    | finish result => exact .inl ⟨_, .settle worker state result hphase hstep⟩
  | lost => exact (h.barrier.fits_of_eq hphase).elim

/-- A team on its way that is not finished goes on. If all workers are born and the next one to be
joined waits in the current generation, nobody has ended yet, and so somebody has not arrived. -/
theorem OnTrack.exists_step (h : team.OnTrack arithmetic tasks output outcome left)
    (hunfinished : ¬team.Finished) : ∃ next, Step arithmetic tasks team next := by
  rcases Nat.lt_or_ge team.caller.spawned tasks.length with hspawned | hspawned
  · exact ⟨_, .spawn ⟨team.caller.spawned, hspawned⟩ rfl⟩
  by_contra hstuck
  have hborn : ∀ worker, team.phase worker ≠ .unborn := fun worker hunborn ↦
    Nat.not_lt_of_le ((h.caller.spawned worker).mp hunborn)
      (Nat.lt_of_lt_of_le worker.isLt hspawned)
  have hsettled : ∀ worker, (team.phase worker).waitsIn team.barrier.generation = true ∨
      ∃ result, team.phase worker = .passed (.exit result) :=
    fun worker ↦ (h.step_or_waits (hborn worker)).resolve_left hstuck
  have hjoined : team.caller.joined < tasks.length :=
    Nat.lt_of_le_of_ne h.caller.joined_le hunfinished
  let first : Fin tasks.length := ⟨team.caller.joined, hjoined⟩
  rcases hsettled first with hwaits | ⟨result, hended⟩
  · have hgeneration : team.barrier.generation ≠ 2 := by
      obtain ⟨gate, hphase⟩ := Phase.eq_waiting_of_waitsIn hwaits
      exact (h.barrier.fits_of_eq hphase).ne_two
    have hall : Barrier.waiters team.barrier.generation team.phase = Finset.univ := by
      refine Finset.eq_univ_of_forall fun worker ↦ Barrier.mem_waiters.mpr ?_
      exact (hsettled worker).resolve_right fun ⟨result, hended⟩ ↦
        hgeneration (h.barrier.fits_of_eq hended)
    have harrived := h.barrier.arrived
    rw [hall, Finset.card_univ, Fintype.card_fin] at harrived
    exact Nat.ne_of_gt h.barrier.lt harrived
  · exact hstuck ⟨_, .join first result (Nat.le_antisymm h.caller.spawned_le hspawned) rfl hended⟩

/-- There is no schedule without end. -/
theorem OnTrack.acc (hapart : ∀ worker other, worker ≠ other →
      (tasks.get worker).Apart (tasks.get other))
    (htiles : ∀ worker, (tasks.get worker).tiles ≠ [])
    (h : team.OnTrack arithmetic tasks output outcome left) :
    Acc (fun next team ↦ Step arithmetic tasks team next) team := by
  induction hsteps : team.stepsAhead left using Nat.strong_induction_on generalizing team left with
  | _ steps ih =>
    refine Acc.intro team fun next hstep ↦ ?_
    obtain ⟨left', hnext, hlt⟩ := h.step hapart htiles hstep
    exact ih _ (hsteps ▸ hlt) hnext rfl

/-- A team stays on its way. -/
theorem OnTrack.reaches (hapart : ∀ worker other, worker ≠ other →
      (tasks.get worker).Apart (tasks.get other))
    (htiles : ∀ worker, (tasks.get worker).tiles ≠ [])
    (h : ∃ left, team.OnTrack arithmetic tasks output outcome left)
    (hreaches : Reaches arithmetic tasks team next) :
    ∃ left, next.OnTrack arithmetic tasks output outcome left := by
  induction hreaches with
  | refl => exact h
  | tail _ hstep ih =>
    obtain ⟨left, hteam⟩ := ih
    obtain ⟨left', hnext, _⟩ := hteam.step hapart htiles hstep
    exact ⟨left', hnext⟩

/-- The caller of a finished team has joined what the workers have come to. -/
theorem OnTrack.tally_of_finished (h : team.OnTrack arithmetic tasks output outcome left)
    (hfinished : team.Finished) :
    team.caller.tally =
      Workers.join arithmetic .start 0 (List.ofFn fun worker ↦ (outcome worker).result) := by
  have hgathered := h.caller.gathered
  rw [List.drop_eq_nil_of_le (by rw [List.length_ofFn]; exact Nat.le_of_eq hfinished.symm)]
    at hgathered
  exact hgathered

/-- Every worker of a finished team has passed its second meeting with the outcome that it comes to
on its own. -/
theorem OnTrack.ended_of_finished (h : team.OnTrack arithmetic tasks output outcome left)
    (hfinished : team.Finished) (worker : Fin tasks.length) :
    team.phase worker = .passed (.exit (outcome worker).result) ∧
      (tasks.get worker).band team.output = (outcome worker).output := by
  obtain ⟨result, hphase⟩ :=
    h.caller.joined worker (Nat.lt_of_lt_of_eq worker.isLt hfinished.symm)
  rw [hphase, (h.ahead_of_eq hphase).eq_of_ended]
  exact ⟨rfl, rfl⟩

end Team

end PanelGemm
