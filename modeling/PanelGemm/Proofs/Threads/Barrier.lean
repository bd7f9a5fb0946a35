import Mathlib.Data.Finset.Card
import Mathlib.Data.Fintype.Card
import PanelGemm.Proofs.Threads.Team

/-!
# The barrier of a team

The barrier counts the workers that wait in its current generation, and there is always one that
does not (`Barrier.Counts`). The last worker to arrive finds all others waiting, and the generation
that it starts is the one in which they may leave. As the meetings of a worker come in the same
generations as those of the others (`Phase.Fits`), nobody can be left behind at the first one when
the second one takes place.
-/

set_option autoImplicit false
set_option relaxedAutoImplicit false

namespace PanelGemm

namespace Phase

variable {State : Type}

/-- Whether a worker waits in the current generation. -/
def waitsIn (generation : Nat) : Phase State → Bool
  | waiting other _ => other == generation
  | _ => false

/-- The generations of the barrier in which a worker can be in a phase: the first one ends when all
workers have met to start, the second one when they have met again. -/
def Fits (generation : Nat) : Phase State → Prop
  | unborn | arriving .entry => generation = 0
  | waiting other .entry => other = 0 ∧ generation ≤ 1
  | passed .entry | working _ | arriving (.exit _) => generation = 1
  | waiting other (.exit _) => other = 1 ∧ 1 ≤ generation ∧ generation ≤ 2
  | passed (.exit _) => generation = 2
  | lost => False

variable {generation other : Nat} {gate : Gate}

theorem eq_waiting_of_waitsIn {phase : Phase State} (h : phase.waitsIn generation = true) :
    ∃ gate, phase = .waiting generation gate := by
  cases phase with
  | waiting other gate => exact ⟨gate, by rw [eq_of_beq h]⟩
  | _ => exact nomatch h

theorem Fits.waiting_of_arriving (h : (arriving gate : Phase State).Fits generation) :
    (waiting generation gate : Phase State).Fits generation := by
  cases gate with
  | entry =>
    have hgeneration : generation = 0 := h
    exact ⟨hgeneration, by omega⟩
  | exit result =>
    have hgeneration : generation = 1 := h
    exact ⟨hgeneration, by omega, by omega⟩

theorem Fits.passed_of_arriving (h : (arriving gate : Phase State).Fits generation) :
    (passed gate : Phase State).Fits (generation + 1) := by
  cases gate with
  | entry => exact congrArg (· + 1) h
  | exit result => exact congrArg (· + 1) h

/-- The generation in which a worker waits may end. -/
theorem Fits.succ_of_waiting (h : (waiting generation gate : Phase State).Fits generation) :
    (waiting generation gate : Phase State).Fits (generation + 1) := by
  cases gate with
  | entry => exact ⟨h.1, by have := h.1; omega⟩
  | exit result => exact ⟨h.1, by have := h.1; omega⟩

/-- A worker waits in one of the first two generations. -/
theorem Fits.ne_two (h : (waiting generation gate : Phase State).Fits generation) :
    generation ≠ 2 := by
  cases gate with
  | entry => exact fun hgeneration ↦ nomatch hgeneration.symm.trans h.1
  | exit result => exact fun hgeneration ↦ nomatch hgeneration.symm.trans h.1

theorem Fits.passed_of_waiting (h : (waiting other gate : Phase State).Fits generation)
    (hover : other ≠ generation) : (passed gate : Phase State).Fits generation := by
  cases gate with
  | entry =>
    obtain ⟨hother, hle⟩ := h
    have hgeneration : generation = 1 := by omega
    exact hgeneration
  | exit result =>
    obtain ⟨hother, hpos, hle⟩ := h
    have hgeneration : generation = 2 := by omega
    exact hgeneration

end Phase

namespace Barrier

variable {State : Type} {workers : Nat} {barrier : Barrier} {phase : Fin workers → Phase State}
  {worker : Fin workers} {gate : Gate} {old new : Phase State}

/-- The workers that wait in the current generation. -/
def waiters (generation : Nat) (phase : Fin workers → Phase State) : Finset (Fin workers) :=
  Finset.univ.filter fun worker ↦ (phase worker).waitsIn generation = true

theorem mem_waiters {generation : Nat} :
    worker ∈ waiters generation phase ↔ (phase worker).waitsIn generation = true := by
  rw [waiters, Finset.mem_filter]
  exact and_iff_right (Finset.mem_univ worker)

/-- A barrier counts the workers that wait in its current generation, and not all of them do. -/
structure Counts (barrier : Barrier) (phase : Fin workers → Phase State) : Prop where
  fits : ∀ worker, (phase worker).Fits barrier.generation
  arrived : (waiters barrier.generation phase).card = barrier.arrived
  lt : barrier.arrived < workers

theorem Counts.fits_of_eq (h : barrier.Counts phase) (hphase : phase worker = old) :
    old.Fits barrier.generation :=
  hphase ▸ h.fits worker

/-- A worker that does not come to wait or cease to wait is not noticed. -/
theorem Counts.update (h : barrier.Counts phase) (hphase : phase worker = old)
    (hold : old.waitsIn barrier.generation = false)
    (hnew : new.waitsIn barrier.generation = false) (hfits : new.Fits barrier.generation) :
    barrier.Counts (Function.update phase worker new) := by
  have hwaiters : waiters barrier.generation (Function.update phase worker new) =
      waiters barrier.generation phase := by
    refine Finset.filter_congr fun other _ ↦ ?_
    by_cases hother : other = worker
    · rw [hother, Function.update_self, hphase, hold, hnew]
    · rw [Function.update_of_ne hother]
  refine ⟨fun other ↦ ?_, hwaiters ▸ h.arrived, h.lt⟩
  by_cases hother : other = worker
  · rw [hother, Function.update_self]
    exact hfits
  · rw [Function.update_of_ne hother]
    exact h.fits other

/-- A worker that arrives is not waiting yet. -/
theorem not_mem_waiters {generation : Nat} (hphase : phase worker = .arriving gate) :
    worker ∉ waiters generation phase := by
  rw [mem_waiters, hphase]
  exact nofun

/-- A worker that is not the last one to arrive waits. -/
theorem Counts.arrive (h : barrier.Counts phase) (hphase : phase worker = .arriving gate)
    (hothers : barrier.arrived + 1 < workers) :
    Counts { barrier with arrived := barrier.arrived + 1 }
      (Function.update phase worker (.waiting barrier.generation gate)) := by
  have hwaiters : waiters barrier.generation
      (Function.update phase worker (.waiting barrier.generation gate)) =
      insert worker (waiters barrier.generation phase) := by
    ext other
    rw [Finset.mem_insert, mem_waiters, mem_waiters]
    by_cases hother : other = worker
    · rw [hother, Function.update_self]
      exact iff_of_true (beq_self_eq_true _) (.inl rfl)
    · rw [Function.update_of_ne hother]
      exact (or_iff_right hother).symm
  refine ⟨fun other ↦ ?_, ?_, hothers⟩
  · by_cases hother : other = worker
    · rw [hother, Function.update_self]
      exact (h.fits_of_eq hphase).waiting_of_arriving
    · rw [Function.update_of_ne hother]
      exact h.fits other
  · change (waiters barrier.generation _).card = barrier.arrived + 1
    rw [hwaiters, Finset.card_insert_of_notMem (not_mem_waiters hphase), h.arrived]

/-- When the last worker arrives all others are waiting. -/
theorem Counts.waiting_of_last (h : barrier.Counts phase) (hphase : phase worker = .arriving gate)
    (hothers : workers ≤ barrier.arrived + 1) {other : Fin workers} (hother : other ≠ worker) :
    ∃ gate, phase other = .waiting barrier.generation gate := by
  have hsubset : waiters barrier.generation phase ⊆ Finset.univ.erase worker := by
    intro member hmember
    refine Finset.mem_erase.mpr ⟨?_, Finset.mem_univ member⟩
    rintro rfl
    exact not_mem_waiters hphase hmember
  have hcard : (Finset.univ.erase worker).card ≤ (waiters barrier.generation phase).card := by
    rw [Finset.card_erase_of_mem (Finset.mem_univ worker), Finset.card_univ, Fintype.card_fin,
      h.arrived]
    omega
  have hmem : other ∈ waiters barrier.generation phase := by
    rw [Finset.eq_of_subset_of_card_le hsubset hcard]
    exact Finset.mem_erase.mpr ⟨hother, Finset.mem_univ other⟩
  exact Phase.eq_waiting_of_waitsIn (mem_waiters.mp hmem)

/-- The last worker to arrive starts a new generation, in which nobody waits yet. -/
theorem Counts.last (h : barrier.Counts phase) (hphase : phase worker = .arriving gate)
    (hothers : workers ≤ barrier.arrived + 1) :
    Counts ⟨0, barrier.generation + 1⟩ (Function.update phase worker (.passed gate)) := by
  refine ⟨fun other ↦ ?_, ?_, Nat.zero_lt_of_lt h.lt⟩
  · by_cases hother : other = worker
    · rw [hother, Function.update_self]
      exact (h.fits_of_eq hphase).passed_of_arriving
    · obtain ⟨gate', hwaiting⟩ := h.waiting_of_last hphase hothers hother
      rw [Function.update_of_ne hother, hwaiting]
      exact (h.fits_of_eq hwaiting).succ_of_waiting
  · refine Finset.card_eq_zero.mpr (Finset.eq_empty_of_forall_notMem fun other hmem ↦ ?_)
    rw [mem_waiters] at hmem
    by_cases hother : other = worker
    · rw [hother, Function.update_self] at hmem
      exact nomatch hmem
    · obtain ⟨gate', hwaiting⟩ := h.waiting_of_last hphase hothers hother
      rw [Function.update_of_ne hother, hwaiting] at hmem
      exact absurd (eq_of_beq hmem) (Nat.ne_of_lt (Nat.lt_succ_self _))

end Barrier

end PanelGemm
