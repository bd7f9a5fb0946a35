import Mathlib.Order.Bounds.Defs
import PanelGemm.Proofs.Tiling.Cover

/-!
# The greedy partition of the rows

What the greedy partition of a kernel table gives, for any table, cap and number of rows
(`Greedy.partition_partitions`). Without a kernel it is refused. Otherwise it chooses from the
heights that the cap admits, or from all of them if it admits none (`KernelTable.Considers`), takes
them from the tallest down, and masks at most its last step, which then has the smallest of these
heights (`Partitions`). The one thing it asks of the machine is room for its steps
(`Greedy.Affords`), and then room for their tiles.
-/

set_option autoImplicit false
set_option relaxedAutoImplicit false

namespace PanelGemm

namespace KernelTable

variable {table : KernelTable} {cap height : Nat}

/-- The heights that are considered under a cap: those with a kernel that are within the cap, or
all with a kernel if there is none within it. -/
def Considers (table : KernelTable) (cap height : Nat) : Prop :=
  table.holds height = true ∧
    (height ≤ cap ∨ ∀ other, table.holds other = true → cap < other)

theorem mem_available : height ∈ table.available ↔ table.holds height = true := by
  refine List.mem_filter.trans (and_iff_right_of_imp fun h ↦ List.mem_range.mpr ?_)
  exact (Array.getElem?_eq_some_iff.mp (beq_iff_eq.mp h)).1

theorem available_eq_nil : table.available = [] ↔ ∀ height, table.holds height = false := by
  simp only [List.eq_nil_iff_forall_not_mem, mem_available, Bool.not_eq_true]

theorem mem_considered :
    height ∈ Greedy.considered cap table.available ↔ table.Considers cap height := by
  have hshort : ∀ {other}, other ∈ table.available.filter (fun height ↦ decide (height ≤ cap)) ↔
      table.holds other = true ∧ other ≤ cap := by
    intro other
    rw [List.mem_filter, mem_available, decide_eq_true_iff]
  unfold Greedy.considered Considers
  dsimp only
  split_ifs with hnone
  · have hall : ∀ other, table.holds other = true → cap < other := by
      intro other hother
      refine Nat.lt_of_not_le fun hle ↦ ?_
      rw [List.isEmpty_iff.mp hnone] at hshort
      exact List.not_mem_nil (hshort.mpr ⟨hother, hle⟩)
    rw [mem_available]
    exact ⟨fun h ↦ ⟨h, .inr hall⟩, And.left⟩
  · obtain ⟨short, hmem⟩ := List.exists_mem_of_ne_nil _ (mt List.isEmpty_iff.mpr hnone)
    obtain ⟨hholds, hle⟩ := hshort.mp hmem
    rw [hshort]
    refine and_congr_right fun _ ↦ ⟨.inl, fun h ↦ h.resolve_right fun hall ↦ ?_⟩
    exact Nat.not_lt_of_le hle (hall short hholds)

/-- The heights are listed in ascending order. -/
theorem pairwise_considered : (Greedy.considered cap table.available).Pairwise (· < ·) := by
  have hall : table.available.Pairwise (· < ·) := List.pairwise_lt_range.filter _
  unfold Greedy.considered
  dsimp only
  split_ifs
  · exact hall
  · exact hall.filter _

end KernelTable

/-- A tiling as it is made greedily: each step has a kernel, within the cap if any kernel is, no
step is taller than one before it, and only the last step may be masked, by the smallest kernel
that is considered. Placed one below the other the steps cover the rows from zero on without
gaps. -/
structure Partitions (table : KernelTable) (cap rows : Nat) (steps : List Step) : Prop
    extends IsTiling table steps rows where
  kernel : ∀ step ∈ steps, ∃ kernel, table.kernel step.kernelRows = .ok kernel
  capped : (∃ height, table.holds height = true ∧ height ≤ cap) →
    ∀ step ∈ steps, step.kernelRows ≤ cap
  descending : steps.Pairwise fun upper lower ↦ lower.kernelRows ≤ upper.kernelRows
  unmasked : ∀ step ∈ steps.dropLast, step.isMasked = false
  masked : ∀ step ∈ steps, step.isMasked = true →
    IsLeast {height | table.Considers cap height} step.kernelRows
  placed : (Tile.place steps).map (fun tile ↦ (⟨tile.kernelRows, tile.rows⟩ : Step)) = steps
  stacked : Stacked 0 (Tile.place steps) rows

namespace Greedy

variable {table : KernelTable} {cap rows smallest : Nat} {heights : List Nat}

/-- The first of ascending heights is the least one. -/
theorem isLeast_smallest (hsorted : (smallest :: heights).Pairwise (· < ·)) :
    IsLeast {height | height ∈ smallest :: heights} smallest := by
  refine ⟨List.mem_cons_self, fun height hheight ↦ ?_⟩
  rcases List.mem_cons.mp hheight with rfl | hmem
  · exact Nat.le_refl _
  · exact Nat.le_of_lt (List.rel_of_pairwise_cons hsorted hmem)

/-- The batches have heights from the list, in the order of the list. -/
theorem sublist_fullBatches (heights : List Nat) (rows : Nat) :
    ((fullBatches heights rows).1.map fun batch ↦ batch.step.kernelRows).Sublist heights := by
  induction heights generalizing rows with
  | nil => exact List.Sublist.refl []
  | cons height heights ih =>
    unfold fullBatches
    by_cases hle : height ≤ rows
    · simp only [hle, if_true, List.map_cons]
      exact (ih _).cons_cons height
    · simp only [hle, if_false]
      exact (ih rows).cons height

/-- Steps of batches that get no taller get no taller. -/
theorem pairwise_steps {batches : List Batch}
    (h : batches.Pairwise fun upper lower ↦ lower.step.kernelRows ≤ upper.step.kernelRows) :
    (steps batches).Pairwise fun upper lower ↦ lower.kernelRows ≤ upper.kernelRows := by
  refine List.pairwise_flatMap.mpr ⟨fun batch _ ↦ ?_, h.imp fun hle upper hupper lower hlower ↦ ?_⟩
  · exact List.pairwise_replicate.mpr (.inr (Nat.le_refl _))
  · rw [List.eq_of_mem_replicate hupper, List.eq_of_mem_replicate hlower]
    exact hle

/-- Full steps of ascending heights, the smallest one apart, and at most one masked step of the
smallest height after them. -/
theorem steps_batches (smallest : Nat) (heights : List Nat) (rows : Nat) :
    ∃ rest, steps (batches smallest heights rows) =
        steps (fullBatches (smallest :: heights).reverse rows).1 ++ rest ∧
      (rest = [] ∨ ∃ left, rest = [⟨smallest, left⟩]) := by
  unfold batches
  dsimp only
  split_ifs with hnone
  · exact ⟨[], (List.append_nil _).symm, .inl rfl⟩
  · exact ⟨[⟨smallest, _⟩], List.flatMap_append, .inr ⟨_, rfl⟩⟩

theorem isMasked_of_mem_fullBatches {step : Step} (h : step ∈ steps (fullBatches heights rows).1) :
    step.isMasked = false := by
  obtain ⟨batch, hbatch, rfl⟩ := mem_steps h
  exact decide_eq_false (Nat.not_lt_of_le (Nat.le_of_eq (mem_fullBatches hbatch).2.symm))

/-- The steps get no taller if the heights are given in ascending order. -/
theorem descending_batches (hsorted : (smallest :: heights).Pairwise (· < ·)) :
    (steps (batches smallest heights rows)).Pairwise fun upper lower ↦
      lower.kernelRows ≤ upper.kernelRows := by
  have hreverse : (smallest :: heights).reverse.Pairwise fun upper lower ↦ lower ≤ upper :=
    List.pairwise_reverse.mpr (hsorted.imp Nat.le_of_lt)
  have hfull : (steps (fullBatches (smallest :: heights).reverse rows).1).Pairwise
      fun upper lower ↦ lower.kernelRows ≤ upper.kernelRows :=
    pairwise_steps (List.pairwise_map.mp (hreverse.sublist (sublist_fullBatches _ rows)))
  obtain ⟨rest, hsteps, hrest⟩ := steps_batches smallest heights rows
  rw [hsteps]
  rcases hrest with rfl | ⟨left, rfl⟩
  · rwa [List.append_nil]
  · refine List.pairwise_append.mpr ⟨hfull, List.pairwise_singleton _ _, ?_⟩
    intro step hstep last hlast
    obtain ⟨batch, hbatch, rfl⟩ := mem_steps hstep
    have hmem := List.mem_reverse.mp (mem_fullBatches hbatch).1
    rw [List.mem_singleton.mp hlast]
    rcases List.mem_cons.mp hmem with hfirst | hmem
    · exact Nat.le_of_eq hfirst.symm
    · exact Nat.le_of_lt (List.rel_of_pairwise_cons hsorted hmem)

/-- The heights of the steps are from the list, and a masked step has the smallest one. -/
theorem kernelRows_of_mem_batches {step : Step}
    (h : step ∈ steps (batches smallest heights rows)) :
    step.kernelRows ∈ smallest :: heights ∧
      (step.isMasked = true → step.kernelRows = smallest) := by
  obtain ⟨rest, hsteps, hrest⟩ := steps_batches smallest heights rows
  rw [hsteps] at h
  rcases List.mem_append.mp h with hfull | hlast
  · obtain ⟨batch, hbatch, heq⟩ := mem_steps hfull
    refine ⟨List.mem_reverse.mp (heq ▸ (mem_fullBatches hbatch).1), fun hmasked ↦ ?_⟩
    exact absurd hmasked (by rw [isMasked_of_mem_fullBatches hfull]; decide)
  · rcases hrest with rfl | ⟨left, rfl⟩
    · exact absurd hlast List.not_mem_nil
    · rw [List.mem_singleton.mp hlast]
      exact ⟨List.mem_cons_self, fun _ ↦ rfl⟩

/-- All steps but the last one are full. -/
theorem isMasked_of_mem_dropLast {step : Step}
    (h : step ∈ (steps (batches smallest heights rows)).dropLast) : step.isMasked = false := by
  obtain ⟨rest, hsteps, hrest⟩ := steps_batches smallest heights rows
  rw [hsteps] at h
  rcases hrest with rfl | ⟨left, rfl⟩
  · rw [List.append_nil] at h
    exact isMasked_of_mem_fullBatches (List.dropLast_subset _ h)
  · rw [List.dropLast_concat] at h
    exact isMasked_of_mem_fullBatches h

/-- The greedy steps of the heights that a table considers make a partition. -/
theorem partitions_batches (rows : Nat)
    (hheights : considered cap table.available = smallest :: heights) :
    Partitions table cap rows (steps (batches smallest heights rows)) := by
  have hconsiders : ∀ {height}, height ∈ smallest :: heights ↔ table.Considers cap height := by
    intro height
    rw [← hheights]
    exact KernelTable.mem_considered
  have hsorted : (smallest :: heights).Pairwise (· < ·) :=
    hheights ▸ KernelTable.pairwise_considered
  have hleast : IsLeast {height | table.Considers cap height} smallest := by
    have hall : {height | table.Considers cap height} = {height | height ∈ smallest :: heights} :=
      Set.ext fun height ↦ hconsiders.symm
    exact hall ▸ isLeast_smallest hsorted
  have htiling : IsTiling table (steps (batches smallest heights rows)) rows :=
    isTiling_batches (fun height hheight ↦ (hconsiders.mp hheight).1) fun height hheight ↦
      (holds_of_mem_available (KernelTable.mem_available.mpr (hconsiders.mp hheight).1)).2
  have hcapped : (∃ height, table.holds height = true ∧ height ≤ cap) →
      ∀ step ∈ steps (batches smallest heights rows), step.kernelRows ≤ cap := by
    rintro ⟨height, hheight, hle⟩ step hstep
    have hconsidered := hconsiders.mp (kernelRows_of_mem_batches hstep).1
    refine hconsidered.2.resolve_right fun hall ↦ ?_
    exact Nat.not_lt_of_le hle (hall height hheight)
  exact { htiling with
    kernel := fun step hstep ↦ ⟨_, if_pos (htiling.holds step hstep)⟩
    capped := hcapped
    descending := descending_batches hsorted
    unmasked := fun step hstep ↦ isMasked_of_mem_dropLast hstep
    masked := fun step hstep hmasked ↦ (kernelRows_of_mem_batches hstep).2 hmasked ▸ hleast
    placed := Tile.steps_placeFrom 0 _
    stacked := htiling.stacked }

/-- The greedy partition of a table, for any cap and any number of rows. It is refused if there is
no kernel, and then the refusal names the rows and the tallest height that the table may have. With
a kernel it succeeds as long as there is room for its steps, which then partition the rows; without
room it is a panic. The steps are laid out as they are placed as long as there is room for as many
tiles, and otherwise laying them out is a panic. -/
theorem partition_partitions (arithmetic : Arithmetic) (cap : Nat) (table : KernelTable)
    (rows : Nat) :
    (partition arithmetic cap table rows =
        .error (.refused (.missingKernel table.level rows (table.entries.size - 1))) ↔
      ∀ height, table.holds height = false) ∧
    ((∃ height, table.holds height = true) →
      (Affords arithmetic cap table rows →
        ∃ steps, partition arithmetic cap table rows = .ok steps ∧
          Partitions table cap rows steps ∧
          (rows < Word.limit → steps.length * Tile.tileBytes < Word.signedLimit →
            Tile.layOut arithmetic steps = .ok (Tile.place steps)) ∧
          (Word.signedLimit ≤ steps.length * Tile.tileBytes →
            Tile.layOut arithmetic steps = .error .panicked)) ∧
      (¬ Affords arithmetic cap table rows →
        partition arithmetic cap table rows = .error .panicked)) := by
  rw [← KernelTable.available_eq_nil]
  by_cases hnone : table.available = []
  · have hheights : considered cap table.available = [] :=
      List.subset_nil.mp (hnone ▸ considered_subset cap table.available)
    have hrefused : partition arithmetic cap table rows =
        .error (.refused (.missingKernel table.level rows (table.entries.size - 1))) := by
      rw [partition, hheights]
      rfl
    refine ⟨iff_of_true hrefused hnone, ?_⟩
    rintro ⟨height, hheight⟩
    rw [← KernelTable.mem_available, hnone] at hheight
    exact absurd hheight List.not_mem_nil
  · refine ⟨iff_of_false (fun hrefused ↦ ?_) hnone, fun _ ↦
      ⟨fun haffords ↦ ?_, partition_without_affords hnone⟩⟩
    · by_cases haffords : Affords arithmetic cap table rows
      · rw [partition_of_affords hnone haffords] at hrefused
        cases hrefused
      · rw [partition_without_affords hnone haffords] at hrefused
        cases hrefused
    · have hpartition := partition_of_affords hnone haffords
      obtain ⟨-, smallest, heights, hheights, hsteps⟩ := steps_of_partition hpartition
      have hpartitions := partitions_batches rows hheights
      rw [← hsteps] at hpartitions
      exact ⟨_, hpartition, hpartitions, fun hrows hroom ↦
        Tile.layOut_eq hroom (lt_of_eq_of_lt hpartitions.sum hrows),
        Tile.layOut_without_room⟩

/-- A table with kernels of four and of eight rows. -/
def sparseTable : KernelTable :=
  ⟨.baseline, #[false, false, false, false, true, false, false, false, true], rfl⟩

/-- Twenty-three rows take two steps of eight rows, one of four, and a masked one for the rest. -/
theorem partition_partitions_sparse :
    Affords .wrapping 8 sparseTable 23 ∧
    ∃ steps, partition .wrapping 8 sparseTable 23 = .ok steps ∧
      Partitions sparseTable 8 23 steps := by
  have haffords : Affords .wrapping 8 sparseTable 23 := ⟨4, by decide, by decide⟩
  obtain ⟨-, hsome⟩ := partition_partitions .wrapping 8 sparseTable 23
  obtain ⟨steps, hsteps, hpartitions, -⟩ := (hsome ⟨4, by decide⟩).1 haffords
  exact ⟨haffords, steps, hsteps, hpartitions⟩

example : partition .wrapping 8 sparseTable 23 = .ok [⟨8, 8⟩, ⟨8, 8⟩, ⟨4, 4⟩, ⟨4, 3⟩] := by rfl

/-- So many rows that there is no room for their steps, although there are kernels. -/
theorem partition_without_room : (KernelTable.full .avx2 6).holds 1 = true ∧
    partition .checked 6 (KernelTable.full .avx2 6) (2 ^ 64 - 1) = .error .panicked ∧
    partition .wrapping 6 (KernelTable.full .avx2 6) (2 ^ 64 - 1) = .error .panicked :=
  ⟨by decide, by rfl, by rfl⟩

end Greedy

end PanelGemm
