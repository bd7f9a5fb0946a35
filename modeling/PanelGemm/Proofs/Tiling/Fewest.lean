import Mathlib.Algebra.Order.BigOperators.Group.List
import Mathlib.Algebra.Order.Floor.Div
import PanelGemm.Proofs.Tiling.OneAtATime

/-!
# The fewest tiles

Tiles of at most a given height cover a number of rows only if there are enough of them
(`ceilDiv_le_length`). A family that has all heights up to its tallest gets along with as few: taken
one at a time the steps are full ones of the tallest height, and one step for all of the rows that
are left (`Greedy.OneAtATime.fewest`). Any other greedy family masks one tile at most
(`Greedy.countP_isMasked_le_one`).
-/

set_option autoImplicit false
set_option relaxedAutoImplicit false

namespace PanelGemm

/-- A number of rows takes at least as many steps as if all of them were as tall as can be. -/
theorem ceilDiv_le_length {steps : List Step} {tallest rows : Nat} (htallest : 0 < tallest)
    (hrows : ∀ step ∈ steps, step.rows ≤ tallest) (hsum : (steps.map Step.rows).sum = rows) :
    rows ⌈/⌉ tallest ≤ steps.length := by
  have htotal : (steps.map Step.rows).sum ≤ (steps.map Step.rows).length • tallest :=
    List.sum_le_card_nsmul _ tallest (List.forall_mem_map.mpr hrows)
  rw [List.length_map, hsum, smul_eq_mul, Nat.mul_comm] at htotal
  exact (ceilDiv_le_iff_le_mul htallest).mpr htotal

/-- One step takes as many rows as the tallest height has, or all that are left. -/
theorem sub_ceilDiv_add_one {tallest rows : Nat} (htallest : 0 < tallest) (hrows : 0 < rows) :
    (rows - tallest) ⌈/⌉ tallest + 1 = rows ⌈/⌉ tallest := by
  have hall : rows ⌈/⌉ tallest = (rows - 1) / tallest + 1 := by
    rw [Nat.ceilDiv_eq_add_pred_div, Nat.sub_add_comm hrows, Nat.add_div_right _ htallest]
  rw [hall, Nat.ceilDiv_eq_add_pred_div]
  rcases Nat.le_total tallest rows with hle | hle
  · rw [Nat.sub_add_cancel hle]
  · rw [Nat.sub_eq_zero_of_le hle, Nat.zero_add, Nat.div_eq_of_lt (by omega),
      Nat.div_eq_of_lt (by omega)]

/-- The tiles with which heights up to the tallest cover a number of rows: none of them is masked,
and there are no more than it takes. No other steps that fit their kernels are fewer. -/
structure CoversWithFewest (tallest rows : Nat) (tiles : List Tile) : Prop where
  unmasked : ∀ tile ∈ tiles, tile.isMasked = false
  length : tiles.length = rows ⌈/⌉ tallest
  fewest : ∀ other : List Step,
    (∀ step ∈ other, step.rows ≤ step.kernelRows ∧ step.kernelRows ≤ tallest) →
      (other.map Step.rows).sum = rows → tiles.length ≤ other.length

namespace Tile

/-- Steps that are placed stay masked or not. -/
theorem countP_isMasked_placeFrom (row : Nat) (steps : List Step) :
    (placeFrom row steps).countP isMasked = steps.countP Step.isMasked := by
  calc (placeFrom row steps).countP isMasked
      = ((placeFrom row steps).map fun tile ↦ (⟨tile.kernelRows, tile.rows⟩ : Step)).countP
          Step.isMasked := by
        rw [List.countP_map]
        rfl
    _ = steps.countP Step.isMasked := by rw [steps_placeFrom]

end Tile

namespace KernelTable

/-- A full table has a kernel of every height up to the tallest. -/
theorem holds_full {level : Level} {tallest height : Nat} :
    (full level tallest).holds height = true ↔ 0 < height ∧ height ≤ tallest := by
  unfold holds full
  dsimp only
  rw [beq_iff_eq, Array.getElem?_ofFn]
  split_ifs with hheight
  · rw [Option.some_inj, bne_iff_ne]
    change height ≠ 0 ↔ _
    omega
  · exact iff_of_false nofun (by omega)

/-- With a cap that all of them are within, all heights of a full table are considered. -/
theorem considers_full (level : Level) (tallest : Nat) :
    {height | (full level tallest).Considers tallest height} =
      {height | 0 < height ∧ height ≤ tallest} := by
  ext height
  change _ ∧ _ ↔ _
  rw [holds_full]
  exact and_iff_left_of_imp fun h ↦ .inl h.2

end KernelTable

namespace Greedy

variable {arithmetic : Arithmetic} {table : KernelTable} {cap rows tallest : Nat}
  {result : List Step}

/-- The last step of a partition is the only one that may be masked. -/
theorem countP_isMasked_le_one (h : partition arithmetic cap table rows = .ok result) :
    result.countP Step.isMasked ≤ 1 := by
  obtain ⟨-, smallest, heights, -, hresult⟩ := steps_of_partition h
  have hfull : ∀ step ∈ result.dropLast, step.isMasked = false :=
    fun step hstep ↦ isMasked_of_mem_dropLast (hresult ▸ hstep)
  rcases List.eq_nil_or_concat' result with rfl | ⟨front, last, rfl⟩
  · exact Nat.zero_le 1
  · rw [List.dropLast_concat] at hfull
    have hfront : front.countP Step.isMasked = 0 :=
      List.countP_eq_zero.mpr fun step hstep ↦ Bool.eq_false_iff.mp (hfull step hstep)
    rw [List.countP_append, hfront, Nat.zero_add]
    exact List.countP_le_length

/-- The batches of the considered heights have the steps that are taken one at a time. -/
theorem oneAtATime_chosen (cap rows : Nat) (hkernels : table.available ≠ []) :
    OneAtATime {height | table.Considers cap height} rows (steps (chosen cap table rows)) := by
  cases hheights : considered cap table.available with
  | nil => exact absurd hheights (considered_ne_nil hkernels)
  | cons smallest heights =>
    have hconsiders : {height | table.Considers cap height} =
        {height | height ∈ smallest :: heights} := by
      ext height
      rw [← hheights]
      exact KernelTable.mem_considered.symm
    have hpos : ∀ height ∈ smallest :: heights, 0 < height := fun height hheight ↦
      (holds_of_mem_available (considered_subset cap _ (hheights ▸ hheight))).2
    have hsorted : (smallest :: heights).Pairwise (· < ·) :=
      hheights ▸ KernelTable.pairwise_considered
    rw [hconsiders, chosen, hheights]
    exact (turns_batches hpos).oneAtATime hsorted hpos (isLeast_smallest hsorted)

/-- A partition that succeeds has the steps that are taken one at a time. -/
theorem oneAtATime_of_partition (h : partition arithmetic cap table rows = .ok result) :
    OneAtATime {height | table.Considers cap height} rows result := by
  obtain ⟨haffords, smallest, heights, hheights, -⟩ := steps_of_partition h
  have hkernels := available_ne_nil (hheights ▸ List.cons_ne_nil smallest heights)
  rw [partition_of_affords hkernels haffords] at h
  exact Except.ok.inj h ▸ oneAtATime_chosen _ _ hkernels

/-- If every height up to the tallest can be taken, no step is masked, and only the last one may be
lower than the tallest. -/
theorem OneAtATime.fewest {steps : List Step} (htallest : 0 < tallest)
    (h : OneAtATime {height | 0 < height ∧ height ≤ tallest} rows steps) :
    steps.length = rows ⌈/⌉ tallest ∧ ∀ step ∈ steps, step.isMasked = false := by
  induction h with
  | done => exact ⟨(zero_ceilDiv tallest).symm, nofun⟩
  | @full rows height steps positive greatest rest ih =>
    have hheight : height = min tallest rows := by
      refine greatest.unique ⟨⟨⟨by omega, by omega⟩, by omega⟩, fun other hother ↦ ?_⟩
      exact Nat.le_min.mpr ⟨hother.1.2, hother.2⟩
    have hleft : rows - height = rows - tallest := by omega
    refine ⟨?_, List.forall_mem_cons.mpr ⟨decide_eq_false (Nat.lt_irrefl _), ih.2⟩⟩
    rw [List.length_cons, ih.1, hleft, sub_ceilDiv_add_one htallest positive]
  | masked positive short =>
    exact absurd (short 1 ⟨Nat.one_pos, htallest⟩) (Nat.not_lt_of_le positive)

/-- The tiles of a full table are as few as can be. -/
theorem coversWithFewest_of_full {level : Level} (htallest : 0 < tallest)
    (h : partition arithmetic tallest (KernelTable.full level tallest) rows = .ok result) :
    CoversWithFewest tallest rows (Tile.place result) := by
  have hsteps := oneAtATime_of_partition h
  rw [KernelTable.considers_full] at hsteps
  obtain ⟨hlength, hunmasked⟩ := hsteps.fewest htallest
  refine ⟨Tile.unmasked_place hunmasked, ?_, fun other hother hsum ↦ ?_⟩
  · rw [Tile.place, Tile.length_placeFrom, hlength]
  · rw [Tile.place, Tile.length_placeFrom, hlength]
    exact ceilDiv_le_length htallest
      (fun step hstep ↦ Nat.le_trans (hother step hstep).1 (hother step hstep).2) hsum

end Greedy

end PanelGemm
