import Mathlib.Algebra.Ring.Nat
import PanelGemm.Kernel.Family
import PanelGemm.Proofs.Arithmetic

/-!
# Tilings that cover the rows

A list of steps is a tiling of a number of rows if every step has a kernel that is tall enough and
the steps together have as many rows (`IsTiling`). The greedy partition is one whenever it is given
any kernel and room for what it asks for (`Greedy.Affords`): what the full steps leave is less than
the smallest height, so one masked step of the smallest kernel takes the rest.

Steps that are placed one below the other (`Tile.place`) give tiles that are stacked without gaps
(`Stacked`). They are laid out like this as long as there is room for the tiles and a word counts
their rows (`Tile.layOut_eq`).
-/

set_option autoImplicit false
set_option relaxedAutoImplicit false

namespace PanelGemm

/-- A list of steps with kernels of a table that together cover a number of rows. -/
structure IsTiling (table : KernelTable) (steps : List Step) (rows : Nat) : Prop where
  holds : ∀ step ∈ steps, table.holds step.kernelRows = true
  rows_pos : ∀ step ∈ steps, 0 < step.rows
  rows_le : ∀ step ∈ steps, step.rows ≤ step.kernelRows
  sum : (steps.map Step.rows).sum = rows

/-- Every list of steps that a family chooses for a number of rows is a tiling of them. -/
def Family.Tiles (family : Family) (arithmetic : Arithmetic) (rows : Nat) : Prop :=
  ∀ steps, family.partition arithmetic rows = .ok steps → IsTiling family.table steps rows

/-- No kernel has height zero. -/
theorem KernelTable.pos_of_holds {table : KernelTable} {height : Nat}
    (h : table.holds height = true) : 0 < height := by
  refine Nat.pos_of_ne_zero ?_
  rintro rfl
  rw [holds, table.reserved] at h
  exact absurd h (by decide)

/-! ### Tiles one below the other -/

namespace Tile

/-- The tiles of steps from a given row on. -/
def placeFrom (row : Nat) : List Step → List Tile
  | [] => []
  | step :: steps => ⟨row, step.rows, step.kernelRows⟩ :: placeFrom (row + step.rows) steps

/-- The tiles of steps from row zero on. -/
def place (steps : List Step) : List Tile := placeFrom 0 steps

variable {arithmetic : Arithmetic} {row : Nat} {steps : List Step} {tile : Tile}

/-- A placed tile comes from a step. -/
theorem mem_placeFrom (h : tile ∈ placeFrom row steps) :
    ∃ step ∈ steps, tile.rows = step.rows ∧ tile.kernelRows = step.kernelRows := by
  induction steps generalizing row with
  | nil => exact nomatch h
  | cons step steps ih =>
    rcases List.mem_cons.mp h with rfl | h
    · exact ⟨step, List.mem_cons_self, rfl, rfl⟩
    · obtain ⟨other, hother, hsame⟩ := ih h
      exact ⟨other, List.mem_cons_of_mem _ hother, hsame⟩

/-- Steps that fill their kernels do when they are placed. -/
theorem unmasked_place (h : ∀ step ∈ steps, step.isMasked = false) :
    ∀ tile ∈ place steps, tile.isMasked = false := by
  intro tile htile
  obtain ⟨step, hstep, hrows, hkernel⟩ := mem_placeFrom htile
  rw [isMasked, hrows, hkernel]
  exact h step hstep

/-- A placed tile keeps the kernel and the rows of its step. -/
theorem steps_placeFrom (row : Nat) (steps : List Step) :
    (placeFrom row steps).map (fun tile ↦ (⟨tile.kernelRows, tile.rows⟩ : Step)) = steps := by
  induction steps generalizing row with
  | nil => rfl
  | cons step steps ih => rw [placeFrom, List.map_cons, ih]

theorem length_placeFrom (row : Nat) (steps : List Step) :
    (placeFrom row steps).length = steps.length := by
  rw [← List.length_map fun tile : Tile ↦ (⟨tile.kernelRows, tile.rows⟩ : Step), steps_placeFrom]

theorem layOutFrom_eq (h : row + (steps.map Step.rows).sum < Word.limit) :
    layOutFrom arithmetic row steps = .ok (placeFrom row steps) := by
  induction steps generalizing row with
  | nil => rfl
  | cons step steps ih =>
    rw [List.map_cons, List.sum_cons, ← Nat.add_assoc] at h
    rw [layOutFrom, Arithmetic.word_of_lt (by omega), ok_bind, ih h]
    rfl

/-- Steps whose rows a word counts are laid out one below the other if there is room for as many
tiles. -/
theorem layOut_eq (hroom : steps.length * tileBytes < Word.signedLimit)
    (hrows : (steps.map Step.rows).sum < Word.limit) :
    layOut arithmetic steps = .ok (place steps) := by
  rw [layOut, Capacity.reserve_eq_ok.mpr hroom, ok_bind]
  exact layOutFrom_eq (by rwa [Nat.zero_add])

/-- Without room for them no tiles are laid out. -/
theorem layOut_without_room (hroom : Word.signedLimit ≤ steps.length * tileBytes) :
    layOut arithmetic steps = .error .panicked := by
  have hreserve : Capacity.reserve tileBytes steps.length = .error .panicked :=
    if_neg (Nat.not_lt_of_le hroom)
  rw [layOut, hreserve, error_bind]

end Tile

/-! ### The greedy partition -/

namespace Greedy

variable {heights : List Nat} {rows smallest : Nat}

/-- The rows of the steps of batches. -/
theorem sum_steps (batches : List Batch) :
    ((steps batches).map Step.rows).sum =
      (batches.map fun batch ↦ batch.count * batch.step.rows).sum := by
  induction batches with
  | nil => rfl
  | cons batch batches ih =>
    have hsteps : steps (batch :: batches) =
        List.replicate batch.count batch.step ++ steps batches := List.flatMap_cons
    rw [hsteps, List.map_append, List.sum_append, ih, List.map_replicate, List.sum_replicate_nat,
      List.map_cons, List.sum_cons]

/-- A step belongs to one of the batches. -/
theorem mem_steps {batches : List Batch} {step : Step} (h : step ∈ steps batches) :
    ∃ batch ∈ batches, batch.step = step := by
  obtain ⟨batch, hbatch, hstep⟩ := List.mem_flatMap.mp h
  exact ⟨batch, hbatch, (List.eq_of_mem_replicate hstep).symm⟩

/-- The full steps and the rest make up the rows. -/
theorem fullBatches_sum (heights : List Nat) (rows : Nat) :
    ((steps (fullBatches heights rows).1).map Step.rows).sum + (fullBatches heights rows).2 =
      rows := by
  rw [sum_steps]
  induction heights generalizing rows with
  | nil => exact Nat.zero_add rows
  | cons height heights ih =>
    unfold fullBatches
    by_cases hle : height ≤ rows
    · have hdiv := Nat.div_add_mod rows height
      have hrest := ih (rows % height)
      rw [Nat.mul_comm] at hdiv
      simp only [hle, if_true, List.map_cons, List.sum_cons]
      omega
    · simp only [hle, if_false]
      exact ih rows

/-- A batch of full steps has one of the heights, and its steps fill it. -/
theorem mem_fullBatches {batch : Batch} (h : batch ∈ (fullBatches heights rows).1) :
    batch.step.kernelRows ∈ heights ∧ batch.step.rows = batch.step.kernelRows := by
  induction heights generalizing rows with
  | nil => simp [fullBatches] at h
  | cons height heights ih =>
    unfold fullBatches at h
    by_cases hle : height ≤ rows
    · simp only [hle, if_true, List.mem_cons] at h
      rcases h with rfl | h
      · exact ⟨List.mem_cons_self, rfl⟩
      · exact ⟨List.mem_cons_of_mem _ (ih h).1, (ih h).2⟩
    · simp only [hle, if_false] at h
      exact ⟨List.mem_cons_of_mem _ (ih h).1, (ih h).2⟩

/-- What the full steps leave is less than any of the heights. -/
theorem fullBatches_rest_lt (hpos : ∀ height ∈ heights, 0 < height) :
    ∀ height ∈ heights, (fullBatches heights rows).2 < height := by
  induction heights generalizing rows with
  | nil => simp
  | cons first heights ih =>
    have hrest : ∀ rest, ∀ height ∈ heights, (fullBatches heights rest).2 < height :=
      fun rest ↦ ih fun height hheight ↦ hpos height (List.mem_cons_of_mem _ hheight)
    intro height hheight
    unfold fullBatches
    by_cases hle : first ≤ rows
    · simp only [hle, if_true]
      rcases List.mem_cons.mp hheight with rfl | hheight
      · have hsum := fullBatches_sum heights (rows % height)
        have hmod := Nat.mod_lt rows (hpos height List.mem_cons_self)
        omega
      · exact hrest _ height hheight
    · simp only [hle, if_false]
      rcases List.mem_cons.mp hheight with rfl | hheight
      · have hsum := fullBatches_sum heights rows
        omega
      · exact hrest _ height hheight

/-- The batches of a greedy partition make a tiling with any heights that have kernels. -/
theorem isTiling_batches {table : KernelTable}
    (hholds : ∀ height ∈ smallest :: heights, table.holds height = true)
    (hpos : ∀ height ∈ smallest :: heights, 0 < height) :
    IsTiling table (steps (batches smallest heights rows)) rows := by
  let full := fullBatches (smallest :: heights).reverse rows
  have hsum := fullBatches_sum (smallest :: heights).reverse rows
  have hrest : full.2 < smallest :=
    fullBatches_rest_lt (fun height hheight ↦ hpos height (List.mem_reverse.mp hheight)) smallest
      (List.mem_reverse.mpr List.mem_cons_self)
  have hfull : ∀ step ∈ steps full.1, table.holds step.kernelRows = true ∧ 0 < step.rows ∧
      step.rows ≤ step.kernelRows := by
    intro step hstep
    obtain ⟨batch, hbatch, rfl⟩ := mem_steps hstep
    obtain ⟨hheight, hrows⟩ := mem_fullBatches hbatch
    have hmem := List.mem_reverse.mp hheight
    exact ⟨hholds _ hmem, hrows ▸ hpos _ hmem, Nat.le_of_eq hrows⟩
  by_cases hnone : full.2 = 0
  · have hbatches : batches smallest heights rows = full.1 := if_pos hnone
    rw [hbatches]
    refine ⟨fun step h ↦ (hfull step h).1, fun step h ↦ (hfull step h).2.1,
      fun step h ↦ (hfull step h).2.2, ?_⟩
    rwa [show (fullBatches (smallest :: heights).reverse rows).2 = 0 from hnone] at hsum
  · have hbatches : steps (batches smallest heights rows) =
        steps full.1 ++ [⟨smallest, full.2⟩] := by
      rw [show batches smallest heights rows = full.1 ++ [⟨⟨smallest, full.2⟩, 1⟩] from
        if_neg hnone]
      exact List.flatMap_append
    have hall : ∀ step ∈ steps full.1 ++ [⟨smallest, full.2⟩],
        table.holds step.kernelRows = true ∧ 0 < step.rows ∧ step.rows ≤ step.kernelRows := by
      intro step hstep
      rcases List.mem_append.mp hstep with hstep | hstep
      · exact hfull step hstep
      · rw [List.mem_singleton.mp hstep]
        exact ⟨hholds _ List.mem_cons_self, Nat.pos_of_ne_zero hnone, Nat.le_of_lt hrest⟩
    rw [hbatches]
    refine ⟨fun step h ↦ (hall step h).1, fun step h ↦ (hall step h).2.1,
      fun step h ↦ (hall step h).2.2, ?_⟩
    rw [List.map_append, List.sum_append]
    exact hsum

theorem considered_subset (cap : Nat) (heights : List Nat) : considered cap heights ⊆ heights := by
  by_cases hshort : (heights.filter fun height ↦ decide (height ≤ cap)).isEmpty = true
  · rw [considered, if_pos hshort]
    exact List.Subset.refl heights
  · rw [considered, if_neg hshort]
    exact List.filter_sublist.subset

/-- A cap leaves a kernel if there is one. -/
theorem considered_ne_nil {cap : Nat} {heights : List Nat} (h : heights ≠ []) :
    considered cap heights ≠ [] := by
  by_cases hshort : (heights.filter fun height ↦ decide (height ≤ cap)).isEmpty = true
  · rw [considered, if_pos hshort]
    exact h
  · rw [considered, if_neg hshort]
    exact fun hnone ↦ hshort (List.isEmpty_iff.mpr hnone)

/-- A kernel that is considered is one of the table. -/
theorem available_ne_nil {cap : Nat} {table : KernelTable}
    (h : considered cap table.available ≠ []) : table.available ≠ [] :=
  fun hnone ↦ h (List.subset_nil.mp (hnone ▸ considered_subset cap table.available))

/-- The heights of a table have kernels, and none of them is zero. -/
theorem holds_of_mem_available {table : KernelTable} {height : Nat}
    (h : height ∈ table.available) : table.holds height = true ∧ 0 < height :=
  have hholds := (List.mem_filter.mp h).2
  ⟨hholds, KernelTable.pos_of_holds hholds⟩

/-- The batches of the heights that a cap admits. -/
def chosen (cap : Nat) (table : KernelTable) (rows : Nat) : List Batch :=
  match considered cap table.available with
  | [] => []
  | smallest :: heights => batches smallest heights rows

/-- The steps that a partition asks room for at first: as many as the tallest considered height
needs, and one more for each of these heights. -/
def asked (cap : Nat) (table : KernelTable) (rows : Nat) : Nat :=
  rows / (considered cap table.available).getLastD 1 + (considered cap table.available).length

/-- There is room for the steps that a partition asks for: at first for as many as a word says, and
then for as many as the steps that are listed make it grow to. -/
def Affords (arithmetic : Arithmetic) (cap : Nat) (table : KernelTable) (rows : Nat) : Prop :=
  ∃ first, arithmetic.word (asked cap table rows) = .ok first ∧
    ∀ capacity ∈ first :: growth first 0 (chosen cap table rows),
      capacity * stepBytes < Word.signedLimit

/-- Room for several buffers can be had if there is room for each of them. -/
theorem forM_reserve_eq_ok {bytes : Nat} {capacities : List Nat} :
    capacities.forM (Capacity.reserve bytes) = .ok () ↔
      ∀ capacity ∈ capacities, capacity * bytes < Word.signedLimit := by
  induction capacities with
  | nil => exact iff_of_true rfl nofun
  | cons capacity capacities ih =>
    change (Capacity.reserve bytes capacity >>= fun _ ↦
      capacities.forM (Capacity.reserve bytes)) = _ ↔ _
    rw [bind_eq_ok, List.forall_mem_cons, ← ih, ← Capacity.reserve_eq_ok]
    exact ⟨fun ⟨_, hfirst, hrest⟩ ↦ ⟨hfirst, hrest⟩, fun ⟨hfirst, hrest⟩ ↦ ⟨(), hfirst, hrest⟩⟩

/-- Asking for room does nothing but panic or succeed. -/
theorem mayPanic_forM_reserve (bytes : Nat) (capacities : List Nat) :
    MayPanic (capacities.forM (Capacity.reserve bytes)) fun _ ↦ True := by
  induction capacities with
  | nil => exact mayPanic_ok trivial
  | cons capacity capacities ih =>
    exact (Capacity.mayPanic_reserve _ _).bind fun _ _ ↦ ih

section Partition

variable {arithmetic : Arithmetic} {cap : Nat} {table : KernelTable}

/-- With a kernel a partition asks for room first, and then it has the batches of the considered
heights. -/
theorem partition_eq (hkernels : table.available ≠ []) :
    partition arithmetic cap table rows =
      arithmetic.word (asked cap table rows) >>= fun first ↦
        (first :: growth first 0 (chosen cap table rows)).forM (Capacity.reserve stepBytes) >>=
          fun _ ↦ .ok (steps (chosen cap table rows)) := by
  cases hheights : considered cap table.available with
  | nil => exact absurd hheights (considered_ne_nil hkernels)
  | cons smallest heights =>
    rw [partition, asked, chosen, hheights, List.getLastD_cons]
    rfl

/-- With a kernel a partition succeeds if there is room for its steps. -/
theorem partition_of_affords (hkernels : table.available ≠ [])
    (h : Affords arithmetic cap table rows) :
    partition arithmetic cap table rows = .ok (steps (chosen cap table rows)) := by
  obtain ⟨first, hfirst, hroom⟩ := h
  rw [partition_eq hkernels, hfirst, ok_bind, forM_reserve_eq_ok.mpr hroom, ok_bind]

/-- Without room for its steps a partition is a panic. -/
theorem partition_without_affords (hkernels : table.available ≠ [])
    (h : ¬ Affords arithmetic cap table rows) :
    partition arithmetic cap table rows = .error .panicked := by
  rw [partition_eq hkernels]
  rcases Arithmetic.mayPanic_word arithmetic (asked cap table rows) with hword | ⟨first, hword, -⟩
  · rw [hword, error_bind]
  · rw [hword, ok_bind]
    rcases mayPanic_forM_reserve stepBytes (first :: growth first 0 (chosen cap table rows)) with
      hpanics | ⟨_, hroom, -⟩
    · rw [hpanics, error_bind]
    · exact absurd ⟨first, hword, forM_reserve_eq_ok.mp hroom⟩ h

/-- A partition that succeeds has the batches of the considered heights, and room for them. -/
theorem steps_of_partition {result : List Step}
    (h : partition arithmetic cap table rows = .ok result) :
    Affords arithmetic cap table rows ∧
      ∃ smallest heights, considered cap table.available = smallest :: heights ∧
        result = steps (batches smallest heights rows) := by
  cases hheights : considered cap table.available with
  | nil =>
    rw [partition, hheights] at h
    exact nomatch h
  | cons smallest heights =>
    have hkernels := available_ne_nil (hheights ▸ List.cons_ne_nil smallest heights)
    have haffords : Affords arithmetic cap table rows := by
      by_contra hnot
      exact nomatch h.symm.trans (partition_without_affords hkernels hnot)
    rw [partition_of_affords hkernels haffords] at h
    refine ⟨haffords, smallest, heights, rfl, ?_⟩
    rw [← Except.ok.inj h, chosen, hheights]

/-- A greedy partition is a tiling. -/
theorem isTiling_of_partition {result : List Step}
    (h : partition arithmetic cap table rows = .ok result) : IsTiling table result rows := by
  obtain ⟨-, smallest, heights, hheights, rfl⟩ := steps_of_partition h
  have hmem : ∀ height ∈ smallest :: heights, table.holds height = true ∧ 0 < height :=
    fun height hheight ↦ holds_of_mem_available
      (considered_subset cap table.available (hheights ▸ hheight))
  exact isTiling_batches (fun height hheight ↦ (hmem height hheight).1)
    fun height hheight ↦ (hmem height hheight).2

/-- Room that is enough for all steps does not have to grow. -/
theorem growth_of_le {room listed : Nat} {batches : List Batch}
    (h : listed + (batches.map Batch.count).sum ≤ room) : growth room listed batches = [] := by
  induction batches generalizing listed with
  | nil => rfl
  | cons batch batches ih =>
    rw [List.map_cons, List.sum_cons, ← Nat.add_assoc] at h
    have hfits : listed + batch.count ≤ room := Nat.le_trans (Nat.le_add_right _ _) h
    rw [growth]
    exact (if_pos hfits).trans (ih h)

end Partition

end Greedy

/-- A family that tiles greedily tiles any number of rows. -/
theorem Family.tiles_of_greedy {family : Family} (hpolicy : family.policy = .greedy)
    (arithmetic : Arithmetic) (rows : Nat) : family.Tiles arithmetic rows := by
  intro steps hsteps
  rw [partition, hpolicy] at hsteps
  exact Greedy.isTiling_of_partition hsteps

/-! ### Stacked tiles -/

/-- Tiles that lie one below the other without gaps, from a row to the row below the last one. -/
def Stacked : Nat → List Tile → Nat → Prop
  | row, [], stop => row = stop
  | row, tile :: tiles, stop => tile.row = row ∧ Stacked tile.stop tiles stop

namespace Stacked

variable {row stop : Nat} {tile : Tile} {tiles rest : List Tile}

theorem append_iff : Stacked row (tiles ++ rest) stop ↔
    ∃ middle, Stacked row tiles middle ∧ Stacked middle rest stop := by
  induction tiles generalizing row with
  | nil => simp [Stacked]
  | cons tile tiles ih =>
    rw [List.cons_append, Stacked, ih]
    constructor
    · rintro ⟨hrow, middle, htiles, hrest⟩
      exact ⟨middle, ⟨hrow, htiles⟩, hrest⟩
    · rintro ⟨middle, ⟨hrow, htiles⟩, hrest⟩
      exact ⟨hrow, middle, htiles, hrest⟩

/-- One of several stacks that are stacked themselves, with what lies above and below it. -/
theorem exists_parts {spans : List (List Tile)} {span : List Tile}
    (h : Stacked row spans.flatten stop) (hspan : span ∈ spans) :
    ∃ before after first last, spans = before ++ span :: after ∧
      Stacked row before.flatten first ∧ Stacked first span last ∧
      Stacked last after.flatten stop := by
  obtain ⟨before, after, rfl⟩ := List.append_of_mem hspan
  rw [List.flatten_append, List.flatten_cons] at h
  obtain ⟨first, hbefore, hrest⟩ := append_iff.mp h
  obtain ⟨last, hhere, hafter⟩ := append_iff.mp hrest
  exact ⟨before, after, first, last, rfl, hbefore, hhere, hafter⟩

/-- The tiles lie between the first row and the last. -/
theorem bounds (h : Stacked row tiles stop) :
    row ≤ stop ∧ ∀ tile ∈ tiles, row ≤ tile.row ∧ tile.stop ≤ stop := by
  induction tiles generalizing row with
  | nil => exact ⟨Nat.le_of_eq h, nofun⟩
  | cons tile tiles ih =>
    obtain ⟨hrow, htiles⟩ := h
    obtain ⟨hle, hrest⟩ := ih htiles
    have hstop : tile.row ≤ tile.stop := Nat.le_add_right _ _
    refine ⟨by omega, fun other hother ↦ ?_⟩
    rcases List.mem_cons.mp hother with rfl | hother
    · exact ⟨Nat.le_of_eq hrow.symm, hle⟩
    · have hbounds := hrest other hother
      exact ⟨by omega, hbounds.2⟩

/-- Every row belongs to a tile. -/
theorem exists_tile (h : Stacked row tiles stop) {i : Nat} (hrow : row ≤ i) (hstop : i < stop) :
    ∃ tile ∈ tiles, tile.row ≤ i ∧ i < tile.stop := by
  induction tiles generalizing row with
  | nil =>
    have hempty : row = stop := h
    omega
  | cons tile tiles ih =>
    obtain ⟨hfirst, hrest⟩ := h
    by_cases hhere : i < tile.stop
    · exact ⟨tile, List.mem_cons_self, hfirst ▸ hrow, hhere⟩
    · obtain ⟨other, hother, hrows⟩ := ih hrest (Nat.le_of_not_lt hhere)
      exact ⟨other, List.mem_cons_of_mem _ hother, hrows⟩

end Stacked

/-- Placed steps are stacked. -/
theorem Tile.stacked_placeFrom (row : Nat) (steps : List Step) :
    Stacked row (placeFrom row steps) (row + (steps.map Step.rows).sum) := by
  induction steps generalizing row with
  | nil => rfl
  | cons step steps ih =>
    refine ⟨rfl, ?_⟩
    rw [List.map_cons, List.sum_cons, ← Nat.add_assoc]
    exact ih (row + step.rows)

/-- The tiles of a tiling are stacked from the first row to the last one. -/
theorem IsTiling.stacked {table : KernelTable} {steps : List Step} {rows : Nat}
    (h : IsTiling table steps rows) : Stacked 0 (Tile.place steps) rows := by
  have hstacked := Tile.stacked_placeFrom 0 steps
  rw [h.sum, Nat.zero_add] at hstacked
  exact hstacked

end PanelGemm
