import Mathlib.Data.Set.Card
import PanelGemm.Proofs.Tiling.Partition

/-!
# Steps taken one at a time

The greedy partition takes all full steps of one height at once. Taken one at a time, each step has
the tallest height that fits the rows that are left, and if none fits the smallest height is masked
(`OneAtATime`). Both ways give the same steps (`partition_one_at_a_time`).

Between the two stands a loop that looks in every turn for the tallest height that fits and takes as
many steps of it as it can (`turn`, `Turns`). A height that was taken, or that did not fit, does not
fit what is left later, so no height has more than one turn, and the turns of the loop are the
batches of the partition (`turns_batches`, `length_batches_le`).
-/

set_option autoImplicit false
set_option relaxedAutoImplicit false

namespace PanelGemm

namespace Greedy

/-! ### One at a time -/

/-- The steps that cover a number of rows, taken one at a time from a choice of heights. -/
inductive OneAtATime (choice : Set Nat) : Nat → List Step → Prop
  | done : OneAtATime choice 0 []
  | full {rows height : Nat} {steps : List Step} (positive : 0 < rows)
    (tallest : IsGreatest {height ∈ choice | height ≤ rows} height)
    (rest : OneAtATime choice (rows - height) steps) :
    OneAtATime choice rows (⟨height, height⟩ :: steps)
  | masked {rows height : Nat} (positive : 0 < rows) (short : ∀ height ∈ choice, rows < height)
    (least : IsLeast choice height) : OneAtATime choice rows [⟨height, rows⟩]

namespace OneAtATime

variable {choice : Set Nat} {rows height : Nat} {steps other : List Step}

/-- There is only one way to take the steps. -/
theorem unique (h : OneAtATime choice rows steps) (hother : OneAtATime choice rows other) :
    steps = other := by
  induction h generalizing other with
  | done =>
    cases hother with
    | done => rfl
    | full positive => exact absurd positive (Nat.lt_irrefl 0)
    | masked positive => exact absurd positive (Nat.lt_irrefl 0)
  | full positive tallest rest ih =>
    cases hother with
    | done => exact absurd positive (Nat.lt_irrefl 0)
    | full positive' tallest' rest' =>
      obtain rfl := tallest.unique tallest'
      rw [ih rest']
    | masked positive' short => exact absurd tallest.1.2 (Nat.not_le_of_lt (short _ tallest.1.1))
  | masked positive short least =>
    cases hother with
    | done => exact absurd positive (Nat.lt_irrefl 0)
    | full positive' tallest => exact absurd tallest.1.2 (Nat.not_le_of_lt (short _ tallest.1.1))
    | masked positive' short' least' => rw [least.unique least']

/-- A height that is the tallest one that fits is taken again for as long as it fits: what is left
by then admits no taller one. -/
theorem replicate_append (tallest : IsGreatest {height ∈ choice | height ≤ rows} height)
    (hheight : 0 < height) {count : Nat} (hcount : count * height ≤ rows)
    (h : OneAtATime choice (rows - count * height) steps) :
    OneAtATime choice rows (List.replicate count ⟨height, height⟩ ++ steps) := by
  induction count generalizing rows with
  | zero => rwa [Nat.zero_mul, Nat.sub_zero] at h
  | succ count ih =>
    rw [Nat.succ_mul] at hcount h
    refine .full (by omega) tallest ?_
    by_cases hlast : count = 0
    · subst hlast
      rwa [Nat.zero_mul, Nat.zero_add] at h
    · have hfits : height ≤ count * height := Nat.le_mul_of_pos_left _ (Nat.pos_of_ne_zero hlast)
      have hagain : IsGreatest {other ∈ choice | other ≤ rows - height} height := by
        refine ⟨⟨tallest.1.1, by omega⟩, fun other hother ↦ ?_⟩
        exact tallest.2 ⟨hother.1, Nat.le_trans hother.2 (Nat.sub_le _ _)⟩
      refine ih hagain (by omega) ?_
      rwa [Nat.sub_sub, Nat.add_comm]

end OneAtATime

/-! ### The loop -/

/-- One turn of the loop for ascending heights: as many full steps as fit of the tallest height that
fits at all, or else a masked step of the smallest, and the rows that are left after it. -/
def turn (smallest : Nat) (heights : List Nat) (rows : Nat) : Batch × Nat :=
  match heights.reverse.find? fun height ↦ decide (height ≤ rows) with
  | some height => (⟨⟨height, height⟩, rows / height⟩, rows - rows / height * height)
  | none => (⟨⟨smallest, rows⟩, 1⟩, 0)

/-- The batches of the turns that the loop makes for as long as rows are left. -/
inductive Turns (smallest : Nat) (heights : List Nat) : Nat → List Batch → Prop
  | done : Turns smallest heights 0 []
  | turn {rows left : Nat} {batch : Batch} {batches : List Batch} (positive : 0 < rows)
    (taken : turn smallest heights rows = (batch, left))
    (rest : Turns smallest heights left batches) : Turns smallest heights rows (batch :: batches)

variable {table : KernelTable} {cap rows smallest : Nat} {heights : List Nat}

/-- There is only one way for the loop to go. -/
theorem Turns.unique {batches other : List Batch} (h : Turns smallest heights rows batches)
    (hother : Turns smallest heights rows other) : batches = other := by
  induction h generalizing other with
  | done =>
    cases hother with
    | done => rfl
    | turn positive => exact absurd positive (Nat.lt_irrefl 0)
  | turn positive taken rest ih =>
    cases hother with
    | done => exact absurd positive (Nat.lt_irrefl 0)
    | turn positive' taken' rest' =>
      cases taken.symm.trans taken'
      rw [ih rest']

/-- What a turn takes and leaves. -/
theorem turn_cases (hsorted : heights.Pairwise (· < ·)) :
    (∃ height, IsGreatest {height | height ∈ heights ∧ height ≤ rows} height ∧
      turn smallest heights rows =
        (⟨⟨height, height⟩, rows / height⟩, rows - rows / height * height)) ∨
    (∀ height ∈ heights, rows < height) ∧
      turn smallest heights rows = (⟨⟨smallest, rows⟩, 1⟩, 0) := by
  unfold turn
  cases hfound : heights.reverse.find? fun height ↦ decide (height ≤ rows) with
  | none =>
    refine .inr ⟨fun height hheight ↦ ?_, rfl⟩
    have hnot := List.find?_eq_none.mp hfound height (List.mem_reverse.mpr hheight)
    simpa using hnot
  | some height =>
    obtain ⟨hfits, taller, shorter, hreverse, htaller⟩ := List.find?_eq_some_iff_append.mp hfound
    have hmem : height ∈ heights := List.mem_reverse.mp (List.mem_of_find?_eq_some hfound)
    refine .inl ⟨height, ⟨⟨hmem, of_decide_eq_true hfits⟩, fun other hother ↦ ?_⟩, rfl⟩
    have hdescending : heights.reverse.Pairwise (fun upper lower ↦ lower < upper) :=
      List.pairwise_reverse.mpr hsorted
    have hplace : other ∈ taller ++ height :: shorter := hreverse ▸ List.mem_reverse.mpr hother.1
    rw [hreverse] at hdescending
    rcases List.mem_append.mp hplace with hbefore | hafter
    · have hnot := htaller other hbefore
      simp [hother.2] at hnot
    · rcases List.mem_cons.mp hafter with rfl | hlater
      · exact Nat.le_refl _
      · have hsuffix := (List.pairwise_append.mp hdescending).2.1
        exact Nat.le_of_lt (List.rel_of_pairwise_cons hsuffix hlater)

/-- The loop takes the steps that are taken one at a time. -/
theorem Turns.oneAtATime {batches : List Batch} (h : Turns smallest heights rows batches)
    (hsorted : heights.Pairwise (· < ·)) (hpos : ∀ height ∈ heights, 0 < height)
    (hleast : IsLeast {height | height ∈ heights} smallest) :
    OneAtATime {height | height ∈ heights} rows (steps batches) := by
  induction h with
  | done => exact .done
  | @turn rows left batch batches positive taken rest ih =>
    change OneAtATime _ rows (List.replicate batch.count batch.step ++ steps batches)
    rcases turn_cases hsorted with ⟨height, tallest, hturn⟩ | ⟨hshort, hturn⟩
    · cases taken.symm.trans hturn
      exact .replicate_append tallest (hpos height tallest.1.1) (Nat.div_mul_le_self _ _) ih
    · cases taken.symm.trans hturn
      cases rest with
      | done => exact .masked positive hshort hleast
      | turn positive' => exact absurd positive' (Nat.lt_irrefl 0)

/-! ### The batches of a partition -/

/-- Batches of full steps, and a masked step for the rows that they leave. -/
def maskRest (smallest : Nat) (taken : List Batch × Nat) : List Batch :=
  if taken.2 = 0 then taken.1 else taken.1 ++ [⟨⟨smallest, taken.2⟩, 1⟩]

theorem maskRest_cons (batch : Batch) (full : List Batch) (left : Nat) :
    maskRest smallest (batch :: full, left) = batch :: maskRest smallest (full, left) := by
  unfold maskRest
  split_ifs
  · rfl
  · rfl

/-- If the first height fits behind others that are too tall, then a turn takes its steps. -/
theorem turn_of_fits {taller shorter : List Nat} {height : Nat}
    (hreverse : heights.reverse = taller ++ height :: shorter)
    (htaller : ∀ other ∈ taller, rows < other) (hfits : height ≤ rows) :
    turn smallest heights rows = (⟨⟨height, height⟩, rows / height⟩, rows % height) := by
  have hfound : heights.reverse.find? (fun height ↦ decide (height ≤ rows)) = some height := by
    rw [List.find?_eq_some_iff_append]
    refine ⟨decide_eq_true hfits, taller, shorter, hreverse, fun other hother ↦ ?_⟩
    simpa using htaller other hother
  have hdiv := Nat.div_add_mod' rows height
  have hleft : rows - rows / height * height = rows % height := by omega
  rw [turn, hfound, ← hleft]

/-- If all heights are too tall, then a turn masks the rest. -/
theorem turn_of_tall (htall : ∀ height ∈ heights, rows < height) :
    turn smallest heights rows = (⟨⟨smallest, rows⟩, 1⟩, 0) := by
  have hfound : heights.reverse.find? (fun height ↦ decide (height ≤ rows)) = none := by
    rw [List.find?_eq_none]
    intro height hheight
    simpa using htall height (List.mem_reverse.mp hheight)
  rw [turn, hfound]

/-- The heights that the partition has come past are too tall for the rows that are left, so the
loop goes on with the first one of the others that fits. -/
theorem turns_maskRest {taller shorter : List Nat} (hreverse : heights.reverse = taller ++ shorter)
    (htaller : ∀ height ∈ taller, rows < height) (hpos : ∀ height ∈ heights, 0 < height) :
    Turns smallest heights rows (maskRest smallest (fullBatches shorter rows)) := by
  induction shorter generalizing taller rows with
  | nil =>
    by_cases hnone : rows = 0
    · subst hnone
      exact .done
    · have htall : ∀ height ∈ heights, rows < height := by
        rw [List.append_nil] at hreverse
        exact fun height hheight ↦ htaller height (hreverse ▸ List.mem_reverse.mpr hheight)
      have hbatches : maskRest smallest (fullBatches [] rows) = [⟨⟨smallest, rows⟩, 1⟩] :=
        if_neg hnone
      rw [hbatches]
      exact .turn (Nat.pos_of_ne_zero hnone) (turn_of_tall htall) .done
  | cons height shorter ih =>
    have hmem : height ∈ heights := by
      rw [← List.mem_reverse, hreverse]
      exact List.mem_append_right _ List.mem_cons_self
    have hnext : heights.reverse = (taller ++ [height]) ++ shorter := by
      rw [hreverse, List.append_assoc, List.singleton_append]
    have hpassed : ∀ left ≤ rows, left < height → ∀ other ∈ taller ++ [height], left < other := by
      intro left hle hlt other hother
      rcases List.mem_append.mp hother with htall | hlast
      · exact Nat.lt_of_le_of_lt hle (htaller other htall)
      · rwa [List.mem_singleton.mp hlast]
    unfold fullBatches
    by_cases hfits : height ≤ rows
    · simp only [hfits, if_true, maskRest_cons]
      refine .turn (Nat.lt_of_lt_of_le (hpos height hmem) hfits)
        (turn_of_fits hreverse htaller hfits) ?_
      exact ih hnext (hpassed _ (Nat.mod_le _ _) (Nat.mod_lt _ (hpos height hmem)))
    · simp only [hfits, if_false]
      exact ih hnext (hpassed rows (Nat.le_refl _) (Nat.lt_of_not_le hfits))

/-- The batches of a partition are those of the turns of the loop. -/
theorem turns_batches (hpos : ∀ height ∈ smallest :: heights, 0 < height) :
    Turns smallest (smallest :: heights) rows (batches smallest heights rows) :=
  turns_maskRest (List.nil_append _).symm nofun hpos

/-- There is at most one batch for each height, and one for the rows that are left. -/
theorem length_batches_le (smallest : Nat) (heights : List Nat) (rows : Nat) :
    (batches smallest heights rows).length ≤ (smallest :: heights).length + 1 := by
  have hfull := (sublist_fullBatches (smallest :: heights).reverse rows).length_le
  rw [List.length_map, List.length_reverse] at hfull
  change (maskRest smallest (fullBatches (smallest :: heights).reverse rows)).length ≤ _
  unfold maskRest
  split_ifs
  · omega
  · rw [List.length_append, List.length_singleton]
    omega

/-- The list of the considered heights has as many entries as there are such heights. -/
theorem ncard_considers (table : KernelTable) (cap : Nat) :
    {height | table.Considers cap height}.ncard = (considered cap table.available).length := by
  have hset : {height | table.Considers cap height} =
      ((considered cap table.available).toFinset : Set Nat) := by
    ext height
    rw [List.coe_toFinset]
    exact KernelTable.mem_considered.symm
  have hdistinct : (considered cap table.available).Nodup :=
    KernelTable.pairwise_considered.imp Nat.ne_of_lt
  rw [hset, Set.ncard_coe_finset, List.toFinset_card_of_nodup hdistinct]

/-- With a kernel, and with room for its steps, the partition of any number of rows gives the steps
that are taken one at a time from the heights that the cap admits, or from all of them if it admits
none. No other steps can be taken so. The loop comes to its end with these steps, and it has made no
more turns by then than there are such heights, and one. -/
theorem partition_one_at_a_time (arithmetic : Arithmetic) (cap : Nat) (table : KernelTable)
    (rows : Nat) (hkernel : ∃ height, table.holds height = true)
    (hroom : Affords arithmetic cap table rows) :
    ∃ result, partition arithmetic cap table rows = .ok result ∧
      (∀ other, OneAtATime {height | table.Considers cap height} rows other ↔ other = result) ∧
      ∃ smallest, (considered cap table.available).head? = some smallest ∧
        (∃ batches, Turns smallest (considered cap table.available) rows batches) ∧
        ∀ batches, Turns smallest (considered cap table.available) rows batches →
          steps batches = result ∧
            batches.length ≤ {height | table.Considers cap height}.ncard + 1 := by
  rw [ncard_considers]
  obtain ⟨height, hholds⟩ := hkernel
  have hkernels : table.available ≠ [] :=
    List.ne_nil_of_mem (KernelTable.mem_available.mpr hholds)
  have hpartition := partition_of_affords hkernels hroom
  cases hheights : considered cap table.available with
  | nil => exact absurd hheights (considered_ne_nil hkernels)
  | cons smallest heights =>
    rw [chosen, hheights] at hpartition
    have hconsiders : {height | table.Considers cap height} =
        {height | height ∈ smallest :: heights} := by
      ext height
      rw [← hheights]
      exact KernelTable.mem_considered.symm
    have hpos : ∀ height ∈ smallest :: heights, 0 < height := fun height hheight ↦
      (holds_of_mem_available (considered_subset cap _ (hheights ▸ hheight))).2
    have hsorted : (smallest :: heights).Pairwise (· < ·) :=
      hheights ▸ KernelTable.pairwise_considered
    have hturns : Turns smallest (smallest :: heights) rows (batches smallest heights rows) :=
      turns_batches hpos
    have hsteps := hturns.oneAtATime hsorted hpos (isLeast_smallest hsorted)
    refine ⟨_, hpartition, fun other ↦ ?_, smallest, rfl, ⟨_, hturns⟩, fun other hother ↦ ?_⟩
    · rw [hconsiders]
      exact ⟨fun hother ↦ hother.unique hsteps, fun hother ↦ hother ▸ hsteps⟩
    · obtain rfl := hturns.unique hother
      exact ⟨rfl, length_batches_le smallest heights rows⟩

/-- Twenty-three rows with kernels of four and of eight rows: only the last step is masked. -/
theorem partition_one_at_a_time_sparse :
    Affords .wrapping 8 sparseTable 23 ∧
      OneAtATime {height | sparseTable.Considers 8 height} 23
        [⟨8, 8⟩, ⟨8, 8⟩, ⟨4, 4⟩, ⟨4, 3⟩] := by
  have hroom : Affords .wrapping 8 sparseTable 23 := ⟨4, by decide, by decide⟩
  obtain ⟨result, hresult, hsteps, -⟩ :=
    partition_one_at_a_time .wrapping 8 sparseTable 23 ⟨4, by decide⟩ hroom
  exact ⟨hroom, (hsteps _).mpr (Except.ok.inj hresult)⟩

/-- Steps of one row cover any number of rows, but there is no room for so many of them. -/
theorem one_at_a_time_without_room : (KernelTable.full .baseline 1).holds 1 = true ∧
    (∀ steps, partition .checked 1 (KernelTable.full .baseline 1) (2 ^ 60) ≠ .ok steps) ∧
    ∀ steps, partition .wrapping 1 (KernelTable.full .baseline 1) (2 ^ 60) ≠ .ok steps :=
  ⟨by decide, fun _ ↦ nofun, fun _ ↦ nofun⟩

end Greedy

end PanelGemm
