import PanelGemm.Proofs.Engine.Run
import PanelGemm.Proofs.Tiling.Fewest

/-!
# The families that are built in

A built-in family has a kernel of every height up to its tallest. It is therefore never short of a
kernel and never masks a tile, and since its tallest kernel is no taller than a column block of its
panels is wide, a strip is no longer than a K-block of the panel. A request whose operands are in
the memory of the machine together has so few rows that there is room for their steps and tiles. All
that it takes to run a built-in family is therefore that the operands are there
(`prepared_of_builtIn`). A greedy family that somebody else has made takes a kernel, and buffers for
its steps, tiles and strips (`PreparedGreedily`).
-/

set_option autoImplicit false
set_option relaxedAutoImplicit false

namespace PanelGemm

theorem KernelTable.tallest_full (level : Level) (height : Nat) :
    (full level height).tallest = height := by
  simp [tallest, full]

namespace Family

/-- The families that can be had without making one: those that are found by their level, and the
scalar one. -/
def BuiltIn (family : Family) : Prop :=
  family = scalar ∨ ∃ level, lookup level = .ok family

/-- A built-in family has every height up to its tallest, six or fourteen, and takes only panels
with column blocks that are wider than that. -/
theorem BuiltIn.exists_upTo {family : Family} (h : family.BuiltIn) :
    ∃ level tallest, family = upTo level tallest ∧ (tallest = narrowRows ∨ tallest = wideRows) ∧
      ∀ panel : Level, family.accepts panel.blockWidth = true → tallest ≤ panel.blockWidth := by
  rcases h with rfl | ⟨level, hlevel⟩
  · refine ⟨.baseline, narrowRows, rfl, .inl rfl, fun panel _ ↦ ?_⟩
    cases panel <;> decide
  · cases level with
    | baseline => exact nomatch hlevel
    | neon => exact nomatch hlevel
    | avx2 =>
      cases hlevel
      refine ⟨.avx2, narrowRows, rfl, .inl rfl, fun panel _ ↦ ?_⟩
      cases panel <;> decide
    | avx512Ymm =>
      cases hlevel
      refine ⟨.avx512Ymm, wideRows, rfl, .inr rfl, fun panel haccepts ↦ ?_⟩
      rw [show panel.blockWidth = Level.avx512Ymm.blockWidth from beq_iff_eq.mp haccepts]
      decide
    | avx512 =>
      cases hlevel
      refine ⟨.avx512, wideRows, rfl, .inr rfl, fun panel haccepts ↦ ?_⟩
      rw [show panel.blockWidth = Level.avx512.blockWidth from beq_iff_eq.mp haccepts]
      decide

theorem BuiltIn.policy_eq {family : Family} (h : family.BuiltIn) : family.policy = .greedy := by
  obtain ⟨level, tallest, rfl, -⟩ := h.exists_upTo
  rfl

/-- The heights of the built-in tables. -/
theorem considered_full (level : Level) {tallest : Nat}
    (h : tallest = narrowRows ∨ tallest = wideRows) :
    Greedy.considered tallest (KernelTable.full level tallest).available =
      1 :: (List.range (tallest - 1)).map (· + 2) := by
  rcases h with rfl | rfl
  · cases level <;> decide
  · cases level <;> decide

end Family

namespace Greedy

variable {rows height : Nat}

theorem length_steps (batches : List Batch) :
    (steps batches).length = (batches.map Batch.count).sum := by
  simp [steps, List.length_flatMap]

/-- What a full table is asked for at first. -/
theorem asked_full (level : Level) (rows : Nat)
    (hheight : height = Family.narrowRows ∨ height = Family.wideRows) :
    asked height (KernelTable.full level height) rows = rows / height + height := by
  rw [asked, Family.considered_full level hheight]
  rcases hheight with rfl | rfl
  · rfl
  · rfl

/-- The table of a built-in family takes no more steps than it asks room for at first. -/
theorem chosen_full (level : Level) (rows : Nat)
    (hheight : height = Family.narrowRows ∨ height = Family.wideRows) :
    (steps (chosen height (KernelTable.full level height) rows)).length ≤ rows / height + 1 ∧
      ∀ step ∈ steps (chosen height (KernelTable.full level height) rows),
        step.isMasked = false := by
  have hpos : 0 < height := by
    rcases hheight with rfl | rfl
    · decide
    · decide
  have hkernels : (KernelTable.full level height).available ≠ [] :=
    available_ne_nil (Family.considered_full level hheight ▸ List.cons_ne_nil _ _)
  have hsteps := oneAtATime_chosen height rows hkernels
  rw [KernelTable.considers_full] at hsteps
  obtain ⟨hlength, hunmasked⟩ := hsteps.fewest hpos
  refine ⟨?_, hunmasked⟩
  rw [hlength, ceilDiv_le_iff_le_mul hpos]
  exact Nat.le_of_lt (Nat.lt_mul_div_succ rows hpos)

/-- There is room for the steps of a built-in family if there is room for as many elements as
rows. -/
theorem affords_full (arithmetic : Arithmetic) (level : Level)
    (hheight : height = Family.narrowRows ∨ height = Family.wideRows)
    (hrows : rows * Capacity.singleBytes < Word.signedLimit) :
    Affords arithmetic height (KernelTable.full level height) rows := by
  have hasked := asked_full level rows hheight
  have hfew := (chosen_full level rows hheight).1
  have hroom : (rows / height + height) * stepBytes < Word.signedLimit := by
    unfold Capacity.singleBytes Word.signedLimit at hrows
    unfold stepBytes Word.signedLimit
    rcases hheight with rfl | rfl
    · unfold Family.narrowRows
      omega
    · unfold Family.wideRows
      omega
  have hword : rows / height + height < Word.limit := by
    unfold stepBytes Word.signedLimit at hroom
    unfold Word.limit
    omega
  have hpos : 1 ≤ height := by
    rcases hheight with rfl | rfl
    · decide
    · decide
  refine ⟨_, hasked ▸ Arithmetic.word_of_lt hword, ?_⟩
  rw [growth_of_le (by rw [Nat.zero_add, ← length_steps]; omega)]
  rw [hasked]
  exact List.forall_mem_singleton.mpr hroom

end Greedy

namespace Engine

variable {engine : Engine} {request : Request} {size : Nat}

/-- An output that is held has at least as many elements as rows. -/
theorem rows_le_size (hadmits : engine.Admits request size) : request.m ≤ size := by
  have hlast := hadmits.output (request.m - 1) (Nat.sub_lt hadmits.rows_pos Nat.one_pos)
  have hrows : request.m - 1 ≤ (request.m - 1) * request.outputStride :=
    Nat.le_mul_of_pos_right _ (Nat.lt_of_lt_of_le hadmits.columns_pos hadmits.stride)
  have hcolumns := hadmits.columns_pos
  omega

/-- The panel has a column block for every row of the operand. -/
theorem depth_mul_width_le (hadmits : engine.Admits request size) :
    request.k * request.panel.width ≤ request.panel.data.size := by
  rw [hadmits.resident.whole.size_data, PanelShape.size]
  refine Nat.mul_le_mul_left _ (Nat.le_mul_of_pos_left _ ?_)
  exact request.panel.shape.columnBlocks_pos hadmits.columns_pos

/-- The operands leave room for four rows more. -/
theorem rows_add_lt (hadmits : engine.Admits request size) :
    (request.m + 4) * Capacity.singleBytes < Word.signedLimit := by
  have hwidth : 8 ≤ request.panel.width := by
    unfold Panel.width PanelShape.width
    cases request.panel.shape.level <;> decide
  have hpanel := depth_mul_width_le hadmits
  have hcolumn := Nat.le_mul_of_pos_left request.panel.width hadmits.depth_pos
  have hleft := Nat.le_mul_of_pos_right request.m hadmits.depth_pos
  have hproducts := hadmits.products_le
  have houtput := rows_le_size hadmits
  have htogether := hadmits.resident.together
  unfold Capacity.singleBytes Word.limit at htogether
  unfold Capacity.singleBytes Word.signedLimit
  omega

/-- Steps that fill their kernels, none of them taller than a column block is wide, need no more
room than the operands have. -/
theorem hasRoom_of_unmasked (hadmits : engine.Admits request size) {tiles : List Tile}
    (hunmasked : ∀ tile ∈ tiles, tile.isMasked = false)
    (hheight : tallest tiles ≤ request.panel.width) : HasRoom request tiles := by
  have hdepth := depth_mul_width_le hadmits
  have hwidth : request.panel.width * request.panel.width * Capacity.singleBytes <
      Word.signedLimit := by
    have hlanes : request.panel.width ≤ 32 := by
      unfold Panel.width PanelShape.width
      cases request.panel.shape.level <;> decide
    exact Nat.lt_of_le_of_lt (Nat.mul_le_mul_right _ (Nat.mul_le_mul hlanes hlanes)) (by decide)
  have hstaging : stagingWidth request tiles ≤ request.panel.width := by
    have hnone : ¬ tiles.any Tile.isMasked = true := by
      rw [List.any_eq_true]
      rintro ⟨tile, htile, hmasked⟩
      exact absurd (hunmasked tile htile) (by rw [hmasked]; decide)
    rw [stagingWidth, if_neg hnone]
    split_ifs
    · exact Nat.le_refl _
    · exact Nat.zero_le _
  constructor
  · refine Nat.lt_of_le_of_lt (Nat.mul_le_mul_right _ ?_) hadmits.resident.whole.addressable
    calc tallest tiles * stripDepth request ≤ request.panel.width * request.k :=
          Nat.mul_le_mul hheight (Nat.min_le_right _ _)
      _ = request.k * request.panel.width := Nat.mul_comm _ _
      _ ≤ request.panel.data.size := hdepth
  · exact Nat.lt_of_le_of_lt (Nat.mul_le_mul_right _ (Nat.mul_le_mul hheight hstaging)) hwidth

/-- Steps that have kernels are no taller than the table when they are placed. -/
theorem tallest_place_le {table : KernelTable} {steps : List Step}
    (hholds : ∀ step ∈ steps, table.holds step.kernelRows = true) :
    tallest (Tile.place steps) ≤ table.tallest := by
  refine tallest_le_iff.mpr fun tile htile ↦ ?_
  obtain ⟨step, hstep, -, hkernel⟩ := Tile.mem_placeFrom htile
  rw [hkernel]
  exact le_tallest_of_holds (hholds step hstep)

/-- The steps of a built-in family cover a request that passes its check. They fill their kernels,
none of which is taller than a column block is wide. -/
theorem covers_of_builtIn (hfamily : engine.family.BuiltIn) (hadmits : engine.Admits request size) :
    ∃ steps, engine.Covers request steps ∧
      (∀ tile ∈ Tile.place steps, tile.isMasked = false) ∧
      tallest (Tile.place steps) ≤ request.panel.width := by
  obtain ⟨level, height, hupTo, hheight, hwidth⟩ := hfamily.exists_upTo
  have hrows := rows_add_lt hadmits
  have hfewer := Nat.mul_le_mul_right Capacity.singleBytes (Nat.le_add_right request.m 4)
  have haffords := Greedy.affords_full request.arithmetic level hheight
    (Nat.lt_of_le_of_lt hfewer hrows)
  have hkernels : (KernelTable.full level height).available ≠ [] :=
    Greedy.available_ne_nil (Family.considered_full level hheight ▸ List.cons_ne_nil _ _)
  have hchosen : engine.family.partition request.arithmetic request.m = .ok (Greedy.steps
      (Greedy.chosen height (KernelTable.full level height) request.m)) := by
    rw [hupTo]
    exact Greedy.partition_of_affords hkernels haffords
  have hgreedy : engine.family.policy = .greedy := hupTo ▸ rfl
  have htiling := Family.tiles_of_greedy hgreedy _ _ _ hchosen
  obtain ⟨hfew, hfull⟩ := Greedy.chosen_full level request.m hheight
  have hunmasked := Tile.unmasked_place hfull
  have htable : engine.family.table.tallest = height := by
    rw [hupTo]
    exact KernelTable.tallest_full level height
  have htallest : tallest (Tile.place (Greedy.steps
      (Greedy.chosen height (KernelTable.full level height) request.m))) ≤ request.panel.width :=
    Nat.le_trans (tallest_place_le htiling.holds) (htable ▸ hwidth _ hadmits.width)
  refine ⟨_, ⟨hchosen, htiling, ?_, hasRoom_of_unmasked hadmits hunmasked htallest⟩, hunmasked,
    htallest⟩
  unfold Capacity.singleBytes Word.signedLimit at hrows
  unfold Tile.tileBytes Word.signedLimit
  rcases hheight with rfl | rfl
  · unfold Family.narrowRows at hfew ⊢
    omega
  · unfold Family.wideRows at hfew ⊢
    omega

/-- A built-in family is prepared for every request that passes its check. -/
theorem prepared_of_builtIn (hfamily : engine.family.BuiltIn)
    (hadmits : engine.Admits request size) : engine.Prepared request := by
  obtain ⟨steps, hcovers, -⟩ := covers_of_builtIn hfamily hadmits
  exact ⟨steps, hcovers⟩

/-- A family is prepared if it is built in, and any other one has to be. -/
theorem Admits.prepared (hadmits : engine.Admits request size)
    (hfamily : engine.family.BuiltIn ∨ engine.Prepared request) : engine.Prepared request := by
  rcases hfamily with hbuiltIn | hprepared
  · exact prepared_of_builtIn hbuiltIn hadmits
  · exact hprepared

/-- The buffers of a run on greedy steps can be had: those for the steps themselves, for their
tiles, and for the strips and the staged columns of these. -/
structure Affords (engine : Engine) (request : Request) : Prop where
  steps : Greedy.Affords request.arithmetic engine.family.cap engine.family.table request.m
  tiles : (Greedy.steps (Greedy.chosen engine.family.cap engine.family.table request.m)).length *
    Tile.tileBytes < Word.signedLimit
  buffers : HasRoom request
    (Tile.place (Greedy.steps (Greedy.chosen engine.family.cap engine.family.table request.m)))

/-- A greedy family with a kernel is prepared for every request whose buffers can be had. -/
theorem Affords.prepared (h : engine.Affords request) (hpolicy : engine.family.policy = .greedy)
    (hkernels : engine.family.table.available ≠ []) : engine.Prepared request := by
  have hchosen : engine.family.partition request.arithmetic request.m = .ok
      (Greedy.steps (Greedy.chosen engine.family.cap engine.family.table request.m)) := by
    rw [Family.partition, hpolicy]
    exact Greedy.partition_of_affords hkernels h.steps
  exact ⟨_, hchosen, Family.tiles_of_greedy hpolicy _ _ _ hchosen, h.tiles, h.buffers⟩

/-- What a family must have to cover the rows of a request greedily: a kernel, and its buffers. -/
structure PreparedGreedily (engine : Engine) (request : Request) : Prop where
  policy : engine.family.policy = .greedy
  kernels : engine.family.table.available ≠ []
  affords : engine.Affords request

theorem PreparedGreedily.prepared (h : engine.PreparedGreedily request) :
    engine.Prepared request :=
  h.affords.prepared h.policy h.kernels

end Engine

end PanelGemm
