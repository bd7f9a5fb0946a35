import Mathlib.Data.List.TakeWhile
import PanelGemm.Proofs.Engine.Tile

/-!
# Tiles that do not fit

A span is computed tile by tile up to the first one that does not fit its band: the tiles before it
are computed (`Engine.computed`), the span ends with the refusal of this tile (`Engine.verdict`),
and neither it nor a later one leaves a trace (`runTiles_ends`). All this takes words that count
what the tiles need. A refusal names the tile by its place in the whole output, and what it says is
the same for every band but for the sizes that it quotes (`Refusal.withoutSizes`).
-/

set_option autoImplicit false
set_option relaxedAutoImplicit false

namespace PanelGemm

/-! ### Refusals -/

/-- A refusal without the sizes that are quoted for a tile that ends behind its band. -/
def Refusal.withoutSizes : Refusal → Refusal
  | .misplacedTile row rows (.beyondBand _ _) => .misplacedTile row rows (.beyondBand 0 0)
  | reason => reason

/-- A failure without the sizes that its refusal quotes. -/
def Failure.withoutSizes : Failure → Failure
  | .refused reason => .refused reason.withoutSizes
  | failure => failure

/-- A result can be mapped before or after its failure is. -/
theorem mapError_map {α β ε δ : Type} (f : ε → δ) (g : α → β) (result : Except ε α) :
    (g <$> result).mapError f = g <$> result.mapError f := by
  cases result with
  | ok value => rfl
  | error failure => rfl

namespace Engine

variable {engine : Engine} {request : Request} {tile : Tile} {tiles before after : List Tile}
  {firstRow firstRow' size size' : Nat}

/-- Why a tile that does not fit a band is refused. -/
def tileRefusal (engine : Engine) (request : Request) (firstRow size : Nat) (tile : Tile) :
    Refusal :=
  if engine.family.table.holds tile.kernelRows then
    .misplacedTile tile.row tile.rows
      (if tile.rows = 0 then .empty else .beyondBand (needed request firstRow tile) size)
  else .missingKernel engine.level tile.kernelRows engine.family.table.tallest

/-- All bands refuse a tile alike, but for the sizes. -/
theorem withoutSizes_tileRefusal :
    (engine.tileRefusal request firstRow size tile).withoutSizes =
      (engine.tileRefusal request firstRow' size' tile).withoutSizes := by
  unfold tileRefusal
  split_ifs
  · rfl
  · rfl
  · rfl

/-- A band needs no more for a tile than the whole output does. -/
theorem needed_le_needed_zero : needed request firstRow tile ≤ needed request 0 tile :=
  Nat.add_le_add_right (Nat.mul_le_mul_right _ (by omega)) _

/-- A tile without rows, or with rows that the band does not hold, is not placed. -/
theorem placeTile_ends {room : Room} (hword : needed request 0 tile < Word.limit)
    (hfirst : firstRow ≤ tile.row)
    (hnot : tile.rows = 0 ∨ room.band < needed request firstRow tile) :
    (placeTile request firstRow tile).Ends room
      (.error (.refused (.misplacedTile tile.row tile.rows
        (if tile.rows = 0 then .empty else .beyondBand (needed request firstRow tile) room.band))))
      fun _ x ↦ x := by
  intro workspace hworkspace
  refine ⟨workspace, ?_, hworkspace, (mapIdx_eq_self fun _ _ ↦ rfl).symm⟩
  by_cases hrows : tile.rows = 0
  · rw [placeTile, if_neg (Nat.not_lt_of_le hfirst), if_pos hrows, if_pos hrows]
    rfl
  · have hneeded : Stage.word request
        ((tile.row - firstRow + tile.rows - 1) * request.outputStride + request.n) =
          pure (needed request firstRow tile) :=
      Stage.word_eq (Nat.lt_of_le_of_lt needed_le_needed_zero hword)
    have hband : workspace.band.size < needed request firstRow tile := by
      rw [← hworkspace] at hnot
      exact hnot.resolve_left hrows
    simp only [placeTile, hneeded, pure_bind, Stage.get_bind_run,
      if_neg (Nat.not_lt_of_le hfirst), if_neg hrows, if_pos hband]
    rw [← hworkspace]
    rfl

/-- A tile that does not fit its band is refused, and it leaves no trace. -/
theorem runTile_ends {room : Room} (hword : needed request 0 tile < Word.limit)
    (hfirst : firstRow ≤ tile.row)
    (hnot : ¬ engine.FittingTile request firstRow room.band tile) :
    (runTile engine request firstRow tile).Ends room
      (.error (.refused (engine.tileRefusal request firstRow room.band tile))) fun _ x ↦ x := by
  unfold tileRefusal
  by_cases hholds : engine.family.table.holds tile.kernelRows = true
  · have hplace : tile.rows = 0 ∨ room.band < needed request firstRow tile := by
      by_contra hfits
      exact hnot ⟨hholds, by omega, by omega⟩
    rw [if_pos hholds, runTile, kernel_of_holds hholds]
    exact (placeTile_ends hword hfirst hplace).bind_of_error
  · have hkernel : engine.family.kernel tile.kernelRows = .error
        (.missingKernel engine.level tile.kernelRows engine.family.table.tallest) := if_neg hholds
    rw [if_neg hholds, runTile, hkernel]
    exact (Stage.ends_throw _).bind_of_error

/-! ### The first tile that does not fit -/

/-- The tiles of a list that are computed: those before the first one that does not fit. -/
def computed (engine : Engine) (request : Request) (firstRow size : Nat) (tiles : List Tile) :
    List Tile :=
  tiles.takeWhile fun tile ↦ engine.FittingTile request firstRow size tile

/-- The tiles of a list that are not computed: the first one that does not fit and all behind it. -/
def skipped (engine : Engine) (request : Request) (firstRow size : Nat) (tiles : List Tile) :
    List Tile :=
  tiles.dropWhile fun tile ↦ engine.FittingTile request firstRow size tile

/-- How a list of tiles ends: with the number of kernel calls of all of them, or with the refusal of
the first one that does not fit. -/
def verdict (engine : Engine) (request : Request) (firstRow size : Nat) :
    List Tile → Except Failure Nat
  | [] => .ok 0
  | tile :: tiles =>
    if engine.FittingTile request firstRow size tile then
      (tileCalls request tile + ·) <$> engine.verdict request firstRow size tiles
    else .error (.refused (engine.tileRefusal request firstRow size tile))

theorem computed_cons_of_fitting (h : engine.FittingTile request firstRow size tile) :
    engine.computed request firstRow size (tile :: tiles) =
      tile :: engine.computed request firstRow size tiles :=
  List.takeWhile_cons_of_pos (decide_eq_true h)

theorem computed_cons_of_not_fitting (h : ¬ engine.FittingTile request firstRow size tile) :
    engine.computed request firstRow size (tile :: tiles) = [] :=
  List.takeWhile_cons_of_neg (by simpa using h)

/-- The tiles that are computed fit. -/
theorem fitting_of_mem_computed (h : tile ∈ engine.computed request firstRow size tiles) :
    engine.FittingTile request firstRow size tile := by
  have hfits := List.mem_takeWhile_imp h
  exact of_decide_eq_true hfits

theorem computed_subset : engine.computed request firstRow size tiles ⊆ tiles :=
  (List.takeWhile_sublist _).subset

/-- What is computed of several lists is part of them. -/
theorem flatMap_computed_subset {spans : List (List Tile)} :
    spans.flatMap (engine.computed request firstRow size) ⊆ spans.flatten := by
  intro tile htile
  obtain ⟨span, hspan, htile⟩ := List.mem_flatMap.mp htile
  exact List.mem_flatten.mpr ⟨span, hspan, computed_subset htile⟩

/-- If all tiles fit they are all computed. -/
theorem computed_of_fitting (h : ∀ tile ∈ tiles, engine.FittingTile request firstRow size tile) :
    engine.computed request firstRow size tiles = tiles :=
  List.takeWhile_eq_self_iff.mpr fun tile htile ↦ decide_eq_true (h tile htile)

theorem verdict_of_fitting (h : ∀ tile ∈ tiles, engine.FittingTile request firstRow size tile) :
    engine.verdict request firstRow size tiles = .ok (tiles.map (tileCalls request)).sum := by
  induction tiles with
  | nil => rfl
  | cons tile tiles ih =>
    obtain ⟨htile, htiles⟩ := List.forall_mem_cons.mp h
    rw [verdict, if_pos htile, ih htiles]
    rfl

/-- Tiles that fit do not decide on the refusal. -/
theorem verdict_append (h : ∀ tile ∈ before, engine.FittingTile request firstRow size tile) :
    engine.verdict request firstRow size (before ++ tiles) =
      ((before.map (tileCalls request)).sum + ·) <$>
        engine.verdict request firstRow size tiles := by
  induction before with
  | nil =>
    simp
  | cons tile before ih =>
    obtain ⟨htile, hbefore⟩ := List.forall_mem_cons.mp h
    rw [List.cons_append, verdict, if_pos htile, ih hbefore]
    simp [Nat.add_assoc]

/-- The first tile that does not fit decides on the refusal. -/
theorem verdict_of_first (h : ∀ tile ∈ before, engine.FittingTile request firstRow size tile)
    (hnot : ¬ engine.FittingTile request firstRow size tile) :
    engine.verdict request firstRow size (before ++ tile :: after) =
      .error (.refused (engine.tileRefusal request firstRow size tile)) := by
  rw [verdict_append h, verdict, if_neg hnot]
  rfl

/-- Either all tiles fit or there is a first one that does not. -/
theorem fitting_or_first (engine : Engine) (request : Request) (firstRow size : Nat)
    (tiles : List Tile) :
    (∀ tile ∈ tiles, engine.FittingTile request firstRow size tile) ∨
      ∃ before tile after, tiles = before ++ tile :: after ∧
        (∀ other ∈ before, engine.FittingTile request firstRow size other) ∧
        ¬ engine.FittingTile request firstRow size tile := by
  induction tiles with
  | nil => exact .inl nofun
  | cons tile tiles ih =>
    by_cases hfits : engine.FittingTile request firstRow size tile
    · rcases ih with hall | ⟨before, other, after, rfl, hbefore, hnot⟩
      · exact .inl (List.forall_mem_cons.mpr ⟨hfits, hall⟩)
      · exact .inr ⟨tile :: before, other, after, rfl, List.forall_mem_cons.mpr ⟨hfits, hbefore⟩,
          hnot⟩
    · exact .inr ⟨[], tile, tiles, rfl, nofun, hfits⟩

/-! ### Two bands -/

section Bands

variable (h : ∀ tile ∈ tiles, (engine.FittingTile request firstRow size tile ↔
  engine.FittingTile request firstRow' size' tile))
include h

/-- The same tiles are computed in two bands that fit the same ones. -/
theorem computed_congr : engine.computed request firstRow size tiles =
    engine.computed request firstRow' size' tiles := by
  induction tiles with
  | nil => rfl
  | cons tile tiles ih =>
    obtain ⟨htile, htiles⟩ := List.forall_mem_cons.mp h
    by_cases hfits : engine.FittingTile request firstRow size tile
    · rw [computed_cons_of_fitting hfits, computed_cons_of_fitting (htile.mp hfits), ih htiles]
    · rw [computed_cons_of_not_fitting hfits,
        computed_cons_of_not_fitting fun hfits' ↦ hfits (htile.mpr hfits')]

/-- Two bands that fit the same tiles end alike, but for the sizes. -/
theorem verdict_congr :
    (engine.verdict request firstRow size tiles).mapError Failure.withoutSizes =
      (engine.verdict request firstRow' size' tiles).mapError Failure.withoutSizes := by
  induction tiles with
  | nil => rfl
  | cons tile tiles ih =>
    obtain ⟨htile, htiles⟩ := List.forall_mem_cons.mp h
    by_cases hfits : engine.FittingTile request firstRow size tile
    · rw [verdict, verdict, if_pos hfits, if_pos (htile.mp hfits), mapError_map, mapError_map,
        ih htiles]
    · rw [verdict, verdict, if_neg hfits, if_neg fun hfits' ↦ hfits (htile.mpr hfits')]
      exact congrArg (fun reason ↦ Except.error (Failure.refused reason)) withoutSizes_tileRefusal

end Bands

/-! ### Results that are the verdict but for the sizes -/

section Result

variable {result : Except Failure Nat} (h : result.mapError Failure.withoutSizes =
  (engine.verdict request firstRow size tiles).mapError Failure.withoutSizes)
include h

/-- If all tiles fit the result is the number of their kernel calls. -/
theorem result_of_fitting
    (hfits : ∀ tile ∈ tiles, engine.FittingTile request firstRow size tile) :
    result = .ok (tiles.map (tileCalls request)).sum := by
  rw [verdict_of_fitting hfits] at h
  cases result with
  | ok calls => rw [Except.ok.inj h]
  | error failure => exact nomatch h

/-- If there is a first tile that does not fit the result is its refusal. -/
theorem result_of_first (htiles : tiles = before ++ tile :: after)
    (hbefore : ∀ other ∈ before, engine.FittingTile request firstRow size other)
    (hnot : ¬ engine.FittingTile request firstRow size tile) :
    ∃ reason, result = .error (.refused reason) ∧
      reason.withoutSizes = (engine.tileRefusal request firstRow size tile).withoutSizes := by
  rw [htiles, verdict_of_first hbefore hnot] at h
  cases result with
  | ok calls => exact nomatch h
  | error failure =>
    cases failure with
    | refused reason => exact ⟨reason, rfl, Failure.refused.inj (Except.error.inj h)⟩
    | panicked => exact nomatch Except.error.inj h
    | wild => exact nomatch Except.error.inj h

end Result

end Engine

end PanelGemm
