import PanelGemm.Proofs.Engine.BuiltIn
import PanelGemm.Proofs.Tiling.Fewest

/-!
# What a run counts

A run counts its kernel calls one by one, in the K-blocks of each tile, over the tiles of each span
and over the workers, and what it returns is the sum over its tiles (`Engine.run_eq`). This has a
closed form, in which the tiles count only as masked ones and others (`Engine.sum_tileCalls`), and a
greedy family masks one of them at most (`Engine.run_counts_work`).
-/

set_option autoImplicit false
set_option relaxedAutoImplicit false

namespace PanelGemm

theorem PanelShape.length_blockStarts (shape : PanelShape) :
    shape.blockStarts.length = shape.rows ⌈/⌉ shape.blockRows := by
  rw [blockStarts, List.length_map, List.length_range]
  rfl

namespace Engine

variable {request : Request}

/-! ### The closed form -/

/-- There is a full column block if a row is as wide as one. -/
theorem fullBlocks_pos_iff : 0 < fullBlocks request ↔ request.panel.width ≤ request.n := by
  unfold fullBlocks
  rw [Nat.div_pos_iff]
  exact and_iff_right request.panel.shape.width_pos

/-- There is a ragged column block if the full ones do not make up a row. -/
theorem fullBlocks_lt_iff :
    fullBlocks request < request.panel.shape.columnBlocks ↔ ¬ request.panel.width ∣ request.n := by
  have hpos : 0 < request.panel.width := request.panel.shape.width_pos
  rw [← Nat.not_le, not_iff_not]
  change request.n ⌈/⌉ request.panel.width ≤ _ ↔ _
  rw [ceilDiv_le_iff_le_mul hpos]
  constructor
  · intro hle
    exact ⟨_, Nat.le_antisymm hle (Nat.mul_div_le request.n request.panel.width)⟩
  · intro hdvd
    exact Nat.le_of_eq (Nat.mul_div_cancel' hdvd).symm

theorem passCalls_full : passCalls request false =
    (if request.panel.width ≤ request.n then 1 else 0) +
      if request.panel.width ∣ request.n then 0 else 1 := by
  simp only [passCalls, fullBlocks_pos_iff, fullBlocks_lt_iff, ite_not, Bool.false_eq_true,
    if_false]

/-- In each K-block a full tile takes a call for the full column blocks and one for the ragged one,
if there are any, and a masked tile takes one call. -/
theorem sum_tileCalls (request : Request) (tiles : List Tile) :
    (tiles.map (tileCalls request)).sum = request.panel.shape.blockStarts.length *
      (tiles.countP (fun tile ↦ !tile.isMasked) * passCalls request false +
        tiles.countP Tile.isMasked) := by
  induction tiles with
  | nil => simp
  | cons tile tiles ih =>
    rw [List.map_cons, List.sum_cons, ih, tileCalls, ← Nat.mul_add, List.countP_cons,
      List.countP_cons]
    congr 1
    cases tile.isMasked with
    | true =>
      have hmasked : passCalls request true = 1 := if_pos rfl
      simp only [hmasked, Bool.not_true, Bool.false_eq_true, if_false, if_true, Nat.add_zero]
      omega
    | false =>
      simp only [Bool.not_false, Bool.false_eq_true, if_false, if_true, Nat.add_zero, Nat.succ_mul]
      omega

/-- What a run has done that covered the rows with given tiles: it counts the tiles, of which one at
most is masked, and its kernel calls. In each K-block a masked tile takes one call, and any other
tile takes one if a row is as wide as a column block and one if there is a ragged column block. -/
structure CountsWork (request : Request) (tiles : List Tile) (stats : RunStats) : Prop where
  length : stats.tiles = tiles.length
  masked : tiles.countP Tile.isMasked ≤ 1
  calls : stats.kernelCalls = request.k ⌈/⌉ request.panel.shape.blockRows *
    (tiles.countP (fun tile ↦ !tile.isMasked) *
      ((if request.panel.width ≤ request.n then 1 else 0) +
        if request.panel.width ∣ request.n then 0 else 1) + tiles.countP Tile.isMasked)

/-- A run on a family that tiles greedily counts its work, whatever the number of threads: its tiles
are those of the family. A family that is built in has as few tiles as heights up to its tallest
allow, which is six for the scalar family and that of AVX2 and fourteen for those of AVX-512. The
run succeeds on every request that passes a check that counts exactly. -/
theorem run_counts_work (engine : Engine) (request : Request) (output : Array Single)
    (threads : Nat) (hfamily : engine.family.BuiltIn ∨ engine.PreparedGreedily request)
    (hexact : request.CountsExactly) (hresident : request.Resident output.size)
    (hrows : 0 < request.m) (hdepth : 0 < request.k) (hcolumns : 0 < request.n)
    (hthreads : 0 < threads) (hcheck : engine.check request output.size = .ok ()) :
    ∃ tiles stats, engine.family.tiles request.arithmetic request.m = .ok tiles ∧
      (engine.run request output threads).result = .ok stats ∧ CountsWork request tiles stats ∧
      (engine.family = Family.scalar ∨ Family.lookup .avx2 = .ok engine.family →
        CoversWithFewest 6 request.m tiles) ∧
      (Family.lookup .avx512Ymm = .ok engine.family ∨
          Family.lookup .avx512 = .ok engine.family →
        CoversWithFewest 14 request.m tiles) := by
  have hadmits := admits_of_check hcheck hexact hresident hrows hdepth hcolumns
  obtain ⟨steps, hcovers⟩ := hadmits.prepared (hfamily.imp_right PreparedGreedily.prepared)
  have hpolicy : engine.family.policy = .greedy :=
    hfamily.elim Family.BuiltIn.policy_eq PreparedGreedily.policy
  have hpartition : Greedy.partition request.arithmetic engine.family.cap engine.family.table
      request.m = .ok steps := by
    have hchosen := hcovers.chosen
    rw [Family.partition, hpolicy] at hchosen
    exact hchosen
  have hfewest : ∀ level tallest, 0 < tallest → engine.family = Family.upTo level tallest →
      CoversWithFewest tallest request.m (Tile.place steps) := by
    intro level tallest htallest hfamily
    rw [hfamily] at hpartition
    exact Greedy.coversWithFewest_of_full htallest hpartition
  refine ⟨Tile.place steps, _, hcovers.tiles_eq_ok hadmits,
    congrArg Outcome.result (run_eq hthreads hcheck hadmits hcovers), ⟨rfl, ?_, ?_⟩, ?_, ?_⟩
  · rw [Tile.place, Tile.countP_isMasked_placeFrom]
    exact Greedy.countP_isMasked_le_one hpartition
  · rw [stats, sum_tileCalls, PanelShape.length_blockStarts, passCalls_full]
    rfl
  · rintro (hscalar | hlookup)
    · exact hfewest .baseline 6 (by decide) hscalar
    · exact hfewest .avx2 6 (by decide) (Except.ok.inj hlookup).symm
  · rintro (hlookup | hlookup)
    · exact hfewest .avx512Ymm 14 (by decide) (Except.ok.inj hlookup).symm
    · exact hfewest .avx512 14 (by decide) (Except.ok.inj hlookup).symm

/-- Five rows of ones times a column of ones, in two K-blocks. -/
def fiveRows : Request :=
  { Request.ones with
    m := 5
    left := Array.replicate 10 .one }

theorem countsExactly_fiveRows : fiveRows.CountsExactly :=
  .inr (.inr ⟨.inr (.inr (.inr (by decide))), .inr (.inr (.inr (by decide)))⟩)

theorem resident_fiveRows : fiveRows.Resident 5 := by
  have hones : Request.ones.Resident 0 := Request.ones_resident (by decide)
  refine ⟨hones.whole, by decide, by decide, ?_⟩
  rw [show fiveRows.panel.data.size = PanelShape.twoRows.size from hones.whole.size_data]
  decide

/-- An engine with kernels of four and of eight rows. -/
def sparseEngine : Engine := ⟨Family.make Greedy.sparseTable 8 .greedy⟩

/-- A full tile and a masked one take a call each in both K-blocks. The scalar family takes a single
tile. -/
theorem run_counts_work_sparse :
    (sparseEngine.run fiveRows (Array.replicate 5 .one) 3).result = .ok ⟨2, 4⟩ ∧
      ∃ stats, (scalar.run fiveRows (Array.replicate 5 .one) 3).result = .ok stats ∧
        stats.tiles = 1 := by
  constructor
  · have hgreedy : sparseEngine.PreparedGreedily fiveRows :=
      ⟨rfl, by decide, ⟨2, by decide, by decide⟩, by decide, ⟨by decide, by decide⟩⟩
    obtain ⟨tiles, stats, htiles, hstats, hwork, -⟩ := run_counts_work sparseEngine fiveRows
      (Array.replicate 5 .one) 3 (.inr hgreedy) countsExactly_fiveRows resident_fiveRows
      (by decide) (by decide) (by decide) (by decide) (by rfl)
    obtain rfl : [⟨0, 4, 4⟩, ⟨4, 1, 4⟩] = tiles := Except.ok.inj htiles
    rw [hstats]
    exact congrArg Except.ok (congrArg₂ RunStats.mk hwork.length (hwork.calls.trans (by decide)))
  · obtain ⟨tiles, stats, -, hstats, hwork, hscalar, -⟩ := run_counts_work scalar fiveRows
      (Array.replicate 5 .one) 3 (.inl (.inl rfl)) countsExactly_fiveRows resident_fiveRows
      (by decide) (by decide) (by decide) (by decide) (by rfl)
    exact ⟨stats, hstats, hwork.length.trans ((hscalar (.inl rfl)).length.trans (by decide))⟩

/-- Where counts wrap around, a run that passes the check may refuse its first tile, and then it has
nothing to count. -/
theorem run_counts_work_past_words :
    scalar.check (.distantRows .wrapping 13) 17 = .ok () ∧
      (scalar.run (.distantRows .wrapping 13) (Array.replicate 17 .zero) 1).result =
        .error (.refused (.misplacedTile 0 6 (.beyondBand (2 ^ 63 + 17) 17))) :=
  ⟨by decide +kernel, by decide +kernel⟩

end Engine

end PanelGemm
