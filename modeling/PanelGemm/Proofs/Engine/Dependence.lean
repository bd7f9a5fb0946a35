import PanelGemm.Proofs.Engine.BuiltIn

/-!
# What an element of the output depends on

Two requests of one form (`Request.SameForm`) are computed by the same tiles in the same K-blocks,
whatever their operands hold. An element of the output goes through them on its own: it depends on
its row of the left operand, on its column of the panel and, if its factor is not zero, on the old
element (`Engine.tileElement_congr`). Neither the rows and columns that the masked tiles and ragged
column blocks are filled up with reach it, nor what the other elements hold.

`Engine.run_agrees_on_inputs` says so of two runs. A run without products computes nothing, and then
the old element is the new one whatever its factor is (`Engine.run_without_products`).
-/

set_option autoImplicit false
set_option relaxedAutoImplicit false

namespace PanelGemm

/-! ### Shapes with the same blocks -/

namespace PanelShape

/-- Two shapes with the same extents that are cut into the same blocks. Their levels may differ, as
some levels share a width. -/
structure SameBlocks (shape shape' : PanelShape) : Prop where
  rows : shape.rows = shape'.rows
  columns : shape.columns = shape'.columns
  blockRows : shape.blockRows = shape'.blockRows
  width : shape.width = shape'.width

variable {shape shape' : PanelShape}

theorem SameBlocks.columnBlocks_eq (h : shape.SameBlocks shape') :
    shape.columnBlocks = shape'.columnBlocks := by
  rw [columnBlocks, columnBlocks, h.columns, h.width]

theorem SameBlocks.blockStarts_eq (h : shape.SameBlocks shape') :
    shape.blockStarts = shape'.blockStarts := by
  rw [blockStarts, blockStarts, rowBlocks, rowBlocks, h.rows, h.blockRows]

theorem SameBlocks.blockDepth_eq (h : shape.SameBlocks shape') (start : Nat) :
    shape.blockDepth start = shape'.blockDepth start := by
  rw [blockDepth, blockDepth, h.rows, h.blockRows]

end PanelShape

/-! ### Requests of one form -/

/-- Two requests that differ in nothing but what their operands hold, and in how the left operand
is stored. -/
structure Request.SameForm (request request' : Request) : Prop where
  arithmetic : request.arithmetic = request'.arithmetic
  m : request.m = request'.m
  blocks : request.panel.shape.SameBlocks request'.panel.shape
  outputStride : request.outputStride = request'.outputStride
  alpha : request.alpha = request'.alpha
  beta : request.beta = request'.beta

namespace Request.SameForm

variable {request request' : Request} (h : request.SameForm request')
include h

theorem k_eq : request.k = request'.k := h.blocks.rows

theorem n_eq : request.n = request'.n := h.blocks.columns

theorem width_eq : request.panel.width = request'.panel.width := h.blocks.width

theorem fullBlocks_eq : Engine.fullBlocks request = Engine.fullBlocks request' := by
  rw [Engine.fullBlocks, Engine.fullBlocks, h.n_eq, h.width_eq]

theorem blockBeta_eq (start : Nat) :
    Engine.blockBeta request start = Engine.blockBeta request' start := by
  rw [Engine.blockBeta, Engine.blockBeta, h.beta]

theorem isEmpty_eq : request.isEmpty = request'.isEmpty := by
  rw [isEmpty, isEmpty, h.m, h.k_eq, h.n_eq]

theorem tileCalls_eq (tile : Tile) :
    Engine.tileCalls request tile = Engine.tileCalls request' tile := by
  simp only [Engine.tileCalls, Engine.passCalls, h.blocks.blockStarts_eq, h.fullBlocks_eq,
    h.blocks.columnBlocks_eq]

theorem stats_eq (tiles : List Tile) :
    Engine.stats request tiles = Engine.stats request' tiles := by
  rw [Engine.stats, Engine.stats, funext h.tileCalls_eq]

theorem hasRoom {tiles : List Tile} (hroom : Engine.HasRoom request tiles) :
    Engine.HasRoom request' tiles := by
  have hdepth : Engine.stripDepth request = Engine.stripDepth request' := by
    rw [Engine.stripDepth, Engine.stripDepth, h.k_eq, h.blocks.blockRows]
  have hwidth : Engine.stagingWidth request tiles = Engine.stagingWidth request' tiles := by
    simp only [Engine.stagingWidth, h.fullBlocks_eq, h.blocks.columnBlocks_eq, h.width_eq]
  exact ⟨hdepth ▸ hroom.strip, hwidth ▸ hroom.staging⟩

end Request.SameForm

namespace Engine

variable {engine : Engine} {request request' : Request} {i j : Nat}

/-! ### One element -/

/-- Two requests have the same inputs to the products of a row and a column. -/
structure SameInputs (request request' : Request) (i j : Nat) : Prop where
  left : ∀ p < request.k, request.left? i p = request'.left? i p
  right : ∀ p < request.k, request.panel.get? p j = request'.panel.get? p j

/-- A K-block depends on its part of the row and of the column and on the old element. -/
theorem blockElement_congr (h : request.SameForm request')
    (hinputs : SameInputs request request' i j) {start : Nat}
    (hstart : start ∈ request.panel.shape.blockStarts) (kernel : Kernel) (masked : Bool)
    (old : Single) :
    blockElement kernel request masked start i j old =
      blockElement kernel request' masked start i j old := by
  have hdepth := h.blocks.blockDepth_eq start
  have hk : ∀ p < request.panel.shape.blockDepth start, start + p < request.k := fun p hp ↦
    Nat.lt_of_lt_of_le (Nat.add_lt_add_left hp start) (PanelShape.blockDepth_le_rows hstart)
  have hfactor : ∀ p < request.panel.shape.blockDepth start,
      request.factor i (start + p) = request'.factor i (start + p) :=
    fun p hp ↦ by rw [Request.factor, Request.factor, h.alpha, hinputs.left _ (hk p hp)]
  have hentry : ∀ p < request.panel.shape.blockDepth start,
      request.panel.entry (start + p) j = request'.panel.entry (start + p) j :=
    fun p hp ↦ by rw [Panel.entry, Panel.entry, hinputs.right _ (hk p hp)]
  unfold blockElement blockProduct
  rw [← h.fullBlocks_eq, ← h.width_eq, ← h.blockBeta_eq, ← hdepth,
    kernel.product_congr hfactor hentry, kernel.element_congr _ hfactor hentry]

/-- An element depends on its row and its column and, if its factor is not zero, on the old
element. -/
theorem tileElement_congr (h : request.SameForm request') (hk : 0 < request.k)
    (hinputs : SameInputs request request' i j) (tile : Tile) {old old' : Single}
    (hold : request.beta.isZero = false → old = old') :
    tileElement engine request tile i j old = tileElement engine request' tile i j old' := by
  obtain ⟨later, hstarts⟩ := PanelShape.exists_blockStarts_eq_cons _ hk
  have hfirst : 0 ∈ request.panel.shape.blockStarts := by
    rw [hstarts]
    exact List.mem_cons_self
  have hrest : ∀ start ∈ later, ∀ value,
      blockElement (Kernel.ofLevel engine.level tile.kernelRows) request tile.isMasked start i j
          value =
        blockElement (Kernel.ofLevel engine.level tile.kernelRows) request' tile.isMasked start i j
          value := fun start hstart value ↦
    blockElement_congr h hinputs (hstarts ▸ List.mem_cons_of_mem 0 hstart) _ _ value
  have hvalue : blockElement (Kernel.ofLevel engine.level tile.kernelRows) request tile.isMasked 0
        i j old =
      blockElement (Kernel.ofLevel engine.level tile.kernelRows) request' tile.isMasked 0 i j
        old' := by
    cases hbeta : request.beta.isZero with
    | false => rw [blockElement_congr h hinputs hfirst, hold hbeta]
    -- only the first K-block sees the factor of the old output, and with zero it takes any element
    | true =>
      rw [blockElement_of_isZero _ hfirst hbeta _ i j old,
        ← blockElement_of_isZero _ hfirst hbeta tile.isMasked i j old',
        blockElement_congr h hinputs hfirst]
  rw [tileElement, tileElement, ← h.blocks.blockStarts_eq, hstarts, List.foldl_cons,
    List.foldl_cons, hvalue]
  exact List.foldl_ext _ _ _ fun value start hstart ↦ hrest start hstart value

/-! ### Two runs -/

/-- Two runs of requests of one form apply the same tiles. -/
theorem exists_tiles_of_sameForm (h : request.SameForm request') {output output' : Array Single}
    {threads threads' : Nat} (hthreads : 0 < threads) (hthreads' : 0 < threads')
    (hcheck : engine.check request output.size = .ok ())
    (hcheck' : engine.check request' output'.size = .ok ())
    (hadmits : engine.Admits request output.size) (hadmits' : engine.Admits request' output'.size)
    (hprepared : engine.Prepared request) :
    ∃ tiles, Stacked 0 tiles request.m ∧
      engine.run request output threads =
        ⟨.ok (stats request tiles), output.mapIdx (tilesRewrite engine request tiles)⟩ ∧
      engine.run request' output' threads' =
        ⟨.ok (stats request tiles), output'.mapIdx (tilesRewrite engine request' tiles)⟩ := by
  obtain ⟨steps, hcovers⟩ := hprepared
  have hcovers' : engine.Covers request' steps :=
    ⟨h.arithmetic ▸ h.m ▸ hcovers.chosen, h.m ▸ hcovers.tiling, hcovers.tiles,
      h.hasRoom hcovers.room⟩
  have hrun' := run_eq hthreads' hcheck' hadmits' hcovers'
  rw [← h.stats_eq] at hrun'
  exact ⟨Tile.place steps, hcovers.tiling.stacked, run_eq hthreads hcheck hadmits hcovers, hrun'⟩

/-- What an element of the output depends on. Two runs of requests of one form, the checks of which
count exactly, succeed with the same statistics. An element is the same after both of them if its
row of the left operand and its column of the panel are and, unless its factor is zero, the old
element. Without products the old element is the new one, so it has to be the same as well. -/
theorem run_agrees_on_inputs (engine : Engine) (request request' : Request)
    (output output' : Array Single) (threads threads' : Nat)
    (hform : request.SameForm request')
    (hfamily : engine.family.BuiltIn ∨ engine.Prepared request)
    (hexact : request.CountsExactly) (hexact' : request'.CountsExactly)
    (hresident : request.Resident output.size) (hresident' : request'.Resident output'.size)
    (hthreads : 0 < threads) (hthreads' : 0 < threads')
    (hcheck : engine.check request output.size = .ok ())
    (hcheck' : engine.check request' output'.size = .ok ()) :
    ∃ stats, (engine.run request output threads).result = .ok stats ∧
      (engine.run request' output' threads').result = .ok stats ∧
      ∀ i < request.m, ∀ j < request.n, SameInputs request request' i j →
        (request.beta.isZero = false ∨ request.k = 0 →
          output[i * request.outputStride + j]? = output'[i * request.outputStride + j]?) →
        (engine.run request output threads).output[i * request.outputStride + j]? =
            (engine.run request' output' threads').output[i * request.outputStride + j]? ∧
          (0 < request.k → ∃ x,
            (engine.run request output threads).output[i * request.outputStride + j]? =
              some x) := by
  by_cases hempty : request.isEmpty = true
  · have hrun := run_of_isEmpty hthreads hcheck hempty
    have hrun' := run_of_isEmpty hthreads' hcheck' (hform.isEmpty_eq ▸ hempty)
    rw [hrun, hrun']
    refine ⟨_, rfl, rfl, fun i hi j hj _ hold ↦ ?_⟩
    have hk : request.k = 0 := by
      rw [Request.isEmpty_iff] at hempty
      omega
    exact ⟨hold (.inr hk), fun hpos ↦ absurd hk (Nat.ne_of_gt hpos)⟩
  · have hadmits := admits_of_not_isEmpty hcheck hexact hresident hempty
    have hadmits' := admits_of_not_isEmpty hcheck' hexact' hresident' (hform.isEmpty_eq ▸ hempty)
    obtain ⟨tiles, hstacked, hrun, hrun'⟩ := exists_tiles_of_sameForm hform hthreads hthreads'
      hcheck hcheck' hadmits hadmits' (hadmits.prepared hfamily)
    rw [hrun, hrun']
    refine ⟨_, rfl, rfl, fun i hi j hj hinputs hold ↦ ?_⟩
    obtain ⟨tile, htile, hrow, hstop⟩ := hstacked.exists_tile (Nat.zero_le i) hi
    obtain ⟨old, hbefore, hafter⟩ := element_of_tile hadmits hstacked htile hrow hstop hj
    obtain ⟨old', hbefore', hafter'⟩ := element_of_tile hadmits' (hform.m ▸ hstacked) htile hrow
      hstop (hform.n_eq ▸ hj)
    rw [← hform.outputStride] at hbefore' hafter'
    have hsame : request.beta.isZero = false → old = old' := fun hbeta ↦
      Option.some_inj.mp (hbefore.symm.trans ((hold (.inl hbeta)).trans hbefore'))
    refine ⟨hafter.trans (Eq.trans (congrArg some ?_) hafter'.symm), fun _ ↦ ⟨_, hafter⟩⟩
    exact tileElement_congr hform hadmits.depth_pos hinputs tile hsame

/-- Two rows that overwrite the old output, the first of them ones. -/
def twoRows (second : Single) : Request :=
  { Request.ones with
    m := 2
    left := #[.one, .one, second, second]
    beta := .zero }

/-- An engine that covers two rows with its tallest kernel, in one masked tile. -/
def pairEngine : Engine :=
  ⟨Family.make (KernelTable.full .avx2 Family.narrowRows) Family.narrowRows (.fixed [⟨6, 2⟩])⟩

theorem prepared_pairEngine : pairEngine.Prepared (twoRows .one) :=
  ⟨[⟨6, 2⟩], rfl, ⟨by decide, by decide, by decide, by decide⟩, by decide, by decide, by decide⟩

theorem countsExactly_twoRows (second : Single) : (twoRows second).CountsExactly :=
  .inr (.inr ⟨.inr (.inr (.inr (show 1 * 2 + 2 < Word.limit by decide))),
    .inr (.inr (.inr (show 1 * 1 + 1 < Word.limit by decide)))⟩)

theorem resident_twoRows (second : Single) : (twoRows second).Resident 2 := by
  have hones : Request.ones.Resident 2 := Request.ones_resident (by decide)
  have hleft : Addressable (twoRows second).left :=
    show 4 * Capacity.singleBytes < Word.signedLimit by decide
  refine ⟨hones.whole, hleft, by decide, ?_⟩
  rw [show (twoRows second).panel.data.size = PanelShape.twoRows.size from hones.whole.size_data]
  change (4 + PanelShape.twoRows.size + 2) * Capacity.singleBytes < Word.limit
  decide

/-- The first row does not depend on the second one, nor on what it overwrites. -/
theorem run_agrees_on_inputs_pair :
    ∃ x, (pairEngine.run (twoRows .one) #[.one, .one] 1).output[0]? = some x ∧
      (pairEngine.run (twoRows .one) #[.one, .one] 1).output[0]? =
        (pairEngine.run (twoRows .nan) #[.nan, .nan] 2).output[0]? := by
  have hform : (twoRows .one).SameForm (twoRows .nan) :=
    ⟨rfl, rfl, ⟨rfl, rfl, rfl, rfl⟩, rfl, rfl, rfl⟩
  have hinputs : SameInputs (twoRows .one) (twoRows .nan) 0 0 := ⟨by decide, fun _ _ ↦ rfl⟩
  obtain ⟨-, -, -, hagree⟩ := run_agrees_on_inputs pairEngine (twoRows .one) (twoRows .nan)
    #[.one, .one] #[.nan, .nan] 1 2 hform (.inr prepared_pairEngine)
    (countsExactly_twoRows _) (countsExactly_twoRows _) (resident_twoRows _) (resident_twoRows _)
    (by decide) (by decide) (by rfl) (by rfl)
  obtain ⟨hsame, hsome⟩ := hagree 0 (by decide) 0 (by decide) hinputs
    fun h ↦ h.elim (fun hbeta ↦ nomatch hbeta) fun hk ↦ nomatch hk
  obtain ⟨x, hx⟩ := hsome (by decide)
  exact ⟨x, hx, hsame⟩

/-- One element without products, whose old value does not count. -/
def productless : Request where
  arithmetic := .wrapping
  m := 1
  left := #[]
  orientation := .plain
  leftStride := 0
  panel := ⟨⟨.avx2, 0, 1, 1, Nat.one_pos⟩, .one, #[]⟩
  outputStride := 1
  alpha := .one
  beta := .zero

/-- A run without products leaves two old elements different that their factor, which is zero, says
not to look at. -/
theorem run_without_products :
    0 < productless.m ∧ 0 < productless.n ∧ productless.beta.isZero = true ∧
      scalar.check productless 1 = .ok () ∧ SameInputs productless productless 0 0 ∧
      (scalar.run productless #[.zero] 1).output[0]? = some .zero ∧
      (scalar.run productless #[.one] 1).output[0]? = some .one :=
  ⟨by decide, by decide, by decide, by rfl, ⟨fun _ _ ↦ rfl, fun _ _ ↦ rfl⟩, by rfl, by rfl⟩

end Engine

end PanelGemm
