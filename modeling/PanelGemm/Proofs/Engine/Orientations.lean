import PanelGemm.Proofs.Engine.Run
import PanelGemm.Proofs.Engine.Overreach
import PanelGemm.Proofs.Engine.Safety
import PanelGemm.Proofs.Matrix.Transposition
import PanelGemm.Proofs.Panel.Packing
import PanelGemm.Proofs.Threads.Spans
import PanelGemm.Proofs.Tiling.Cover

/-!
# Operands that are stored transposed

An operand can be given as it is or as its transpose, and nothing that is computed depends on it
(`Engine.run_orientations`). Packing reads only the elements of the operand (`Panel.pack_congr`),
and a run reads the left operand only in the rows of its tiles, so two requests whose left operands
have the same elements there run alike (`Engine.map_run_withLeft`), whatever becomes of the run. A
tile that reads behind the left operand panics in either form (`Engine.runTile_endsAlike`), as long
as the places where it reads are counted exactly, but what it leaves of the output before that may
differ (`Engine.run_orientations_trailing`).
-/

set_option autoImplicit false
set_option relaxedAutoImplicit false

namespace PanelGemm

/-- A dense matrix passes its check if a word counts its elements, and a smaller count than theirs
that a word holds lets it pass as well. -/
theorem Storage.check_dense (arithmetic : Arithmetic) (rows columns : Nat) :
    check arithmetic (rows * columns) rows columns columns =
      (fun _ ↦ ()) <$> arithmetic.word (rows * columns) := by
  by_cases hempty : rows = 0 ∨ columns = 0
  · have hzero : rows * columns = 0 := Nat.mul_eq_zero.mpr hempty
    rw [check, if_pos hempty, hzero, Arithmetic.word_of_lt Word.limit_pos]
    rfl
  · have hneeded : needed rows columns columns = rows * columns := by
      rw [needed, Nat.sub_one_mul, Nat.sub_add_cancel]
      exact Nat.le_mul_of_pos_left _ (by omega)
    rw [check, if_neg hempty, if_neg (Nat.lt_irrefl _), hneeded]
    cases hword : arithmetic.word (rows * columns) with
    | error failure => rfl
    | ok word =>
      rw [ok_bind, if_neg (Nat.not_lt_of_le (Arithmetic.word_le hword))]
      rfl

/-! ### Packing either way -/

namespace Panel

open Packing

variable {arithmetic : Arithmetic} {level : Level} {source source' : Source} {blockRows : Nat}

/-- Sources that have the same elements in all rows of a shape pack its K-blocks alike. -/
theorem packBlock_congr {shape : PanelShape} {size start : Nat} (hstart : start ∈ shape.blockStarts)
    (helement : ∀ position : Nat × Nat, position.1 < shape.rows →
      source'.element arithmetic shape.width position =
        source.element arithmetic shape.width position) :
    source'.packBlock arithmetic shape size start =
      source.packBlock arithmetic shape size start := by
  unfold Source.packBlock
  refine congrArg _ (funext fun first ↦ congrArg _ (funext fun stop ↦
    congrArg _ (funext fun _ ↦ ?_)))
  refine bind_congr_of_ok fun columnBlock hcolumnBlock ↦ congrArg _ (funext fun _ ↦ ?_)
  refine congrArg (· >>= _) (mapM_congr fun position hposition ↦ helement position ?_)
  -- a column block that came out too small has fewer rows than the K-block
  obtain ⟨block, -, hposition⟩ := List.mem_flatMap.mp hposition
  obtain ⟨p, hp, hposition⟩ := List.mem_flatMap.mp hposition
  obtain ⟨j, -, rfl⟩ := List.mem_map.mp hposition
  have hdepth : columnBlock / shape.width ≤ shape.blockDepth start :=
    Nat.div_le_of_le_mul (Nat.mul_comm _ _ ▸ Arithmetic.word_le hcolumnBlock)
  have hp' : p < columnBlock / shape.width := List.mem_range.mp hp
  have hrows := PanelShape.blockDepth_le_rows hstart
  change start + p < shape.rows
  omega

/-- Sources that are checked alike and hold the same operand pack alike. -/
theorem pack_congr (hcheck : source'.check arithmetic = source.check arithmetic)
    (hrows : source'.rows = source.rows) (hcolumns : source'.columns = source.columns)
    (halpha : source'.alpha = source.alpha)
    (helement : source.check arithmetic = .ok () → ∀ width row, row < source.rows →
      ∀ column, column < source.columns →
        source'.element arithmetic width (row, column) =
          source.element arithmetic width (row, column)) :
    pack arithmetic level source' blockRows = pack arithmetic level source blockRows := by
  unfold pack
  rw [hcheck, hrows, hcolumns, halpha]
  split_ifs with hpositive
  · refine bind_congr_of_ok fun _ hchecked ↦
      congrArg _ (funext fun size ↦ congrArg _ (funext fun _ ↦ ?_))
    refine congrArg (· >>= _) (mapM_congr fun start hstart ↦
      packBlock_congr hstart fun position hrow ↦ ?_)
    by_cases hcolumn : position.2 < source.columns
    · exact helement hchecked _ position.1 hrow position.2 hcolumn
    · rw [Source.element, Source.element, hcolumns, if_neg hcolumn, if_neg hcolumn]
  · rfl

theorem element_eq_orPanic (source : Source) {width row column : Nat}
    (hcolumn : column < source.columns)
    (h : source.orientation.offset source.stride row column < Word.limit) :
    source.element arithmetic width (row, column) = source.alpha.mul <$>
      orPanic source.data[source.orientation.offset source.stride row column]? := by
  unfold Source.element
  rw [if_pos hcolumn, Source.locate_eq width h, ok_bind]

/-- A dense operand and its transpose pack alike. -/
theorem pack_transposed {b bTransposed : Array Single} {rows columns : Nat} (alpha : Single)
    (hexact : arithmetic.Exact (rows * columns)) (hb : b.size = rows * columns)
    (hsize : bTransposed.size = b.size)
    (hdata : ∀ row < rows, ∀ column < columns,
      bTransposed[column * rows + row]? = b[row * columns + column]?) :
    pack arithmetic level ⟨bTransposed, .transposed, rows, rows, columns, alpha⟩ blockRows =
      pack arithmetic level ⟨b, .plain, columns, rows, columns, alpha⟩ blockRows := by
  let plain : Source := ⟨b, .plain, columns, rows, columns, alpha⟩
  let transposed : Source := ⟨bTransposed, .transposed, rows, rows, columns, alpha⟩
  have hplain : plain.check arithmetic = (fun _ ↦ ()) <$> arithmetic.word (rows * columns) := by
    rw [← Storage.check_dense, ← hb]
    rfl
  have htransposed : transposed.check arithmetic =
      (fun _ ↦ ()) <$> arithmetic.word (rows * columns) := by
    rw [Nat.mul_comm, ← Storage.check_dense, Nat.mul_comm, ← hb, ← hsize]
    rfl
  refine pack_congr (htransposed.trans hplain.symm) rfl rfl rfl fun hcheck width row hrow column
    hcolumn ↦ ?_
  obtain ⟨_, hword, -⟩ := map_eq_ok.mp (hplain.symm.trans hcheck)
  have hlimit := (hexact.word_eq_ok.mp hword).2
  have hoffset : row * columns + column < Word.limit :=
    Nat.lt_trans (offset_lt hrow hcolumn) hlimit
  have hoffset' : column * rows + row < Word.limit :=
    Nat.lt_trans (offset_lt hcolumn hrow) (Nat.mul_comm rows columns ▸ hlimit)
  have hread : transposed.element arithmetic width (row, column) =
      alpha.mul <$> orPanic bTransposed[column * rows + row]? :=
    element_eq_orPanic transposed hcolumn hoffset'
  rw [hread, hdata row hrow column hcolumn]
  exact (element_eq_orPanic plain hcolumn hoffset).symm

end Panel

/-! ### Running either way -/

/-- The tiles that a family lists for a number of rows are read in these rows alone. -/
def Family.ReadsWithin (family : Family) (arithmetic : Arithmetic) (rows : Nat) : Prop :=
  ∀ tiles, family.tiles arithmetic rows = .ok tiles → ∀ tile ∈ tiles, tile.ReadsWithin rows

/-- A family that tiles greedily reads within any number of rows that a word counts. -/
theorem Family.readsWithin_of_greedy {family : Family} (hpolicy : family.policy = .greedy)
    (arithmetic : Arithmetic) {rows : Nat} (hrows : rows < Word.limit) :
    family.ReadsWithin arithmetic rows := by
  intro tiles htiles tile htile i hi _
  obtain ⟨steps, hsteps, htiles⟩ := bind_eq_ok.mp htiles
  have htiling := Family.tiles_of_greedy hpolicy arithmetic rows steps hsteps
  obtain ⟨-, -, htiles⟩ := bind_eq_ok.mp htiles
  rw [Tile.layOutFrom_eq (by rwa [Nat.zero_add, htiling.sum])] at htiles
  cases htiles
  exact Nat.lt_of_lt_of_le (Nat.add_lt_add_left hi _) (htiling.stacked.bounds.2 tile htile).2

namespace Workers

variable {arithmetic : Arithmetic} {output : Array Single} {stride threads : Nat}
  {tiles : List Tile} {work work' : Work}

/-- Workers leave outcomes that are alike if their work leaves such on any tiles of a list. -/
theorem map_outcomes_congr {β : Type} {f : Outcome Nat → β} {spans : List (List Tile)}
    (hspans : ∀ span ∈ spans, span ⊆ tiles)
    (h : ∀ band row, ∀ span ⊆ tiles, f (work' band span row) = f (work band span row))
    (bands : List (Array Single)) :
    (outcomes bands spans work').map f = (outcomes bands spans work).map f := by
  unfold outcomes
  rw [List.map_zipWith, List.map_zipWith]
  refine List.ext_getElem (by simp only [List.length_zipWith]) fun i hi hi' ↦ ?_
  rw [List.getElem_zipWith, List.getElem_zipWith]
  exact h _ _ _ (hspans _ (List.getElem_mem _))

theorem subset_of_mem_tileSpans {workers : Nat} (hworkers : 0 < workers) :
    ∀ span ∈ tileSpans workers tiles, span ⊆ tiles := by
  intro span hspan tile htile
  rw [← tileSpans_flatten hworkers tiles]
  exact List.mem_flatten_of_mem hspan htile

/-- Workers that do the same with tiles of a list run alike. -/
theorem run_congr
    (h : ∀ band row, ∀ span ⊆ tiles, work' band span row = work band span row) :
    run arithmetic output stride tiles threads work' =
      run arithmetic output stride tiles threads work := by
  unfold run
  dsimp only
  split_ifs
  · exact h output 0 tiles (List.Subset.refl tiles)
  · have houtcomes := map_outcomes_congr (f := id)
      (subset_of_mem_tileSpans (count_pos threads tiles)) h
    simp only [List.map_id] at houtcomes
    unfold runMany
    simp only [houtcomes]

/-- Workers that come to the same results with tiles of a list come to the same together. -/
theorem result_run_congr
    (h : ∀ band row, ∀ span ⊆ tiles,
      (work' band span row).result = (work band span row).result) :
    (run arithmetic output stride tiles threads work').result =
      (run arithmetic output stride tiles threads work).result := by
  unfold run
  dsimp only
  split_ifs
  · exact h output 0 tiles (List.Subset.refl tiles)
  · have hresults := map_outcomes_congr (subset_of_mem_tileSpans (count_pos threads tiles)) h
    unfold runMany
    cases bands arithmetic output stride (tileSpans (count threads tiles) tiles) with
    | error failure => rfl
    | ok bands =>
      dsimp only
      rw [hresults]

end Workers

/-- A request with another left operand. -/
def Request.withLeft (request : Request) (left : Array Single) (orientation : Orientation)
    (stride : Nat) : Request :=
  { request with left, orientation, leftStride := stride }

/-- A left operand that is read like that of a request. -/
def Request.SameLeft (request : Request) (left : Array Single) (orientation : Orientation)
    (stride : Nat) : Prop :=
  ∀ row < request.m, ∀ depth < request.k,
    (request.withLeft left orientation stride).readLeft row depth = request.readLeft row depth

/-- What a left operand does not have cannot be read, if the place for it is counted exactly. -/
theorem Request.readLeft_of_none {request : Request} {row depth : Nat}
    (hexact : request.arithmetic.Exact
      (request.orientation.offset request.leftStride row depth))
    (h : request.left? row depth = none) : request.readLeft row depth = .error .panicked := by
  by_cases hlimit : request.orientation.offset request.leftStride row depth < Word.limit
  · rw [readLeft_of_lt hlimit, h]
    rfl
  · rw [readLeft, word, hexact.resolve_right hlimit,
      Arithmetic.checked_word_of_le (Nat.le_of_not_lt hlimit), error_bind]

namespace Engine

variable {engine : Engine} {request : Request} {left : Array Single} {orientation : Orientation}
  {stride start depth : Nat} {tile : Tile}

theorem packedStrip_withLeft (hsame : request.SameLeft left orientation stride)
    (htile : tile.ReadsWithin request.m) (hdepth : start + depth ≤ request.k) :
    packedStrip (request.withLeft left orientation stride) tile start depth =
      packedStrip request tile start depth := by
  refine congrArg (List.toArray <$> ·) (mapM_congr fun position hposition ↦ ?_)
  unfold stripElement
  split_ifs with hrow
  · have hlt : position < tile.kernelRows * depth := by
      rw [Nat.mul_comm]
      exact List.mem_range.mp hposition
    have hheight : position % tile.kernelRows < tile.kernelRows :=
      Nat.mod_lt _ (Nat.pos_of_lt_mul_right hlt)
    have hp : position / tile.kernelRows < depth := Nat.div_lt_of_lt_mul hlt
    rw [hsame _ (htile _ hrow hheight) _
      (Nat.lt_of_lt_of_le (Nat.add_lt_add_left hp start) hdepth)]
    rfl
  · rfl

open Stage in
/-- The strip of a tile is the only thing that is read off the left operand. -/
theorem packStrip_withLeft (hsame : request.SameLeft left orientation stride)
    (htile : tile.ReadsWithin request.m) (hdepth : start + depth ≤ request.k) :
    packStrip (request.withLeft left orientation stride) tile start depth =
      packStrip request tile start depth := by
  refine ofExcept_bind_congr fun size hsize ↦ ?_
  have hfewer : size / tile.kernelRows ≤ depth :=
    Nat.div_le_of_le_mul (Nat.mul_comm _ _ ▸ Arithmetic.word_le hsize)
  rw [packedStrip_withLeft hsame htile (Nat.le_trans (Nat.add_le_add_left hfewer start) hdepth)]

open Stage in
theorem runBlock_withLeft (hsame : request.SameLeft left orientation stride)
    (htile : tile.ReadsWithin request.m) (hstart : start ∈ request.panel.shape.blockStarts)
    (kernel : Kernel) (origin : Nat) :
    runBlock (request.withLeft left orientation stride) kernel tile origin start =
      runBlock request kernel tile origin start := by
  refine ofExcept_bind_congr fun right hright ↦ ofExcept_bind_congr fun padded hpadded ↦ ?_
  -- the storage of a K-block is no longer than its rows, whatever its ends came out as
  obtain ⟨padded', hpadded', hsize⟩ := Panel.size_readBlock_le hright
  cases hpadded'.symm.trans hpadded
  have hdepth : start + right.size / padded ≤ request.k :=
    Nat.le_trans (Nat.add_le_add_left (Nat.div_le_of_le_mul (Nat.mul_comm _ _ ▸ hsize)) start)
      (PanelShape.blockDepth_le_rows hstart)
  dsimp only
  rw [packStrip_withLeft hsame htile hdepth]
  rfl

theorem runTile_withLeft (hsame : request.SameLeft left orientation stride)
    (htile : tile.ReadsWithin request.m) (firstRow : Nat) :
    engine.runTile (request.withLeft left orientation stride) firstRow tile =
      engine.runTile request firstRow tile := by
  have hblocks : ∀ kernel origin,
      (request.withLeft left orientation stride).panel.shape.blockStarts.foldlM
      (fun calls start ↦ do
        return calls + (← runBlock (request.withLeft left orientation stride) kernel tile origin
          start)) 0 =
      request.panel.shape.blockStarts.foldlM (fun calls start ↦ do
        return calls + (← runBlock request kernel tile origin start)) 0 :=
    fun kernel origin ↦ foldlM_congr (fun calls start hstart ↦ by
      rw [runBlock_withLeft hsame htile hstart]) 0
  have hplace : placeTile (request.withLeft left orientation stride) firstRow tile =
      placeTile request firstRow tile := rfl
  unfold runTile
  simp only [hblocks, hplace]

theorem runSpan_withLeft (hsame : request.SameLeft left orientation stride) {tiles : List Tile}
    (htiles : ∀ tile ∈ tiles, tile.ReadsWithin request.m) (band : Array Single) (firstRow : Nat) :
    engine.runSpan (request.withLeft left orientation stride) band tiles firstRow =
      engine.runSpan request band tiles firstRow := by
  have hrun : engine.runTiles (request.withLeft left orientation stride) firstRow tiles =
      engine.runTiles request firstRow tiles :=
    foldlM_congr (fun calls tile htile ↦ by rw [runTile_withLeft hsame (htiles tile htile)]) 0
  unfold runSpan
  rw [hrun]
  rfl

/-- A request is checked alike if its left operands are. -/
theorem check_withLeft {size : Nat}
    (h : Storage.check request.arithmetic left.size (orientation.storedRows request.m request.k)
        (orientation.storedColumns request.m request.k) stride =
      Storage.check request.arithmetic request.left.size
        (request.orientation.storedRows request.m request.k)
        (request.orientation.storedColumns request.m request.k) request.leftStride) :
    engine.check (request.withLeft left orientation stride) size = engine.check request size := by
  unfold check
  rw [← h]
  rfl

/-- What a run comes to does not depend on how its left operand is stored, if that is so once the
operands are checked. -/
theorem map_run_withLeft {β : Type} (f : Outcome RunStats → β) {output : Array Single}
    {threads : Nat}
    (hcheck : engine.check (request.withLeft left orientation stride) output.size =
      engine.check request output.size)
    (hchecked : engine.check request output.size = .ok () → request.isEmpty = false →
      f (engine.runChecked (request.withLeft left orientation stride) output threads) =
        f (engine.runChecked request output threads)) :
    f (engine.run (request.withLeft left orientation stride) output threads) =
      f (engine.run request output threads) := by
  have hempty : (request.withLeft left orientation stride).isEmpty = request.isEmpty := rfl
  rcases Nat.eq_zero_or_pos threads with rfl | hthreads
  · rw [run_without_threads, run_without_threads]
  rw [run_eq_checked hthreads, run_eq_checked hthreads]
  cases hresult : engine.check request output.size with
  | error failure => rw [checked_of_error hresult, checked_of_error (hcheck.trans hresult)]
  | ok =>
    cases hnone : request.isEmpty with
    | true =>
      rw [checked_of_isEmpty hresult hnone,
        checked_of_isEmpty (hcheck.trans hresult) (hempty.trans hnone)]
    | false =>
      rw [checked_of_not_isEmpty hresult hnone,
        checked_of_not_isEmpty (hcheck.trans hresult) (hempty.trans hnone)]
      exact hchecked hresult hnone

/-- Once the operands are checked, a run does not depend on how the left one is stored. -/
theorem runChecked_withLeft (hsame : request.SameLeft left orientation stride)
    (hfamily : engine.family.ReadsWithin request.arithmetic request.m) (output : Array Single)
    (threads : Nat) :
    engine.runChecked (request.withLeft left orientation stride) output threads =
      engine.runChecked request output threads := by
  have htiles : engine.family.tiles (request.withLeft left orientation stride).arithmetic
      (request.withLeft left orientation stride).m =
        engine.family.tiles request.arithmetic request.m := rfl
  unfold runChecked
  rw [htiles]
  cases hlisted : engine.family.tiles request.arithmetic request.m with
  | error failure => rfl
  | ok tiles =>
    refine congrArg (Outcome.map _) (Workers.run_congr fun band row span hspan ↦ ?_)
    exact runSpan_withLeft hsame (fun tile htile ↦ hfamily tiles hlisted tile (hspan htile))
      band row

/-! ### Rows that an operand does not have -/

/-- What the tiles of a family need, and the places where they read the left operand, are counted
exactly, and so are the elements of the panel. -/
structure CountsReads (engine : Engine) (request : Request) : Prop where
  panel : request.arithmetic.Exact request.panel.shape.size
  tiles : ∀ tiles, engine.family.tiles request.arithmetic request.m = .ok tiles →
    engine.CountsTiles request tiles ∧
      ∀ tile ∈ tiles, request.arithmetic.Exact (tile.stop * request.k)

/-- Checked arithmetic counts everything exactly. -/
theorem countsReads_of_checked (engine : Engine) (h : request.arithmetic = .checked) :
    engine.CountsReads request :=
  ⟨.inl h, fun _ _ ↦ ⟨fun _ _ _ ↦ countsTile_of_checked h _, fun _ _ ↦ .inl h⟩⟩

section Lacking

open Stage

variable (hcolumns : 0 < request.n) (hstride : request.n ≤ request.outputStride)
  (hwidth : engine.family.accepts request.panel.width = true) (hwhole : request.panel.Whole)
  (hsame : request.SameLeft left orientation stride) {p : Nat} (hp : p < request.k)
include hcolumns hstride hwidth hwhole hsame hp

/-- A tile comes to the same end with either left operand: if it reads behind them, then it panics
with both unless it is refused. -/
theorem runTile_endsAlike
    (hcounts : engine.family.table.holds tile.kernelRows = true → CountsTile request tile)
    (hlacks : ∀ i < tile.rows, request.m ≤ tile.row + i →
      request.readLeft (tile.row + i) p = .error .panicked ∧
        (request.withLeft left orientation stride).readLeft (tile.row + i) p = .error .panicked)
    (firstRow : Nat) :
    (engine.runTile (request.withLeft left orientation stride) firstRow tile).EndsAlike
      (engine.runTile request firstRow tile) := by
  by_cases hreads : tile.ReadsWithin request.m
  · rw [runTile_withLeft hsame hreads]
    exact endsAlike_refl _
  · obtain ⟨i, hrow, hheight, hle⟩ : ∃ i < tile.rows, i < tile.kernelRows ∧
        request.m ≤ tile.row + i := by
      unfold Tile.ReadsWithin at hreads
      push Not at hreads
      exact hreads
    obtain ⟨hmissing, hmissing'⟩ := hlacks i hrow hle
    have hone : (engine.runTile request firstRow tile).EndsAlike
        (engine.overreach request firstRow tile) :=
      runTile_endsAlike_overreach hcolumns hstride hwidth hcounts hwhole hrow hheight hp hmissing
        firstRow
    have hcounts' : engine.family.table.holds tile.kernelRows = true →
        CountsTile (request.withLeft left orientation stride) tile := fun hholds ↦
      ⟨(hcounts hholds).needed, (hcounts hholds).strip, (hcounts hholds).staging⟩
    have hother : (engine.runTile (request.withLeft left orientation stride) firstRow
        tile).EndsAlike (engine.overreach request firstRow tile) :=
      -- the other request has the same columns, stride and panel
      runTile_endsAlike_overreach
        (show 0 < (request.withLeft left orientation stride).n from hcolumns) hstride hwidth
        hcounts' hwhole hrow hheight hp hmissing' firstRow
    exact hother.trans hone.symm

/-- A span comes to the same result with either left operand. -/
theorem result_runSpan_withLeft {tiles : List Tile} (hcounts : engine.CountsTiles request tiles)
    (hlacks : ∀ tile ∈ tiles, ∀ i < tile.rows, request.m ≤ tile.row + i →
      request.readLeft (tile.row + i) p = .error .panicked ∧
        (request.withLeft left orientation stride).readLeft (tile.row + i) p = .error .panicked)
    (band : Array Single) (firstRow : Nat) :
    (engine.runSpan (request.withLeft left orientation stride) band tiles firstRow).result =
      (engine.runSpan request band tiles firstRow).result := by
  have htiles : (engine.runTiles (request.withLeft left orientation stride) firstRow
      tiles).EndsAlike (engine.runTiles request firstRow tiles) :=
    endsAlike_foldlM (fun tile htile calls ↦ EndsAlike.bind (runTile_endsAlike hcolumns hstride
      hwidth hwhole hsame hp (hcounts tile htile) (hlacks tile htile) firstRow)
        fun _ ↦ endsAlike_refl _) 0
  have hworkspace : workspace engine (request.withLeft left orientation stride) tiles band =
      workspace engine request tiles band := rfl
  unfold runSpan
  rw [hworkspace]
  cases workspace engine request tiles band with
  | error failure => rfl
  | ok buffers =>
    rcases htiles buffers with hrun | ⟨failure, last, last', hrun, hrun'⟩
    · dsimp only
      rw [hrun]
    · dsimp only
      rw [hrun, hrun']

/-- Once the operands are checked, the result of a run does not depend on how the left one is
stored, whatever tiles the family lists, if neither form of it has an element behind its last row.
-/
theorem result_runChecked_withLeft (hcounts : engine.CountsReads request)
    (hlacks : ∀ row, request.m ≤ row → request.arithmetic.Exact ((row + 1) * request.k) →
      request.readLeft row p = .error .panicked ∧
        (request.withLeft left orientation stride).readLeft row p = .error .panicked)
    (output : Array Single) (threads : Nat) :
    (engine.runChecked (request.withLeft left orientation stride) output threads).result =
      (engine.runChecked request output threads).result := by
  have htiles : engine.family.tiles (request.withLeft left orientation stride).arithmetic
      (request.withLeft left orientation stride).m =
        engine.family.tiles request.arithmetic request.m := rfl
  unfold runChecked
  rw [htiles]
  cases hlisted : engine.family.tiles request.arithmetic request.m with
  | error failure => rfl
  | ok tiles =>
    obtain ⟨htile, hstops⟩ := hcounts.tiles tiles hlisted
    refine congrArg (_ <$> ·) (Workers.result_run_congr fun band row span hspan ↦ ?_)
    refine result_runSpan_withLeft hcolumns hstride hwidth hwhole hsame hp
      (fun tile hmem ↦ htile tile (hspan hmem)) (fun tile hmem i hi hbehind ↦ ?_) band row
    refine hlacks _ hbehind ((hstops tile (hspan hmem)).mono (Nat.mul_le_mul_right _ ?_))
    unfold Tile.stop
    omega

end Lacking

/-! ### Transposing the operands -/

section Transposed

variable (horientation : request.orientation = .plain) (hstride : request.leftStride = request.k)
include horientation hstride

/-- Where a dense operand has an element. -/
theorem offset_dense (row depth : Nat) :
    request.orientation.offset request.leftStride row depth = row * request.k + depth := by
  rw [horientation, hstride, Orientation.offset]

/-- A dense left operand and its transpose are read alike if words count their elements. -/
theorem sameLeft_transposed (hlimit : request.m * request.k < Word.limit)
    (helements : ∀ row < request.m, ∀ depth < request.k,
      left[depth * request.m + row]? = request.left[row * request.k + depth]?) :
    request.SameLeft left .transposed request.m := by
  intro row hrow depth hdepth
  have hplain := offset_dense horientation hstride row depth
  have hoffset := Nat.lt_trans (offset_lt hrow hdepth) hlimit
  rw [← hplain] at hoffset
  have hoffset' : depth * request.m + row < Word.limit :=
    Nat.lt_trans (offset_lt hdepth hrow) (Nat.mul_comm request.m request.k ▸ hlimit)
  have hread : (request.withLeft left .transposed request.m).readLeft row depth =
      orPanic left[depth * request.m + row]? := Request.readLeft_of_lt hoffset'
  rw [hread, helements row hrow depth hdepth, Request.readLeft_of_lt hoffset, Request.left?, hplain]

variable (hsize : request.left.size = request.m * request.k)
  (hsize' : left.size = request.left.size)
include hsize hsize'

/-- Neither form of a dense operand has an element of the last column behind its last row. -/
theorem readLeft_behind (hdepth : 0 < request.k) {row : Nat} (hrow : request.m ≤ row)
    (hcounts : request.arithmetic.Exact ((row + 1) * request.k)) :
    request.readLeft row (request.k - 1) = .error .panicked ∧
      (request.withLeft left .transposed request.m).readLeft row (request.k - 1) =
        .error .panicked := by
  have hplain := offset_dense horientation hstride row (request.k - 1)
  constructor
  · refine Request.readLeft_of_none (hcounts.mono ?_) (Array.getElem?_eq_none ?_)
    · rw [hplain, Nat.succ_mul]
      omega
    · rw [hplain, hsize]
      exact Orientation.plain.dense_le_offset request.k hrow
  · refine Request.readLeft_of_none (hcounts.mono ?_) (Array.getElem?_eq_none ?_)
    · change (request.k - 1) * request.m + row ≤ (row + 1) * request.k
      have hless := Nat.mul_le_mul_left (request.k - 1) hrow
      have hrows : (request.k - 1) * row + row = request.k * row := by
        rw [Nat.sub_one_mul, Nat.sub_add_cancel (Nat.le_mul_of_pos_left _ hdepth)]
      rw [Nat.succ_mul, Nat.mul_comm row]
      omega
    · change left.size ≤ _
      rw [hsize', hsize]
      exact Orientation.transposed.dense_le_offset request.k hrow

/-- A run on the transpose of a dense left operand has the result of the run on the operand itself,
and it leaves the same output, if none of its tiles reads behind the operand. -/
theorem run_transposed (engine : Engine)
    (hexact : request.arithmetic.Exact (request.m * request.k))
    (helements : ∀ row < request.m, ∀ depth < request.k,
      left[depth * request.m + row]? = request.left[row * request.k + depth]?)
    (output : Array Single) (threads : Nat) :
    (request.panel.Whole → engine.CountsReads request →
      (engine.run (request.withLeft left .transposed request.m) output threads).result =
        (engine.run request output threads).result) ∧
    (engine.family.policy = .greedy ∨ engine.family.ReadsWithin request.arithmetic request.m →
      engine.run (request.withLeft left .transposed request.m) output threads =
        engine.run request output threads) := by
  have hplain : Storage.check request.arithmetic request.left.size
      (request.orientation.storedRows request.m request.k)
      (request.orientation.storedColumns request.m request.k) request.leftStride =
        (fun _ ↦ ()) <$> request.arithmetic.word (request.m * request.k) := by
    rw [horientation, hstride, hsize]
    exact Storage.check_dense _ _ _
  have hcheck : engine.check (request.withLeft left .transposed request.m) output.size =
      engine.check request output.size := by
    refine check_withLeft (Eq.trans ?_ hplain.symm)
    rw [hsize', hsize, Nat.mul_comm]
    exact Storage.check_dense _ _ _
  have hlimit : engine.check request output.size = .ok () →
      request.m * request.k < Word.limit := by
    intro hchecked
    obtain ⟨_, -, hchecked⟩ := bind_eq_ok.mp hchecked
    obtain ⟨_, hstored, -⟩ := bind_eq_ok.mp hchecked
    obtain ⟨_, hword, -⟩ := map_eq_ok.mp (hplain.symm.trans hstored)
    exact (hexact.word_eq_ok.mp hword).2
  have hsame := fun hchecked ↦
    sameLeft_transposed horientation hstride (hlimit hchecked) helements
  constructor
  · refine fun hwhole hcounts ↦ map_run_withLeft Outcome.result hcheck fun hchecked hsome ↦ ?_
    rw [← Bool.not_eq_true, Request.isEmpty_iff] at hsome
    obtain ⟨hwidth, houtput⟩ := width_stride_of_check hchecked (by omega)
    have hdepth : 0 < request.k := by omega
    exact result_runChecked_withLeft (by omega) houtput hwidth hwhole (hsame hchecked)
      (Nat.sub_lt hdepth Nat.one_pos) hcounts (fun row hrow ↦
        readLeft_behind horientation hstride hsize hsize' hdepth hrow) output threads
  · refine fun hfamily ↦ map_run_withLeft id hcheck fun hchecked hsome ↦ ?_
    refine runChecked_withLeft (hsame hchecked) (hfamily.elim (fun hpolicy ↦ ?_) id) output threads
    rw [← Bool.not_eq_true, Request.isEmpty_iff] at hsome
    refine Family.readsWithin_of_greedy hpolicy _ (Nat.lt_of_le_of_lt ?_ (hlimit hchecked))
    exact Nat.le_mul_of_pos_right _ (by omega)

end Transposed

open Packing in
/-- A dense operand and its transpose are handed over alike. Packing either form of the right
operand gives the same panel, and the products of either form of the left operand with it have the
same result and leave the same output, whatever the engine, the level that the panel is packed for
and the number of threads are, unless some tile reads behind the left operand: then the products
still have the same result, as long as what the tiles need is counted exactly. The sizes of the
operands are counted exactly: the length of a buffer is a word. -/
theorem run_orientations (arithmetic : Arithmetic) (engine : Engine) (level : Level) (m k n : Nat)
    (a b aRoom bRoom : Array Single) (packAlpha : Single) (blockRows : Nat)
    (output : Array Single) (outputStride : Nat) (alpha beta : Single) (threads : Nat)
    (ha : a.size = m * k) (haRoom : aRoom.size = m * k)
    (hb : b.size = k * n) (hbRoom : bRoom.size = k * n)
    (hleft : arithmetic.Exact (m * k)) (hright : arithmetic.Exact (k * n)) :
    ∃ aTransposed bTransposed,
      transpose a aRoom m k = .ok aTransposed ∧ transpose b bRoom k n = .ok bTransposed ∧
      Panel.pack arithmetic level ⟨bTransposed, .transposed, k, k, n, packAlpha⟩ blockRows =
        Panel.pack arithmetic level ⟨b, .plain, n, k, n, packAlpha⟩ blockRows ∧
      (0 < blockRows → min blockRows k * level.blockWidth < Word.limit →
        (⟨b, .plain, n, k, n, packAlpha⟩ : Source).HasRoom level → ∃ panel,
          Panel.pack arithmetic level ⟨b, .plain, n, k, n, packAlpha⟩ blockRows = .ok panel) ∧
      ∀ panel panelTransposed,
        Panel.pack arithmetic level ⟨b, .plain, n, k, n, packAlpha⟩ blockRows = .ok panel →
        Panel.pack arithmetic level ⟨bTransposed, .transposed, k, k, n, packAlpha⟩ blockRows =
          .ok panelTransposed →
        panelTransposed.data = panel.data ∧
        ∃ outcome, ∀ right ∈ [panel, panelTransposed],
          engine.run ⟨arithmetic, m, a, .plain, k, right, outputStride, alpha, beta⟩ output
            threads = outcome ∧
          (engine.CountsReads ⟨arithmetic, m, a, .plain, k, right, outputStride, alpha, beta⟩ →
            (engine.run ⟨arithmetic, m, aTransposed, .transposed, m, right, outputStride, alpha,
              beta⟩ output threads).result = outcome.result) ∧
          (engine.family.policy = .greedy ∨ engine.family.ReadsWithin arithmetic m →
            engine.run ⟨arithmetic, m, aTransposed, .transposed, m, right, outputStride, alpha,
              beta⟩ output threads = outcome) := by
  obtain ⟨aTransposed, haTransposed, haSize, haElements⟩ := transpose_dense ha haRoom
  obtain ⟨bTransposed, hbTransposed, hbSize, hbElements⟩ := transpose_dense hb hbRoom
  let plain : Source := ⟨b, .plain, n, k, n, packAlpha⟩
  let transposed : Source := ⟨bTransposed, .transposed, k, k, n, packAlpha⟩
  have hpack : Panel.pack arithmetic level transposed blockRows =
      Panel.pack arithmetic level plain blockRows :=
    Panel.pack_transposed packAlpha hright hb (hbSize.trans hb.symm) hbElements
  refine ⟨aTransposed, bTransposed, haTransposed, hbTransposed, hpack,
    fun hpositive hcolumnBlock hroom ↦ ?_, fun panel panelTransposed hpanel hpanelTransposed ↦ ?_⟩
  · have hsize : plain.size level < Word.limit := lt_limit_of_bytes hroom
    have hfits : plain.Fits blockRows := ⟨hpositive, hb ▸ Storage.holds_dense k n⟩
    have hoperand : plain.OperandCountable := by
      refine hfits.2.countable (Nat.lt_of_le_of_lt ?_ hsize)
      rw [hb]
      exact Nat.mul_le_mul_left k (le_blockCount_mul n _ level.blockWidth_pos)
    obtain ⟨panel, hpanel, -⟩ := Panel.pack_of_fits hfits arithmetic
      ⟨hoperand, hcolumnBlock, hsize⟩ hroom
    exact ⟨panel, hpanel⟩
  · obtain rfl : panel = panelTransposed :=
      Except.ok.inj (hpanel.symm.trans (hpack.symm.trans hpanelTransposed))
    obtain ⟨-, hk, -, -⟩ := Panel.shape_of_pack hpanel
    have hk : panel.rows = k := hk
    let request : Request :=
      ⟨arithmetic, m, a, .plain, k, panel, outputStride, alpha, beta⟩
    have hstride : request.leftStride = request.k := hk.symm
    have hsize : request.left.size = request.m * request.k := ha.trans (congrArg (m * ·) hk.symm)
    have helements : ∀ row < m, ∀ depth < request.k,
        aTransposed[depth * m + row]? = a[row * request.k + depth]? := by
      intro row hrow depth hdepth
      rw [← hstride]
      exact haElements row hrow depth (hk ▸ hdepth)
    obtain ⟨hresult, hsame⟩ := run_transposed rfl hstride hsize
      (haSize.trans ha.symm) engine (hstride ▸ hleft) helements output threads
    refine ⟨rfl, engine.run request output threads, fun right hright ↦ ?_⟩
    obtain rfl : right = panel := by simpa using hright
    refine ⟨rfl, fun hcounts ↦ hresult (Panel.whole_of_pack ?_ hpanel) hcounts, hsame⟩
    exact Panel.size_of_pack hpanel ▸ hcounts.panel

/-- Two rows of three elements times a column of three, as they are and transposed. -/
theorem run_orientations_column : ∃ panel,
    Panel.pack .wrapping .avx2 ⟨#[.ofNat 7, .ofNat 8, .ofNat 9], .plain, 1, 3, 1, .one⟩ 2 =
      .ok panel ∧
    Panel.pack .wrapping .avx2 ⟨#[.ofNat 7, .ofNat 8, .ofNat 9], .transposed, 3, 3, 1, .one⟩ 2 =
      .ok panel ∧
    scalar.run ⟨.wrapping, 2, #[.ofNat 1, .ofNat 4, .ofNat 2, .ofNat 5, .ofNat 3, .ofNat 6],
        .transposed, 2, panel, 1, .one, .one⟩ #[.one, .one] 2 =
      scalar.run ⟨.wrapping, 2, #[.ofNat 1, .ofNat 2, .ofNat 3, .ofNat 4, .ofNat 5, .ofNat 6],
        .plain, 3, panel, 1, .one, .one⟩ #[.one, .one] 2 := by
  obtain ⟨aTransposed, bTransposed, ha, hb, hpack, hpacks, hruns⟩ :=
    run_orientations .wrapping scalar .avx2 2 3 1
      #[.ofNat 1, .ofNat 2, .ofNat 3, .ofNat 4, .ofNat 5, .ofNat 6] #[.ofNat 7, .ofNat 8, .ofNat 9]
      (Array.replicate 6 .zero) (Array.replicate 3 .zero) .one 2 #[.one, .one] 1 .one .one 2
      rfl rfl rfl rfl (by decide) (by decide)
  obtain rfl : #[.ofNat 1, .ofNat 4, .ofNat 2, .ofNat 5, .ofNat 3, .ofNat 6] = aTransposed :=
    Except.ok.inj ((by decide : _ = _).symm.trans ha)
  obtain rfl : #[.ofNat 7, .ofNat 8, .ofNat 9] = bTransposed :=
    Except.ok.inj ((by decide : _ = _).symm.trans hb)
  obtain ⟨panel, hpanel⟩ := hpacks (by decide) (by decide)
    (by unfold Packing.Source.HasRoom; decide)
  obtain ⟨-, outcome, hall⟩ := hruns panel panel hpanel (hpack.trans hpanel)
  obtain ⟨hplain, -, htransposed⟩ := hall panel List.mem_cons_self
  exact ⟨panel, hpanel, hpack.trans hpanel, (htransposed (.inl rfl)).trans hplain.symm⟩

/-- An engine that lists two tiles of one row whatever the number of rows is. -/
def trailingEngine : Engine :=
  ⟨Family.make (KernelTable.full .baseline 1) 1 (.fixed [⟨1, 1⟩, ⟨1, 1⟩])⟩

/-- Below its last row a plain operand ends at once, but a transposed one goes on with elements of
other rows, so a worker whose tile lies there comes to compute a block before it panics. -/
theorem run_orientations_trailing : ∃ panel,
    Panel.pack .wrapping .baseline ⟨#[.one, .one], .plain, 1, 2, 1, .one⟩ 1 = .ok panel ∧
    transpose #[.one, .one] #[.zero, .zero] 1 2 = .ok #[.one, .one] ∧
    (trailingEngine.run ⟨.wrapping, 1, #[.one, .one], .plain, 2, panel, 1, .one, .zero⟩
      #[.zero, .zero] 2).output = #[.ofNat 2, .zero] ∧
    (trailingEngine.run ⟨.wrapping, 1, #[.one, .one], .transposed, 1, panel, 1, .one, .zero⟩
      #[.zero, .zero] 2).output = #[.ofNat 2, .one] :=
  ⟨_, rfl, by decide, by decide +kernel, by decide +kernel⟩

end Engine

end PanelGemm
