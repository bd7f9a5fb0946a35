import PanelGemm.Proofs.Engine.Fitting
import PanelGemm.Proofs.Tiling.Cover

/-!
# Stages that stay inside their buffers

`Stage.Confined` is the contract of a stage that may fail but never goes wild. Unlike
`Stage.Rewrites` it asks nothing of the operands, and nothing of the tiles but that what they need
is counted exactly (`Engine.CountsTile`): their rows need not cover the output, they may be masked
or taller than their kernels, the buffers of the span may be too short for them, and the panel may
hold anything. What keeps a kernel inside its buffers is checked on the way to its call, and the
checks that fail refuse or panic.
-/

set_option autoImplicit false
set_option relaxedAutoImplicit false

namespace PanelGemm

/-- A failure that is a panic. -/
def Failure.IsPanic (failure : Failure) : Prop := failure = .panicked

theorem Failure.isPanic_panicked : IsPanic .panicked := rfl

/-- A failure that is no wild access. -/
def Failure.IsTame (failure : Failure) : Prop := failure ≠ .wild

theorem Failure.isTame_panicked : IsTame .panicked := nofun

theorem Failure.IsPanic.isTame {failure : Failure} (h : failure.IsPanic) : failure.IsTame :=
  fun hwild ↦ nomatch h.symm.trans hwild

namespace Stage

/-- A stage that keeps a band of a given size at that size and whose value satisfies `post`, or that
fails in one of the ways that are allowed. -/
def Confined {α : Type} (action : Stage α) (allowed : Failure → Prop) (size : Nat)
    (post : α → Prop) : Prop :=
  ∀ workspace : Workspace, workspace.band.size = size →
    match action.run workspace with
    | .ok value next => next.band.size = size ∧ post value
    | .error failure _ => allowed failure

namespace Confined

variable {α β : Type} {allowed : Failure → Prop} {size : Nat} {post : α → Prop}

theorem pure {value : α} (h : post value) :
    (Pure.pure value : Stage α).Confined allowed size post :=
  fun _ hworkspace ↦ ⟨hworkspace, h⟩

theorem bind {action : Stage α} {next : α → Stage β} {post' : β → Prop}
    (h : action.Confined allowed size post)
    (hnext : ∀ value, post value → (next value).Confined allowed size post') :
    (action >>= next).Confined allowed size post' := by
  intro workspace hworkspace
  have hrun := h workspace hworkspace
  rw [run_bind]
  cases haction : action.run workspace with
  | ok value middle =>
    rw [haction] at hrun
    exact hnext value hrun.2 middle hrun.1
  | error failure middle =>
    rw [haction] at hrun
    exact hrun

/-- More ways to fail may be allowed. -/
theorem allow {action : Stage α} {allowed' : Failure → Prop} (h : action.Confined allowed size post)
    (hallowed : ∀ failure, allowed failure → allowed' failure) :
    action.Confined allowed' size post := by
  intro workspace hworkspace
  have hrun := h workspace hworkspace
  cases haction : action.run workspace with
  | ok value next =>
    rw [haction] at hrun
    exact hrun
  | error failure next =>
    rw [haction] at hrun
    exact hallowed failure hrun

theorem foldlM {ι : Type} {items : List ι} {step : β → ι → Stage β}
    (h : ∀ item ∈ items, ∀ value, (step value item).Confined allowed size fun _ ↦ True)
    (value : β) : (items.foldlM step value).Confined allowed size fun _ ↦ True := by
  induction items generalizing value with
  | nil => exact pure trivial
  | cons item items ih =>
    rw [List.foldlM_cons]
    exact (h item (by simp) value).bind fun next _ ↦
      ih (fun other hother ↦ h other (by simp [hother])) next

theorem forM {ι : Type} {items : List ι} {step : ι → Stage Unit}
    (h : ∀ item ∈ items, (step item).Confined allowed size fun _ ↦ True) :
    (items.forM step).Confined allowed size fun _ ↦ True := by
  induction items with
  | nil => exact pure trivial
  | cons item items ih =>
    exact (h item (by simp)).bind fun _ _ ↦ ih fun other hother ↦ h other (by simp [hother])

end Confined

/-! ### The elementary stages -/

section Elementary

variable {α : Type} {allowed : Failure → Prop} {size : Nat} {post : α → Prop}

theorem confined_throw {failure : Failure} (h : allowed failure) :
    (throw failure : Stage α).Confined allowed size post :=
  fun _ _ ↦ h

/-- A condition under which a stage fails. -/
theorem confined_guard {condition : Prop} [Decidable condition] {failing : Stage PUnit}
    {next : PUnit → Stage α} (hfailing : failing.Confined allowed size fun _ ↦ False)
    (h : ¬ condition → (next ⟨⟩).Confined allowed size post) :
    (if condition then failing >>= next else next ⟨⟩).Confined allowed size post := by
  by_cases hcondition : condition
  · rw [if_pos hcondition]
    exact hfailing.bind fun _ hfalse ↦ hfalse.elim
  · rw [if_neg hcondition]
    exact h hcondition

theorem confined_get : (get : Stage Workspace).Confined allowed size fun workspace ↦
    workspace.band.size = size :=
  fun _ hworkspace ↦ ⟨hworkspace, hworkspace⟩

theorem confined_modify {f : Workspace → Workspace}
    (h : ∀ workspace, workspace.band.size = size → (f workspace).band.size = size) :
    (modify f : Stage Unit).Confined allowed size fun _ ↦ True :=
  fun workspace hworkspace ↦ ⟨h workspace hworkspace, trivial⟩

theorem confined_ofExcept {result : Except Failure α}
    (hfailure : ∀ failure, result = .error failure → allowed failure)
    (hpost : ∀ value, result = .ok value → post value) :
    (ofExcept result : Stage α).Confined allowed size post := by
  cases result with
  | ok value => exact Confined.pure (hpost value rfl)
  | error failure => exact confined_throw (hfailure failure rfl)

section Panics

variable (hpanic : allowed .panicked)
include hpanic

theorem confined_mayPanic {result : Except Failure α} (h : MayPanic result post) :
    (ofExcept result : Stage α).Confined allowed size post := by
  rcases h with rfl | ⟨value, rfl, hvalue⟩
  · exact confined_throw hpanic
  · exact Confined.pure hvalue

/-- A count is computed as it is if it is exact, and it never comes out greater. -/
theorem confined_word (request : Request) (count : Nat) :
    (Stage.word request count).Confined allowed size fun result ↦
      result ≤ count ∧ (request.arithmetic.Exact count → result = count) :=
  confined_mayPanic hpanic ((Arithmetic.mayPanic_word _ _).refine fun _ hresult ↦
    ⟨Arithmetic.word_le hresult, fun hexact ↦ (hexact.word_eq_ok.mp hresult).1⟩)

theorem confined_firstElements (buffer : Array Single) (count : Nat) :
    (firstElements buffer count).Confined allowed size fun first ↦ first.size = count := by
  by_cases h : count ≤ buffer.size
  · rw [firstElements_eq h]
    refine Confined.pure ?_
    rw [Array.size_extract, Nat.min_eq_left h, Nat.sub_zero]
  · rw [firstElements, if_neg h]
    exact confined_throw hpanic

end Panics

/-- A kernel whose call is bounded does not fail. -/
theorem confined_callKernel {kernel : Kernel} {call : MicroCall} {output : Array Single}
    (htakes : kernel.Takes call.width) (hbounds : call.Bounded kernel.rows output.size) :
    (callKernel kernel call output).Confined allowed size
      fun result ↦ result.size = output.size := by
  rw [callKernel, Kernel.run_eq kernel htakes hbounds]
  exact Confined.pure Array.size_mapIdx

end Elementary

end Stage

theorem Request.mayPanic_readLeft (request : Request) (row depth : Nat) :
    MayPanic (request.readLeft row depth) fun _ ↦ True :=
  (Arithmetic.mayPanic_word _ _).bind fun _ _ ↦ (mayPanic_orPanic _).refine fun _ _ ↦ trivial

namespace Engine

open Stage

variable {request : Request} {tile : Tile} {kernel : Kernel} {start depth size : Nat}

/-- What a tile needs is counted exactly: the elements of the output, of the strip, and of the
staging area if all column blocks are staged. -/
@[mk_iff]
structure CountsTile (request : Request) (tile : Tile) : Prop where
  needed : request.arithmetic.Exact (needed request 0 tile)
  strip : request.arithmetic.Exact (stripDepth request * tile.kernelRows)
  staging : request.arithmetic.Exact (tile.kernelRows * request.panel.shape.paddedColumns)

instance (request : Request) (tile : Tile) : Decidable (CountsTile request tile) :=
  decidable_of_iff _ (countsTile_iff request tile).symm

/-- Checked arithmetic counts exactly. -/
theorem countsTile_of_checked (h : request.arithmetic = .checked) (tile : Tile) :
    CountsTile request tile :=
  ⟨.inl h, .inl h, .inl h⟩

/-! ### Packing -/

/-- A strip that is packed has an element for every depth and every row of its kernel. -/
theorem mayPanic_packedStrip (request : Request) (tile : Tile) (start depth : Nat) :
    MayPanic (packedStrip request tile start depth) fun strip ↦
      strip.size = depth * tile.kernelRows := by
  have hvalues : MayPanic ((List.range (depth * tile.kernelRows)).mapM fun position ↦
      stripElement request tile start (position / tile.kernelRows) (position % tile.kernelRows))
      fun _ ↦ True := by
    refine mayPanic_mapM fun position _ ↦ ?_
    unfold stripElement
    split_ifs
    · exact (request.mayPanic_readLeft _ _).map _
    · exact mayPanic_ok trivial
  refine (hvalues.map _).refine fun strip hstrip ↦ ?_
  obtain ⟨values, hvalues, rfl⟩ := map_eq_ok.mp hstrip
  rw [List.size_toArray, length_of_mapM hvalues, List.length_range]

/-- A strip is packed as long as the kernel reads it. -/
theorem packStrip_confined (hexact : request.arithmetic.Exact (depth * tile.kernelRows)) :
    (packStrip request tile start depth).Confined Failure.IsPanic size
      fun strip ↦ strip.size = depth * tile.kernelRows := by
  refine (confined_word Failure.isPanic_panicked request _).bind fun count hcount ↦ ?_
  rw [hcount.2 hexact]
  refine confined_get.bind fun workspace _ ↦
    (confined_firstElements Failure.isPanic_panicked _ _).bind fun old hold ↦ ?_
  refine (confined_mayPanic Failure.isPanic_panicked (mayPanic_packedStrip _ _ _ _)).bind
    fun packed hpacked ↦ ?_
  have hle : packed.size ≤ old.size := by
    rw [hpacked, hold]
    exact Nat.div_mul_le_self _ _
  have hdone : (Pure.pure (withFirst old packed) : Stage (Array Single)).Confined Failure.IsPanic
      size fun strip ↦ strip.size = depth * tile.kernelRows :=
    .pure ((size_withFirst hle).trans hold)
  exact (confined_modify fun _ hworkspace ↦ hworkspace).bind fun _ _ ↦ hdone

/-! ### Kernel calls and merging -/

variable {left right : Array Single} {beta : Single} {origin blocks width : Nat}

theorem stageBlocks_confined (htakes : kernel.Takes width) (hrows : kernel.rows = tile.kernelRows)
    (hleft : depth * tile.kernelRows ≤ left.size)
    (hright : blocks * (depth * width) ≤ right.size)
    (hexact : request.arithmetic.Exact (tile.kernelRows * (blocks * width))) :
    (stageBlocks request kernel tile depth left right blocks width (blocks * width)).Confined
      Failure.IsPanic size fun _ ↦ True := by
  refine (confined_word Failure.isPanic_panicked request _).bind fun count hcount ↦ ?_
  rw [hcount.2 hexact]
  refine confined_get.bind fun workspace _ ↦
    (confined_firstElements Failure.isPanic_panicked _ _).bind fun area harea ↦ ?_
  have hbounds : (stagingCall depth left right blocks width).Bounded kernel.rows area.size := by
    rw [harea, ← hrows]
    rw [← hrows] at hleft
    exact bounded_stagingCall hleft hright
  refine (confined_callKernel htakes hbounds).bind fun staged _ ↦ ?_
  exact Confined.bind (confined_modify fun _ hworkspace ↦ hworkspace) fun _ _ ↦
    Confined.pure trivial

theorem computeBlocks_confined (htakes : kernel.Takes width)
    (hbounds : (directCall request beta origin depth left right blocks width).Bounded kernel.rows
      size) :
    (computeBlocks kernel request beta origin depth left right blocks width).Confined
      Failure.IsPanic size
      fun _ ↦ True := by
  refine confined_get.bind fun workspace hworkspace ↦ ?_
  rw [← hworkspace] at hbounds
  refine (confined_callKernel htakes hbounds).bind fun band hband ↦ ?_
  exact confined_modify fun _ _ ↦ hband.trans hworkspace

theorem mergeRow_confined (first stop : Nat) (staged : Array Single) (stagedStride i : Nat) :
    (mergeRow request beta origin first stop staged stagedStride i).Confined Failure.IsPanic size
      fun _ ↦ True := by
  refine (confined_word Failure.isPanic_panicked request _).bind fun position _ ↦ ?_
  refine (confined_word Failure.isPanic_panicked request _).bind fun last _ ↦ ?_
  refine confined_get.bind fun workspace _ ↦ ?_
  refine confined_guard (confined_throw Failure.isPanic_panicked) fun _ ↦ ?_
  refine (confined_word Failure.isPanic_panicked request _).bind fun offset _ ↦ ?_
  refine confined_guard (confined_throw Failure.isPanic_panicked) fun _ ↦ confined_modify ?_
  intro workspace hworkspace
  rw [mergeElements_eq beta staged _ _ (Nat.le_refl _), Array.size_mapIdx]
  exact hworkspace

theorem merge_confined (first stop : Nat) (staged : Array Single) (stagedStride rows : Nat) :
    (merge request beta origin first stop staged stagedStride rows).Confined Failure.IsPanic size
      fun _ ↦ True :=
  Confined.forM fun i _ ↦ mergeRow_confined first stop staged stagedStride i

/-! ### Tiles -/

/-- What keeps the calls of a tile inside their buffers: its kernel takes the panel and is as tall
as the tile says, the rows of the tile lie in the band, and what the tile needs is counted
exactly. -/
structure Placed (request : Request) (tile : Tile) (kernel : Kernel) (origin size : Nat) :
    Prop where
  columns_pos : 0 < request.n
  stride : request.n ≤ request.outputStride
  takes : kernel.Takes request.panel.width
  height : kernel.rows = tile.kernelRows
  height_pos : 0 < tile.kernelRows
  rows_pos : 0 < tile.rows
  counts : CountsTile request tile
  band : origin + ((tile.rows - 1) * request.outputStride + request.n) ≤ size

/-- The padded width of a panel is counted exactly. -/
theorem Placed.exact_paddedColumns (h : Placed request tile kernel origin size) :
    request.arithmetic.Exact request.panel.shape.paddedColumns :=
  h.counts.staging.mono (Nat.le_mul_of_pos_left _ h.height_pos)

section Pass

variable (h : Placed request tile kernel origin size)
  (hright : request.panel.shape.columnBlocks * (depth * request.panel.width) ≤ right.size)
  (hleft : left.size = depth * tile.kernelRows)
include h hright hleft

theorem runMasked_confined :
    (runMasked request ⟨kernel, tile, origin, beta, depth, left, right⟩).Confined
      Failure.IsPanic size
      fun _ ↦ True := by
  refine (confined_word Failure.isPanic_panicked request _).bind fun stride hstride ↦ ?_
  rw [hstride.2 h.exact_paddedColumns]
  refine (stageBlocks_confined h.takes h.height (Nat.le_of_eq hleft.symm) hright
    h.counts.staging).bind fun staged _ ↦ ?_
  exact (merge_confined _ _ _ _ _).bind fun _ _ ↦ .pure trivial

theorem runFull_confined (hfull : tile.kernelRows ≤ tile.rows) :
    (runFull request ⟨kernel, tile, origin, beta, depth, left, right⟩).Confined Failure.IsPanic size
      fun _ ↦ True := by
  by_cases hblocks : 0 < fullBlocks request
  · rw [runFull, if_pos hblocks]
    refine (computeBlocks_confined h.takes ⟨?_, ?_, ?_, fun i hi ↦ ?_⟩).bind
      fun _ _ ↦ .pure trivial
    · rw [h.height]
      exact Nat.le_of_eq hleft.symm
    · exact Nat.le_trans (Nat.mul_le_mul_right _ (fullBlocks_le request)) hright
    · exact Nat.le_trans (fullBlocks_mul_le request) h.stride
    · -- The last row of the kernel is no lower than the last row of the tile, which was checked.
      have hrow : i * request.outputStride ≤ (tile.rows - 1) * request.outputStride := by
        have hheight := h.height
        exact Nat.mul_le_mul_right _ (by omega)
      have hcolumns := fullBlocks_mul_le request
      have hband := h.band
      change origin + (i * request.outputStride + fullBlocks request * request.panel.width) ≤ size
      omega
  · rw [runFull, if_neg hblocks]
    exact .pure trivial

theorem runRagged_confined :
    (runRagged request ⟨kernel, tile, origin, beta, depth, left, right⟩).Confined
      Failure.IsPanic size
      fun _ ↦ True := by
  by_cases hragged : fullBlocks request < request.panel.shape.columnBlocks
  · rw [runRagged, if_pos hragged]
    refine (confined_word Failure.isPanic_panicked request _).bind fun first hfirst ↦
      confined_guard (confined_throw Failure.isPanic_panicked) fun _ ↦ ?_
    -- A count that came out too small leaves more of the storage to the last column block.
    have hlast : 1 * (depth * request.panel.width) ≤ (right.extract first).size := by
      have hblocks := Nat.mul_le_mul_right (depth * request.panel.width)
        (Nat.succ_le_of_lt hragged)
      have hstart : first ≤ fullBlocks request * (depth * request.panel.width) :=
        Nat.mul_assoc _ _ _ ▸ hfirst.1
      rw [Nat.succ_mul] at hblocks
      rw [Array.size_extract, Nat.min_self, Nat.one_mul]
      omega
    have hwidth : 1 * request.panel.width ≤ request.panel.shape.paddedColumns :=
      Nat.mul_le_mul_right _ (Nat.zero_lt_of_lt hragged)
    have hstaged : (stageBlocks request kernel tile depth left (right.extract first) 1
        request.panel.width (1 * request.panel.width)).Confined Failure.IsPanic size
          fun _ ↦ True :=
      stageBlocks_confined h.takes h.height (Nat.le_of_eq hleft.symm) hlast
        (h.counts.staging.mono (Nat.mul_le_mul_left _ hwidth))
    rw [Nat.one_mul] at hstaged
    exact hstaged.bind fun staged _ ↦ (merge_confined _ _ _ _ _).bind fun _ _ ↦ .pure trivial
  · rw [runRagged, if_neg hragged]
    exact .pure trivial

/-- The pass of a tile in a K-block with a strip of the right size. -/
theorem runPass_confined :
    (runPass request ⟨kernel, tile, origin, beta, depth, left, right⟩).Confined Failure.IsPanic size
      fun _ ↦ True := by
  unfold runPass
  cases hmasked : tile.isMasked with
  | true => exact runMasked_confined h hright hleft
  | false =>
    have hfull : tile.kernelRows ≤ tile.rows := Nat.le_of_not_lt (of_decide_eq_false hmasked)
    refine (runFull_confined h hright hleft hfull).bind fun _ _ ↦ ?_
    exact (runRagged_confined h hright hleft).bind fun _ _ ↦ .pure trivial

end Pass

theorem runBlock_confined (h : Placed request tile kernel origin size) (start : Nat) :
    (runBlock request kernel tile origin start).Confined Failure.IsPanic size fun _ ↦ True := by
  refine (confined_mayPanic Failure.isPanic_panicked ((Panel.mayPanic_readBlock _ _ _).refine
    fun right ↦ Panel.size_readBlock_le)).bind fun right hread ↦ ?_
  obtain ⟨padded', hpadded', hright⟩ := hread
  rw [(h.exact_paddedColumns.word_eq_ok.mp hpadded').1] at hright
  refine (confined_word Failure.isPanic_panicked request _).bind fun padded hpadded ↦ ?_
  rw [hpadded.2 h.exact_paddedColumns]
  refine confined_guard (confined_throw Failure.isPanic_panicked) fun _ ↦ ?_
  have hdepth : right.size / request.panel.shape.paddedColumns ≤ stripDepth request :=
    Nat.le_trans (Nat.div_le_of_le_mul (Nat.mul_comm _ _ ▸ hright))
      PanelShape.blockDepth_le_stripDepth
  refine (packStrip_confined (h.counts.strip.mono (Nat.mul_le_mul_right _ hdepth))).bind
    fun left hleft ↦ runPass_confined h ?_ hleft
  -- The storage holds as many rows of all column blocks as it has room for.
  rw [Nat.mul_left_comm]
  exact Nat.div_mul_le_self _ _

/-- A tile that is placed has rows, and they lie in the band. -/
theorem placeTile_confined (hcounts : CountsTile request tile) (firstRow : Nat) :
    (placeTile request firstRow tile).Confined Failure.IsTame size fun origin ↦ 0 < tile.rows ∧
      origin + ((tile.rows - 1) * request.outputStride + request.n) ≤ size := by
  have hmisplaced : ∀ fault,
      (misplaced tile fault : Stage PUnit).Confined Failure.IsTame size fun _ ↦ False :=
    fun _ ↦ confined_throw nofun
  unfold placeTile
  refine confined_guard (hmisplaced _) fun _ ↦ ?_
  refine confined_guard (hmisplaced _) fun hrows ↦ ?_
  refine (confined_word Failure.isTame_panicked request _).bind fun count hcount ↦ ?_
  rw [hcount.2 (hcounts.needed.mono needed_le_needed_zero)]
  refine confined_get.bind fun workspace hworkspace ↦ ?_
  refine confined_guard (hmisplaced _) fun hband ↦ ?_
  refine (confined_word Failure.isTame_panicked request _).bind fun origin horigin ↦ ?_
  refine confined_guard (confined_throw nofun) fun _ ↦ ?_
  have hpos : 1 ≤ tile.rows := Nat.pos_of_ne_zero hrows
  have hle := horigin.1
  refine .pure ⟨hpos, ?_⟩
  rw [hworkspace, Nat.add_sub_assoc hpos, Nat.add_mul] at hband
  omega

variable {engine : Engine}

/-- A kernel that is found is the one of its level and height. -/
theorem kernel_of_check {rows : Nat}
    (h : Refusal.check (engine.family.kernel rows) = .ok kernel) :
    kernel = Kernel.ofLevel engine.level rows ∧ engine.family.table.holds rows = true := by
  rw [Family.kernel, KernelTable.kernel] at h
  split_ifs at h with hholds
  · exact ⟨(Except.ok.inj h).symm, hholds⟩
  · exact nomatch h

/-- A tile stays inside its buffers if what it needs is counted exactly, as far as it has a
kernel. -/
theorem runTile_confined (hcolumns : 0 < request.n) (hstride : request.n ≤ request.outputStride)
    (hwidth : engine.family.accepts request.panel.width = true) (firstRow : Nat) {tile : Tile}
    (hcounts : engine.family.table.holds tile.kernelRows = true → CountsTile request tile) :
    (runTile engine request firstRow tile).Confined Failure.IsTame size fun _ ↦ True := by
  refine Confined.bind (confined_ofExcept
    (fun failure hfailure hwild ↦ Refusal.check_ne_wild _ (hwild ▸ hfailure))
    fun kernel hkernel ↦ kernel_of_check hkernel) fun kernel hkernel ↦ ?_
  obtain ⟨hkernel, hholds⟩ := hkernel
  refine (placeTile_confined (hcounts hholds) firstRow).bind fun origin horigin ↦ ?_
  have hplaced : Placed request tile kernel origin size := by
    refine ⟨hcolumns, hstride, ?_, ?_, KernelTable.pos_of_holds hholds, horigin.1, hcounts hholds,
      horigin.2⟩
    · rw [hkernel]
      exact takes_ofLevel hwidth _
    · rw [hkernel]
      exact rows_ofLevel _ _
  refine Confined.foldlM (fun start _ calls ↦ ?_) 0
  exact ((runBlock_confined hplaced start).allow fun _ ↦ Failure.IsPanic.isTame).bind
    fun _ _ ↦ .pure trivial

theorem mayPanic_rowBuffer (engine : Engine) (request : Request) (tiles : List Tile)
    (columns : Nat) : MayPanic (rowBuffer engine request tiles columns) fun _ ↦ True :=
  (Arithmetic.mayPanic_word _ _).bind fun _ _ ↦ (Capacity.mayPanic_reserve _ _).bind
    fun _ _ ↦ mayPanic_ok trivial

theorem mayPanic_workspace (engine : Engine) (request : Request) (tiles : List Tile)
    (band : Array Single) : MayPanic (workspace engine request tiles band) fun _ ↦ True :=
  (mayPanic_rowBuffer _ _ _ _).bind fun _ _ ↦ (Arithmetic.mayPanic_word _ _).bind fun _ _ ↦
    (mayPanic_rowBuffer _ _ _ _).bind fun _ _ ↦ mayPanic_ok trivial

theorem band_of_workspace {band : Array Single} {tiles : List Tile} {buffers : Workspace}
    (h : workspace engine request tiles band = .ok buffers) : buffers.band = band := by
  obtain ⟨_, -, h⟩ := bind_eq_ok.mp h
  obtain ⟨_, -, h⟩ := bind_eq_ok.mp h
  obtain ⟨_, -, h⟩ := bind_eq_ok.mp h
  rw [← Except.ok.inj h]

/-- A span stays inside its buffers, whatever its tiles are, if what they need is counted exactly,
as far as they have kernels. -/
theorem runSpan_ne_wild (hcolumns : 0 < request.n) (hstride : request.n ≤ request.outputStride)
    (hwidth : engine.family.accepts request.panel.width = true) (band : Array Single)
    {tiles : List Tile}
    (hcounts : ∀ tile ∈ tiles, engine.family.table.holds tile.kernelRows = true →
      CountsTile request tile) (firstRow : Nat) :
    (runSpan engine request band tiles firstRow).result ≠ .error .wild := by
  have htiles : (runTiles engine request firstRow tiles).Confined Failure.IsTame band.size
      fun _ ↦ True :=
    Confined.foldlM (fun tile htile calls ↦
      (runTile_confined hcolumns hstride hwidth firstRow (hcounts tile htile)).bind
        fun _ _ ↦ .pure trivial) 0
  unfold runSpan
  cases hworkspace : workspace engine request tiles band with
  | error failure =>
    exact error_ne_error (mayPanic_workspace engine request tiles band).ne_wild hworkspace
  | ok buffers =>
    have hrun := htiles buffers (congrArg Array.size (band_of_workspace hworkspace))
    dsimp only
    cases hresult : (runTiles engine request firstRow tiles).run buffers with
    | ok calls last => exact nofun
    | error failure last =>
      rw [hresult] at hrun
      exact fun hwild ↦ hrun (Except.error.inj hwild)

end Engine

end PanelGemm
