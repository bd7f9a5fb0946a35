import PanelGemm.Proofs.Engine.Confined

/-!
# Tiles in their place

A tile is refused for its place if it lies before its band, has no rows, or reaches beyond the band
(`Engine.placeTile`). If a band holds the rows of all tiles of a span, the span ends without such a
refusal (`Engine.runSpan_places`): every tile passes its checks, and whatever becomes of its
K-blocks, nothing in them is refused and the band is as long for the next tile. What may be left is
a missing kernel, a panic, or a wild access.
-/

set_option autoImplicit false
set_option relaxedAutoImplicit false

namespace PanelGemm

/-- A failure that refuses no tile for its place. -/
def Failure.Places (failure : Failure) : Prop :=
  ∀ row rows fault, failure ≠ .refused (.misplacedTile row rows fault)

theorem Failure.places_panicked : Places .panicked := fun _ _ _ ↦ nofun

namespace Engine

open Stage

variable {engine : Engine} {request : Request} {kernel : Kernel} {tile : Tile} {tiles : List Tile}
  {origin start firstRow size : Nat} {beta : Single} {left right : Array Single}

/-! ### K-blocks, whatever becomes of them -/

/-- A kernel that does not go wild keeps the length of its output. -/
theorem callKernel_places (kernel : Kernel) (call : MicroCall) (output : Array Single) :
    (callKernel kernel call output).Confined Failure.Places size
      fun result ↦ result.size = output.size := by
  unfold callKernel
  cases hrun : kernel.run call output with
  | some result => exact .pure (kernel.size_of_run hrun)
  | none => exact confined_throw fun _ _ _ ↦ nofun

theorem packStrip_places (depth : Nat) :
    (packStrip request tile start depth).Confined Failure.Places size fun _ ↦ True := by
  refine (confined_word Failure.places_panicked request _).bind fun count _ ↦ confined_get.bind
    fun workspace _ ↦ (confined_firstElements Failure.places_panicked _ _).bind fun old _ ↦ ?_
  refine (confined_mayPanic Failure.places_panicked (mayPanic_packedStrip _ _ _ _)).bind
    fun packed _ ↦ Confined.bind (confined_modify fun _ hworkspace ↦ hworkspace) fun _ _ ↦ ?_
  exact .pure trivial

theorem stageBlocks_places (depth blocks width stride : Nat) :
    (stageBlocks request kernel tile depth left right blocks width stride).Confined
      Failure.Places size fun _ ↦ True := by
  refine (confined_word Failure.places_panicked request _).bind fun count _ ↦ confined_get.bind
    fun workspace _ ↦ (confined_firstElements Failure.places_panicked _ _).bind fun area _ ↦ ?_
  exact (callKernel_places _ _ _).bind fun _ _ ↦
    Confined.bind (confined_modify fun _ hworkspace ↦ hworkspace) fun _ _ ↦ .pure trivial

theorem computeBlocks_places (depth blocks width : Nat) :
    (computeBlocks kernel request beta origin depth left right blocks width).Confined
      Failure.Places size fun _ ↦ True := by
  refine confined_get.bind fun workspace hworkspace ↦
    (callKernel_places _ _ _).bind fun band hband ↦ ?_
  exact confined_modify fun _ _ ↦ hband.trans hworkspace

theorem runPass_places (pass : Pass) :
    (runPass request pass).Confined Failure.Places size fun _ ↦ True := by
  have hmerge : ∀ first stop staged stride, (merge request pass.beta pass.origin first stop staged
      stride pass.tile.rows).Confined Failure.Places size fun _ ↦ True := by
    intro first stop staged stride
    exact (merge_confined _ _ _ _ _).allow fun _ hpanics _ _ _ ↦ hpanics ▸ nofun
  have hfull : (runFull request pass).Confined Failure.Places size fun _ ↦ True := by
    unfold runFull
    split_ifs
    · exact (computeBlocks_places _ _ _).bind fun _ _ ↦ .pure trivial
    · exact .pure trivial
  have hragged : (runRagged request pass).Confined Failure.Places size fun _ ↦ True := by
    by_cases hragged : fullBlocks request < request.panel.shape.columnBlocks
    · rw [runRagged, if_pos hragged]
      refine (confined_word Failure.places_panicked request _).bind fun first _ ↦
        confined_guard (confined_throw Failure.places_panicked) fun _ ↦ ?_
      exact (stageBlocks_places _ _ _ _).bind fun staged _ ↦
        (hmerge _ _ staged _).bind fun _ _ ↦ .pure trivial
    · rw [runRagged, if_neg hragged]
      exact .pure trivial
  unfold runPass
  split_ifs
  · refine (confined_word Failure.places_panicked request _).bind fun stride _ ↦ ?_
    exact (stageBlocks_places _ _ _ _).bind fun staged _ ↦
      (hmerge _ _ staged _).bind fun _ _ ↦ .pure trivial
  · exact hfull.bind fun _ _ ↦ hragged.bind fun _ _ ↦ .pure trivial

theorem runBlock_places :
    (runBlock request kernel tile origin start).Confined Failure.Places size fun _ ↦ True := by
  refine (confined_mayPanic Failure.places_panicked (Panel.mayPanic_readBlock _ _ _)).bind
    fun right _ ↦ (confined_word Failure.places_panicked request _).bind fun padded _ ↦ ?_
  refine confined_guard (confined_throw Failure.places_panicked) fun _ ↦ ?_
  exact (packStrip_places _).bind fun left _ ↦ runPass_places _

/-! ### Tiles that their band holds -/

/-- What a tile needs of a band, by its last row. -/
theorem needed_eq (hfirst : firstRow ≤ tile.row) : needed request firstRow tile =
    (tile.stop - 1 - firstRow) * request.outputStride + request.n := by
  unfold needed Tile.stop
  congr 2
  omega

/-- A tile with rows that the band holds passes all checks of its place. -/
theorem placeTile_run {workspace : Workspace} (hlimit : workspace.band.size < Word.limit)
    (hfirst : firstRow ≤ tile.row) (hrows : 0 < tile.rows)
    (hneeded : needed request firstRow tile ≤ workspace.band.size) :
    (placeTile request firstRow tile).run workspace =
      .ok ((tile.row - firstRow) * request.outputStride) workspace := by
  have hrow : (tile.row - firstRow) * request.outputStride + 0 * request.outputStride + request.n ≤
      needed request firstRow tile := row_le_needed hrows
  have horigin : (tile.row - firstRow) * request.outputStride ≤ workspace.band.size := by omega
  have hcount : Stage.word request
      ((tile.row - firstRow + tile.rows - 1) * request.outputStride + request.n) =
        pure (needed request firstRow tile) :=
    word_eq (Nat.lt_of_le_of_lt hneeded hlimit)
  have hplace : Stage.word request ((tile.row - firstRow) * request.outputStride) =
      pure ((tile.row - firstRow) * request.outputStride) :=
    word_eq (Nat.lt_of_le_of_lt horigin hlimit)
  simp only [placeTile, if_neg (Nat.not_lt_of_le hfirst), if_neg (Nat.ne_of_gt hrows), hcount,
    pure_bind, get_bind_run, if_neg (Nat.not_lt_of_le hneeded), hplace,
    if_neg (Nat.not_lt_of_le horigin)]
  rfl

theorem runTile_places (hlimit : size < Word.limit) (hfirst : firstRow ≤ tile.row)
    (hrows : 0 < tile.rows) (hneeded : needed request firstRow tile ≤ size) :
    (runTile engine request firstRow tile).Confined Failure.Places size fun _ ↦ True := by
  have hkernel : (ofExcept (Refusal.check (engine.family.kernel tile.kernelRows)) :
      Stage Kernel).Confined Failure.Places size fun _ ↦ True := by
    refine confined_ofExcept (fun failure hfailure row rows fault hmisplaced ↦ ?_) fun _ _ ↦ trivial
    unfold Family.kernel KernelTable.kernel at hfailure
    split_ifs at hfailure
    · cases hfailure
    · cases hmisplaced.symm.trans (Except.error.inj hfailure).symm
  refine hkernel.bind fun kernel _ ↦ ?_
  have hplace : (placeTile request firstRow tile).Confined Failure.Places size fun _ ↦ True := by
    intro workspace hsize
    rw [placeTile_run (hsize ▸ hlimit) hfirst hrows (hsize ▸ hneeded)]
    exact ⟨hsize, trivial⟩
  refine hplace.bind fun origin _ ↦ Confined.foldlM (fun start _ calls ↦ ?_) 0
  exact runBlock_places.bind fun _ _ ↦ .pure trivial

/-- A span whose tiles have rows that the band holds refuses none of them for its place. -/
theorem runSpan_places {band : Array Single} (hlimit : band.size < Word.limit)
    (htiles : ∀ tile ∈ tiles, firstRow ≤ tile.row ∧ 0 < tile.rows ∧
      needed request firstRow tile ≤ band.size) (row rows : Nat) (fault : TileFault) :
    (runSpan engine request band tiles firstRow).result ≠
      .error (.refused (.misplacedTile row rows fault)) := by
  have hplaces : (runTiles engine request firstRow tiles).Confined Failure.Places band.size
      fun _ ↦ True := by
    refine Confined.foldlM (fun tile htile calls ↦ ?_) 0
    obtain ⟨hfirst, hrows, hneeded⟩ := htiles tile htile
    exact (runTile_places hlimit hfirst hrows hneeded).bind fun _ _ ↦ .pure trivial
  unfold runSpan
  cases hworkspace : workspace engine request tiles band with
  | error failure =>
    rcases mayPanic_workspace engine request tiles band with hpanics | ⟨_, hbuffers, -⟩
    · cases hworkspace.symm.trans hpanics
      exact nofun
    · exact nomatch hworkspace.symm.trans hbuffers
  | ok buffers =>
    have hrun := hplaces buffers (congrArg Array.size (band_of_workspace hworkspace))
    dsimp only
    cases hresult : (runTiles engine request firstRow tiles).run buffers with
    | ok calls last => exact nofun
    | error failure last =>
      rw [hresult] at hrun
      exact fun hmisplaced ↦ hrun row rows fault (Except.error.inj hmisplaced)

end Engine

end PanelGemm
