import PanelGemm.Proofs.Engine.Confined

/-!
# Tiles that overreach

A family may list tiles whose rows the left operand does not have. The rows of a tile are read as
far as its kernel is tall (`Tile.ReadsWithin`), and if the operand lacks one of them, then some
K-block of the tile cannot be packed. The blocks before it may be computed with elements from
elsewhere, but whatever goes wrong with them is a panic too, as long as what the tile needs is
counted exactly (`Engine.runBlock_confined`). Unless the tile is refused before, it therefore
panics, wherever the missing elements would have been (`Engine.runTile_endsAlike_overreach`).
-/

set_option autoImplicit false
set_option relaxedAutoImplicit false

namespace PanelGemm

/-- The rows of a tile that its kernel computes are among the first rows of an operand. -/
def Tile.ReadsWithin (tile : Tile) (rows : Nat) : Prop :=
  ∀ i < tile.rows, i < tile.kernelRows → tile.row + i < rows

namespace Stage

variable {α β ι : Type} {action other : Stage α} {next next' : α → Stage β} {workspace : Workspace}

/-! ### Stages without a value -/

/-- A stage that never ends with a value. -/
def Fruitless (action : Stage α) : Prop :=
  ∀ workspace value last, action.run workspace ≠ .ok value last

theorem Fruitless.bind (h : action.Fruitless) : (action >>= next).Fruitless := by
  intro workspace result last
  rw [run_bind]
  cases haction : action.run workspace with
  | ok value middle => exact absurd haction (h workspace value middle)
  | error failure middle => exact nofun

theorem fruitless_bind (h : ∀ value, (next value).Fruitless) : (action >>= next).Fruitless := by
  intro workspace result last
  rw [run_bind]
  cases action.run workspace with
  | ok value middle => exact h value middle result last
  | error failure middle => exact nofun

/-- What comes after a computation only matters where that has a value. -/
theorem fruitless_ofExcept_bind {result : Except Failure α}
    (h : ∀ value, result = .ok value → (next value).Fruitless) :
    (ofExcept result >>= next : Stage β).Fruitless := by
  cases result with
  | ok value => exact h value rfl
  | error failure =>
    intro workspace value last hlast
    cases hlast

/-- A loop does not come to its end if one of its rounds does not. -/
theorem fruitless_foldlM {items : List ι} {item : ι} {step : β → ι → Stage β} (hitem : item ∈ items)
    (h : ∀ value, (step value item).Fruitless) (value : β) :
    (items.foldlM step value).Fruitless := by
  induction items generalizing value with
  | nil => exact absurd hitem List.not_mem_nil
  | cons first items ih =>
    rw [List.foldlM_cons]
    rcases List.mem_cons.mp hitem with rfl | hitem
    · exact (h value).bind
    · exact fruitless_bind fun next ↦ ih hitem next

/-- What is left to a stage without a value that fails by a panic only. -/
theorem Fruitless.panics {size : Nat} {post : α → Prop} (h : action.Fruitless)
    (hconfined : action.Confined Failure.IsPanic size post) (hsize : workspace.band.size = size) :
    ∃ last, action.run workspace = .error .panicked last := by
  have hrun := hconfined workspace hsize
  cases haction : action.run workspace with
  | ok value last => exact absurd haction (h workspace value last)
  | error failure last =>
    rw [haction] at hrun
    exact ⟨last, congrArg (EStateM.Result.error · last) hrun⟩

/-! ### Stages that end alike -/

/-- Two stages that do the same, or fail in the same way. -/
def EndsAlike (action other : Stage α) : Prop :=
  ∀ workspace, action.run workspace = other.run workspace ∨
    ∃ failure last last', action.run workspace = .error failure last ∧
      other.run workspace = .error failure last'

theorem EndsAlike.bind (h : EndsAlike action other)
    (hnext : ∀ value, EndsAlike (next value) (next' value)) :
    EndsAlike (action >>= next) (other >>= next') := by
  intro workspace
  rw [run_bind, run_bind]
  rcases h workspace with hsame | ⟨failure, last, last', hlast, hlast'⟩
  · rw [hsame]
    cases other.run workspace with
    | ok value middle => exact hnext value middle
    | error failure middle => exact .inl rfl
  · rw [hlast, hlast']
    exact .inr ⟨failure, last, last', rfl, rfl⟩

theorem EndsAlike.symm (h : EndsAlike action other) : EndsAlike other action := by
  intro workspace
  rcases h workspace with hsame | ⟨failure, last, last', hlast, hlast'⟩
  · exact .inl hsame.symm
  · exact .inr ⟨failure, last', last, hlast', hlast⟩

theorem EndsAlike.trans {third : Stage α} (h : EndsAlike action other)
    (h' : EndsAlike other third) : EndsAlike action third := by
  intro workspace
  rcases h workspace with hsame | ⟨failure, last, last', hlast, hlast'⟩
  · rw [hsame]
    exact h' workspace
  · rcases h' workspace with hsame | ⟨failure', middle, middle', hmiddle, hmiddle'⟩
    · exact .inr ⟨failure, last, last', hlast, hsame ▸ hlast'⟩
    · cases hlast'.symm.trans hmiddle
      exact .inr ⟨failure, last, middle', hlast, hmiddle'⟩

theorem endsAlike_refl (action : Stage α) : EndsAlike action action :=
  fun _ ↦ .inl rfl

theorem endsAlike_foldlM {items : List ι} {step step' : β → ι → Stage β}
    (h : ∀ item ∈ items, ∀ value, EndsAlike (step value item) (step' value item)) (value : β) :
    EndsAlike (items.foldlM step value) (items.foldlM step' value) := by
  induction items generalizing value with
  | nil => exact endsAlike_refl _
  | cons item items ih =>
    rw [List.foldlM_cons, List.foldlM_cons]
    exact (h item (by simp) value).bind fun next ↦
      ih (fun other hother ↦ h other (by simp [hother])) next

end Stage

namespace Engine

open Stage

variable {engine : Engine} {request : Request} {tile : Tile} {kernel : Kernel}
  {start depth origin i : Nat}

/-! ### A missing element -/

/-- A strip cannot be packed without an element that it reads. -/
theorem packStrip_fruitless (hexact : request.arithmetic.Exact (depth * tile.kernelRows))
    (hrow : i < tile.rows) (hheight : i < tile.kernelRows) {p : Nat} (hp : p < depth)
    (hmissing : request.readLeft (tile.row + i) (start + p) = .error .panicked) :
    (packStrip request tile start depth).Fruitless := by
  obtain ⟨hdiv, hmod⟩ := offset_div_mod hheight p
  have helement : stripElement request tile start ((p * tile.kernelRows + i) / tile.kernelRows)
      ((p * tile.kernelRows + i) % tile.kernelRows) = .error .panicked := by
    rw [hdiv, hmod, stripElement, if_pos hrow, hmissing]
    rfl
  have hpacked : ∀ strip, packedStrip request tile start depth ≠ .ok strip := by
    intro strip hstrip
    rw [packedStrip, map_eq_pure_bind] at hstrip
    obtain ⟨values, hvalues, -⟩ := bind_eq_ok.mp hstrip
    refine mapM_ne_ok (List.mem_range.mpr (offset_lt hp hheight)) (fun value hvalue ↦ ?_) values
      hvalues
    rw [helement] at hvalue
    cases hvalue
  rw [← Nat.mul_div_cancel depth (Nat.zero_lt_of_lt hheight)] at hpacked
  refine fruitless_ofExcept_bind fun count hcount ↦ ?_
  obtain ⟨rfl, -⟩ := hexact.word_eq_ok.mp hcount
  refine fruitless_bind fun workspace ↦ fruitless_bind fun old ↦ fruitless_ofExcept_bind
    fun strip hstrip ↦ absurd hstrip (hpacked strip)

/-- The K-blocks of a tile, one after another, and the number of their kernel calls. -/
def runBlocks (request : Request) (kernel : Kernel) (tile : Tile) (origin : Nat) : Stage Nat :=
  request.panel.shape.blockStarts.foldlM (fun calls start ↦ do
    return calls + (← runBlock request kernel tile origin start)) 0

theorem runBlocks_confined {size : Nat} (h : Placed request tile kernel origin size) :
    (runBlocks request kernel tile origin).Confined Failure.IsPanic size fun _ ↦ True :=
  Confined.foldlM (fun start _ _ ↦
    (runBlock_confined h start).bind fun _ _ ↦ .pure trivial) 0

/-- A tile with a row that the left operand lacks at some depth panics in the K-block of that
depth, if not before. -/
theorem runBlocks_panics {size p : Nat} (h : Placed request tile kernel origin size)
    (hwhole : request.panel.Whole) (hrow : i < tile.rows) (hheight : i < tile.kernelRows)
    (hp : p < request.k) (hmissing : request.readLeft (tile.row + i) p = .error .panicked)
    {workspace : Workspace} (hsize : workspace.band.size = size) :
    ∃ last, (runBlocks request kernel tile origin).run workspace = .error .panicked last := by
  obtain ⟨start, hstart, hle, hlt⟩ := PanelShape.exists_block hp
  have hcolumns := request.panel.shape.paddedColumns_pos h.columns_pos
  have hexact : request.arithmetic.Exact
      (request.panel.shape.blockDepth start * tile.kernelRows) :=
    h.counts.strip.mono (Nat.mul_le_mul_right _ PanelShape.blockDepth_le_stripDepth)
  have hblock : (runBlock request kernel tile origin start).Fruitless := by
    rw [← Nat.add_sub_of_le hle] at hmissing
    rw [runBlock_eq hwhole hcolumns hstart]
    exact (packStrip_fruitless hexact hrow hheight (by omega) hmissing).bind
  have hblocks : (runBlocks request kernel tile origin).Fruitless :=
    fruitless_foldlM hstart (fun calls ↦ hblock.bind) 0
  exact hblocks.panics (runBlocks_confined h) hsize

/-- The checks of a tile, and a panic if it passes them. -/
def overreach (engine : Engine) (request : Request) (firstRow : Nat) (tile : Tile) : Stage Nat := do
  let _ ← ofExcept (Refusal.check (engine.family.kernel tile.kernelRows))
  let _ ← placeTile request firstRow tile
  throw .panicked

/-- A tile with a row that the left operand lacks at some depth panics if it passes its checks. -/
theorem runTile_endsAlike_overreach (hcolumns : 0 < request.n)
    (hstride : request.n ≤ request.outputStride)
    (hwidth : engine.family.accepts request.panel.width = true)
    (hcounts : engine.family.table.holds tile.kernelRows = true → CountsTile request tile)
    (hwhole : request.panel.Whole) (hrow : i < tile.rows) (hheight : i < tile.kernelRows) {p : Nat}
    (hp : p < request.k) (hmissing : request.readLeft (tile.row + i) p = .error .panicked)
    (firstRow : Nat) :
    EndsAlike (engine.runTile request firstRow tile) (engine.overreach request firstRow tile) := by
  unfold runTile overreach
  cases hkernel : Refusal.check (engine.family.kernel tile.kernelRows) with
  | error failure => exact fun _ ↦ .inl rfl
  | ok kernel =>
    obtain ⟨hlevel, hholds⟩ := kernel_of_check hkernel
    change EndsAlike (placeTile request firstRow tile >>= runBlocks request kernel tile)
      (placeTile request firstRow tile >>= fun _ ↦ throw .panicked)
    intro workspace
    rw [run_bind, run_bind]
    have hend := placeTile_confined (hcounts hholds) firstRow workspace rfl
    cases hrun : (placeTile request firstRow tile).run workspace with
    | error failure middle => exact .inl rfl
    | ok origin middle =>
      rw [hrun] at hend
      obtain ⟨hsize, hpos, hband⟩ := hend
      have hplaced : Placed request tile kernel origin workspace.band.size := by
        refine ⟨hcolumns, hstride, ?_, ?_, KernelTable.pos_of_holds hholds, hpos, hcounts hholds,
          hband⟩
        · rw [hlevel]
          exact takes_ofLevel hwidth _
        · rw [hlevel]
          exact rows_ofLevel _ _
      obtain ⟨last, hlast⟩ := runBlocks_panics hplaced hwhole hrow hheight hp hmissing hsize
      exact .inr ⟨.panicked, last, middle, hlast, rfl⟩

end Engine

end PanelGemm
