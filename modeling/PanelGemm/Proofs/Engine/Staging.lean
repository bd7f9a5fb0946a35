import PanelGemm.Proofs.Engine.Rewriting
import PanelGemm.Proofs.Failure
import PanelGemm.Proofs.Kernel.Contract

/-!
# Packing, kernel calls and merging

The contracts of the stages that one tile goes through in one K-block. `packStrip` changes nothing
but the strip, `stageBlocks` nothing but the staging area, and what they return does not depend on
what was there before: a strip is packed in full, and a kernel without an old output gives the
products of its operands. `computeBlocks` and `merge` rewrite a window of the band.
-/

set_option autoImplicit false
set_option relaxedAutoImplicit false

namespace PanelGemm

/-- The element of the left operand at a row and a depth. -/
def Request.left? (request : Request) (row depth : Nat) : Option Single :=
  request.left[request.orientation.offset request.leftStride row depth]?

/-- Where a word counts the place of an element, the element is read there. -/
theorem Request.readLeft_of_lt {request : Request} {row depth : Nat}
    (h : request.orientation.offset request.leftStride row depth < Word.limit) :
    request.readLeft row depth = orPanic (request.left? row depth) := by
  rw [readLeft, word, Arithmetic.word_of_lt h, ok_bind]
  rfl

/-- An element of a left operand that a word counts is read as it is. -/
theorem Request.readLeft_eq {request : Request} (hleft : request.left.size < Word.limit)
    {row depth : Nat} {x : Single} (h : request.left? row depth = some x) :
    request.readLeft row depth = .ok x := by
  have hplace : request.orientation.offset request.leftStride row depth < request.left.size :=
    (Array.getElem?_eq_some_iff.mp h).1
  rw [readLeft_of_lt (Nat.lt_trans hplace hleft), h]
  rfl

/-- The scaled element of the left operand at a row and a depth, zero where it has none. -/
def Request.factor (request : Request) (row depth : Nat) : Single :=
  request.alpha.mul ((request.left? row depth).getD .zero)

namespace Engine

open Stage

/-! ### Packing a strip -/

/-- The element at a position of the strip of a tile. -/
def stripValue (request : Request) (tile : Tile) (start position : Nat) : Single :=
  if position % tile.kernelRows < tile.rows then
    request.factor (tile.row + position % tile.kernelRows) (start + position / tile.kernelRows)
  else .zero

/-- The strip of a tile for the K-block that starts at a given row. -/
def stripValues (request : Request) (tile : Tile) (start depth : Nat) : Array Single :=
  ((List.range (depth * tile.kernelRows)).map (stripValue request tile start)).toArray

variable {request : Request} {tile : Tile} {start depth : Nat} {room : Room}

theorem size_stripValues :
    (stripValues request tile start depth).size = depth * tile.kernelRows := by
  rw [stripValues, List.size_toArray, List.length_map, List.length_range]

/-- The strip holds the factors of the rows of the tile. -/
theorem getD_stripValues {i p : Nat} (hi : i < tile.kernelRows) (hp : p < depth) :
    (stripValues request tile start depth).getD (p * tile.kernelRows + i) .zero =
      if i < tile.rows then request.factor (tile.row + i) (start + p) else .zero := by
  have hlt := offset_lt hp hi
  obtain ⟨hdiv, hmod⟩ := offset_div_mod hi p
  rw [Array.getD_eq_getD_getElem?, stripValues, List.getElem?_toArray, List.getElem?_map,
    List.getElem?_range hlt, Option.map_some, Option.getD_some, stripValue, hdiv, hmod]

theorem stripElement_eq {p i : Nat} (hsize : request.left.size < Word.limit)
    (hleft : i < tile.rows → (request.left? (tile.row + i) (start + p)).isSome = true) :
    stripElement request tile start p i =
      .ok (if i < tile.rows then request.factor (tile.row + i) (start + p) else .zero) := by
  unfold stripElement
  split_ifs with hi
  · obtain ⟨x, hx⟩ := Option.isSome_iff_exists.mp (hleft hi)
    rw [request.readLeft_eq hsize hx, Request.factor, hx]
    rfl
  · rfl

theorem packedStrip_eq (hsize : request.left.size < Word.limit)
    (hleft : ∀ i < tile.rows, ∀ p < depth,
      (request.left? (tile.row + i) (start + p)).isSome = true) :
    packedStrip request tile start depth = .ok (stripValues request tile start depth) := by
  have hvalue : ∀ position ∈ List.range (depth * tile.kernelRows),
      stripElement request tile start (position / tile.kernelRows) (position % tile.kernelRows) =
        .ok (stripValue request tile start position) := by
    intro position hposition
    refine stripElement_eq hsize fun hrow ↦ hleft _ hrow _ ?_
    exact Nat.div_lt_of_lt_mul (by rw [Nat.mul_comm]; exact List.mem_range.mp hposition)
  rw [packedStrip, mapM_eq_ok hvalue]
  rfl

/-- A strip without rows has no elements, whatever its depth. -/
theorem stripValues_div (request : Request) (tile : Tile) (start depth : Nat) :
    stripValues request tile start (depth * tile.kernelRows / tile.kernelRows) =
      stripValues request tile start depth := by
  rcases Nat.eq_zero_or_pos tile.kernelRows with hzero | hpositive
  · simp [stripValues, hzero]
  · rw [Nat.mul_div_cancel _ hpositive]

/-- Packing a strip leaves the band alone. -/
theorem packStrip_rewrites (hroom : depth * tile.kernelRows ≤ room.strip)
    (hstrip : room.strip < Word.limit) (hsize : request.left.size < Word.limit)
    (hleft : ∀ i < tile.rows, ∀ p < depth,
      (request.left? (tile.row + i) (start + p)).isSome = true) :
    (packStrip request tile start depth).Rewrites room
      (· = stripValues request tile start depth) fun _ x ↦ x := by
  intro workspace hworkspace
  have hlimit : depth * tile.kernelRows < Word.limit := Nat.lt_of_le_of_lt hroom hstrip
  have hstrip : depth * tile.kernelRows ≤ workspace.strip.size := by
    rw [← hworkspace] at hroom
    exact hroom
  have hold : (workspace.strip.extract 0 (depth * tile.kernelRows)).size =
      depth * tile.kernelRows := by
    rw [Array.size_extract, Nat.min_eq_left hstrip, Nat.sub_zero]
  have hpacked : packedStrip request tile start (depth * tile.kernelRows / tile.kernelRows) =
      .ok (stripValues request tile start depth) := by
    rw [packedStrip_eq hsize fun i hi p hp ↦ hleft i hi p ?_, stripValues_div]
    exact Nat.lt_of_lt_of_le hp (Nat.div_le_of_le_mul (Nat.le_of_eq (Nat.mul_comm _ _)))
  let packed := stripValues request tile start depth
  -- the whole of the strip is new, so nothing of the old one is left
  have hwhole : withFirst (workspace.strip.extract 0 (depth * tile.kernelRows)) packed = packed :=
    withFirst_of_size_le (by rw [hold, size_stripValues])
  refine ⟨packed, { workspace with strip := withFirst workspace.strip packed }, ?_, rfl, ?_, ?_⟩
  · rw [packStrip, word_eq hlimit, pure_bind, get_bind_run, firstElements_eq hstrip, pure_bind,
      hpacked]
    change EStateM.Result.ok (withFirst _ packed) { workspace with strip := _ } = _
    rw [hwhole]
  · rw [← hworkspace, Workspace.room, size_withFirst (by rwa [size_stripValues])]
    rfl
  · exact (mapIdx_eq_self fun _ _ ↦ rfl).symm

/-! ### Merging a staged tile -/

/-- Merging consecutive elements is an elementwise computation. -/
theorem mergeElements_eq (beta : Single) (staged : Array Single) (offset position : Nat)
    {width stride : Nat} (hle : width ≤ stride) (band : Array Single) :
    mergeElements beta staged offset width position band =
      band.mapIdx ((⟨position, stride, 1, width⟩ : Window).rewrite fun _ j old ↦
        mergeElement beta old (staged.getD (offset + j) .zero)) := by
  simp only [mergeElements, modify_eq_mapIdx, foldl_mapIdx]
  refine congrArg band.mapIdx (funext fun q ↦ funext fun x ↦ ?_)
  exact Window.foldl_elements hle (fun j old ↦
    mergeElement beta old (staged.getD (offset + j) .zero)) q x

variable (beta : Single) {origin first stop stagedStride rows : Nat} {staged : Array Single}

section Merge

variable (hcolumns : first ≤ stop) (hlimit : room.band < Word.limit)
  (hsize : staged.size < Word.limit) (hle : stop - first ≤ request.outputStride)
include hcolumns hlimit hsize hle

theorem mergeRow_rewrites {i : Nat}
    (hband : origin + (i * request.outputStride + stop) ≤ room.band)
    (hstaged : i * stagedStride + (stop - first) ≤ staged.size) :
    (mergeRow request beta origin first stop staged stagedStride i).Rewrites room (fun _ ↦ True)
      ((⟨origin + first + i * request.outputStride, request.outputStride, 1, stop - first⟩ :
        Window).rewrite fun _ j old ↦
          mergeElement beta old (staged.getD (i * stagedStride + j) .zero)) := by
  intro workspace hworkspace
  have hposition : origin + (i * request.outputStride + first) =
      origin + first + i * request.outputStride := by omega
  have hinside : ¬ (i * request.outputStride + stop < i * request.outputStride + first ∨
      workspace.band.size < origin + (i * request.outputStride + stop)) := by
    change origin + (i * request.outputStride + stop) ≤ room.band at hband
    rw [← hworkspace] at hband
    change origin + (i * request.outputStride + stop) ≤ workspace.band.size at hband
    omega
  have hmerged := mergeElements_eq beta staged (i * stagedStride)
    (origin + (i * request.outputStride + first)) hle workspace.band
  let merged := mergeElements beta staged (i * stagedStride) (stop - first)
    (origin + (i * request.outputStride + first)) workspace.band
  refine ⟨(), { workspace with band := merged }, ?_, trivial, ?_, ?_⟩
  · rw [mergeRow, word_eq (by omega), pure_bind, word_eq (by omega), pure_bind, get_bind_run,
      if_neg hinside, word_eq (by omega), pure_bind, Nat.add_sub_add_left,
      if_neg (Nat.not_lt_of_le hstaged)]
    rfl
  · rw [← hworkspace, Workspace.room, Workspace.room, show merged = _ from hmerged,
      Array.size_mapIdx]
  · rw [← hposition]
    exact hmerged

/-- Merging the rows of a staged tile rewrites a window of the band. -/
theorem merge_rewrites
    (hband : ∀ i < rows, origin + (i * request.outputStride + stop) ≤ room.band)
    (hstaged : ∀ i < rows, i * stagedStride + (stop - first) ≤ staged.size) :
    (merge request beta origin first stop staged stagedStride rows).Rewrites room (fun _ ↦ True)
      ((⟨origin + first, request.outputStride, rows, stop - first⟩ : Window).rewrite fun i j old ↦
        mergeElement beta old (staged.getD (i * stagedStride + j) .zero)) := by
  have hrows := Rewrites.forM fun i hi ↦
    mergeRow_rewrites beta hcolumns hlimit hsize hle (hband i (List.mem_range.mp hi))
      (hstaged i (List.mem_range.mp hi))
  refine hrows.congr fun q _ x ↦ ?_
  exact Window.foldl_rows hle (fun i j old ↦
    mergeElement beta old (staged.getD (i * stagedStride + j) .zero)) rows q x

end Merge

/-! ### Kernel calls -/

/-- The call that computes column blocks in the staging area. -/
def stagingCall (depth : Nat) (left right : Array Single) (blocks width : Nat) : MicroCall :=
  ⟨depth, left, right, .zero, 0, blocks * width, blocks, width⟩

/-- What a kernel leaves in the staging area: as many elements as it was given, and at every row
and column the product of the operands. -/
structure Staged (kernel : Kernel) (call : MicroCall) (staged : Array Single) : Prop where
  size : staged.size = kernel.rows * call.stride
  value : ∀ i < kernel.rows, ∀ c < call.stride,
    staged.getD (i * call.stride + c) .zero =
      kernel.product call.depth (call.factor kernel.rows i)
        (call.weight (c / call.width) (c % call.width))

variable {kernel : Kernel} {left right : Array Single} {blocks width : Nat}

theorem bounded_stagingCall (hleft : depth * kernel.rows ≤ left.size)
    (hright : blocks * (depth * width) ≤ right.size) :
    (stagingCall depth left right blocks width).Bounded kernel.rows
      (kernel.rows * (blocks * width)) := by
  refine ⟨hleft, hright, Nat.le_refl _, fun i hi ↦ ?_⟩
  rw [stagingCall, Nat.zero_add]
  exact row_end_le hi _

/-- A call into the staging area overwrites all of it, whatever it held. -/
theorem staged_of_run (htakes : kernel.Takes width) (hdepth : 0 < depth)
    (hleft : depth * kernel.rows ≤ left.size) (hright : blocks * (depth * width) ≤ right.size)
    {area : Array Single} (harea : area.size = kernel.rows * (blocks * width)) :
    ∃ staged, kernel.run (stagingCall depth left right blocks width) area = some staged ∧
      Staged kernel (stagingCall depth left right blocks width) staged := by
  have hbounds := bounded_stagingCall hleft hright
  rw [← harea] at hbounds
  refine ⟨_, Kernel.run_eq kernel htakes hbounds, ?_, fun i hi c hc ↦ ?_⟩
  · rw [Array.size_mapIdx, harea]
    rfl
  · have hposition : i * (blocks * width) + c < area.size := by
      have hrow := hbounds.output i hi
      change 0 + (i * (blocks * width) + blocks * width) ≤ area.size at hrow
      change c < blocks * width at hc
      omega
    change (area.mapIdx _).getD (i * (blocks * width) + c) Binary.zero = _
    rw [Array.getD_eq_getD_getElem?, Array.getElem?_mapIdx, Array.getElem?_eq_getElem hposition,
      Option.map_some, Option.getD_some]
    have hwindow : (⟨0, blocks * width, kernel.rows, blocks * width⟩ : Window).rewrite
        (fun i c ↦ kernel.element .zero depth
          ((stagingCall depth left right blocks width).factor kernel.rows i)
          ((stagingCall depth left right blocks width).weight (c / width) (c % width)))
        (0 + (i * (blocks * width) + c)) area[i * (blocks * width) + c] = _ :=
      Window.rewrite_at hc (Nat.le_refl _) _ i _
    rw [if_pos hi, Nat.zero_add] at hwindow
    exact hwindow.trans (kernel.element_of_isZero rfl hdepth _ _ _)

/-- Staging column blocks leaves the band alone. -/
theorem stageBlocks_rewrites (htakes : kernel.Takes width) (hrows : kernel.rows = tile.kernelRows)
    (hdepth : 0 < depth) (hleft : depth * tile.kernelRows ≤ left.size)
    (hright : blocks * (depth * width) ≤ right.size)
    (hroom : tile.kernelRows * (blocks * width) ≤ room.staging)
    (hlimit : room.staging < Word.limit) :
    (stageBlocks request kernel tile depth left right blocks width (blocks * width)).Rewrites room
      (Staged kernel (stagingCall depth left right blocks width)) fun _ x ↦ x := by
  intro workspace hworkspace
  have hstaging : tile.kernelRows * (blocks * width) ≤ workspace.staging.size := by
    rw [← hworkspace] at hroom
    exact hroom
  have harea : (workspace.staging.extract 0 (tile.kernelRows * (blocks * width))).size =
      kernel.rows * (blocks * width) := by
    rw [Array.size_extract, Nat.min_eq_left hstaging, Nat.sub_zero, hrows]
  rw [← hrows] at hleft
  obtain ⟨staged, hrun, hstaged⟩ := staged_of_run htakes hdepth hleft hright harea
  refine ⟨staged, { workspace with staging := withFirst workspace.staging staged }, ?_, hstaged,
    ?_, ?_⟩
  · rw [stageBlocks, word_eq (Nat.lt_of_le_of_lt hroom hlimit), pure_bind, get_bind_run,
      firstElements_eq hstaging, pure_bind]
    change (callKernel kernel (stagingCall depth left right blocks width) _ >>= fun _ ↦ _)
      workspace = _
    rw [callKernel_eq hrun]
    rfl
  · have hsize : staged.size ≤ workspace.staging.size := by
      rw [hstaged.size, hrows]
      exact hstaging
    rw [← hworkspace, Workspace.room, size_withFirst hsize]
    rfl
  · exact (mapIdx_eq_self fun _ _ ↦ rfl).symm

/-- The call that computes column blocks in place. -/
def directCall (request : Request) (beta : Single) (origin depth : Nat)
    (left right : Array Single) (blocks width : Nat) : MicroCall :=
  ⟨depth, left, right, beta, origin, request.outputStride, blocks, width⟩

/-- Column blocks that are computed in place rewrite a window of the band. -/
theorem computeBlocks_rewrites (htakes : kernel.Takes width)
    (hbounds : (directCall request beta origin depth left right blocks width).Bounded kernel.rows
      room.band) :
    (computeBlocks kernel request beta origin depth left right blocks width).Rewrites room
      (fun _ ↦ True)
      ((⟨origin, request.outputStride, kernel.rows, blocks * width⟩ : Window).rewrite fun i c ↦
        kernel.element beta depth
          ((directCall request beta origin depth left right blocks width).factor kernel.rows i)
          ((directCall request beta origin depth left right blocks width).weight
            (c / width) (c % width))) := by
  intro workspace hworkspace
  rw [← hworkspace] at hbounds
  have hrun : kernel.run (directCall request beta origin depth left right blocks width)
      workspace.band = _ := Kernel.run_eq kernel htakes hbounds
  refine ⟨(), { workspace with band := workspace.band.mapIdx _ }, ?_, trivial, ?_, rfl⟩
  · change (callKernel kernel (directCall request beta origin depth left right blocks width)
      workspace.band >>= fun _ ↦ _) workspace = _
    rw [callKernel_eq hrun]
    rfl
  · rw [← hworkspace, Workspace.room, Workspace.room, Array.size_mapIdx]

end Engine

end PanelGemm
