import PanelGemm.Proofs.Kernel.Call

/-!
# Vector kernels compute their window

A vector kernel accumulates the sums of a block in registers (`foldlM_accumulate`), where the two
registers of a row hold the left and the right half of the block. It stores them row by row, each
row as one elementwise computation (`storeRow_eq`), although the old elements of both halves are
read before the first of them is replaced. `VectorKernel.run_eq` is the whole call.
-/

set_option autoImplicit false
set_option relaxedAutoImplicit false

namespace PanelGemm

namespace Buffer

/-- Reading consecutive elements that a buffer holds. -/
theorem readVector?_eq {buffer : Array Single} {start count : Nat}
    (h : start + count ≤ buffer.size) :
    readVector? buffer start count =
      some (Vector.ofFn fun lane ↦ buffer.getD (start + lane) .zero) := by
  rw [readVector?, dif_pos h, Option.some_inj]
  refine Vector.ext fun lane hlane ↦ ?_
  rw [Vector.getElem_ofFn, Vector.getElem_ofFn, Array.getD, dif_pos (by omega)]
  rfl

theorem get_ofFn {α : Type} {count : Nat} (f : Fin count → α) (i : Fin count) :
    (Vector.ofFn f).get i = f i :=
  Vector.getElem_ofFn i.isLt

/-- Writing consecutive elements that a buffer holds. -/
theorem writeVector?_eq {buffer : Array Single} {start stride count : Nat}
    (h : start + count ≤ buffer.size) (hle : count ≤ stride) (f : Nat → Single) :
    writeVector? buffer start (Vector.ofFn fun lane : Fin count ↦ f lane) =
      some (buffer.mapIdx
        ((⟨start, stride, 1, count⟩ : Window).rewrite fun _ j _ ↦ f j)) := by
  have hwrite : ∀ lane ∈ List.finRange count, ∀ output : Array Single, output.size = buffer.size →
      write? output (start + lane) ((Vector.ofFn fun lane : Fin count ↦ f lane).get lane) =
        some (output.mapIdx fun q x ↦ if q = start + lane then f lane else x) := by
    intro lane _ output hsize
    have hlane := lane.isLt
    rw [get_ofFn]
    exact write?_eq (by omega) fun _ ↦ f lane
  rw [writeVector?, foldlM_mapIdx hwrite rfl]
  refine congrArg (fun g ↦ some (buffer.mapIdx g)) (funext fun q ↦ funext fun x ↦ ?_)
  rw [← Window.foldl_elements hle fun j _ ↦ f j]
  exact foldl_finRange (fun x lane ↦ if q = start + lane then f lane else x) x

end Buffer

namespace VectorKernel

section Registers

variable {lanes : Nat}

/-- What is stored for a register is merged with the old elements. -/
theorem settle_eq {output : Array Single} {position : Nat} (h : position + lanes ≤ output.size)
    (beta : Single) (f : Nat → Single) :
    settle beta (Vector.ofFn fun lane : Fin lanes ↦ f lane) output position =
      some (Vector.ofFn fun lane : Fin lanes ↦
        Engine.mergeElement beta (output.getD (position + lane) .zero) (f lane)) := by
  unfold settle Engine.mergeElement
  split_ifs with hbeta
  · rfl
  · rw [Buffer.readVector?_eq h, Option.bind_eq_bind, Option.bind_some]
    refine congrArg some (Vector.ext fun lane hlane ↦ ?_)
    rw [Register.fma, Vector.getElem_zipWith, Vector.getElem_ofFn, Vector.getElem_ofFn,
      Vector.getElem_ofFn]

/-- Storing the two registers of a row is one elementwise computation: the left half is replaced
before the right one, but the old elements of both have been read by then. -/
theorem storeRow_eq {rows block : Nat} {call : MicroCall} {accumulators : Accumulators lanes rows}
    {output : Array Single} {i : Fin rows} (f : Nat → Single)
    (hlow : (accumulators.get i).low = Vector.ofFn fun lane : Fin lanes ↦ f lane)
    (hhigh : (accumulators.get i).high = Vector.ofFn fun lane : Fin lanes ↦ f (lanes + lane))
    (hsize : call.origin + (block * width lanes + i * call.stride) + width lanes ≤ output.size)
    (hstride : width lanes ≤ call.stride) :
    storeRow call block accumulators output i =
      some (output.mapIdx
        ((⟨call.origin + (block * width lanes + i * call.stride), call.stride, 1, width lanes⟩ :
          Window).rewrite fun _ j old ↦ Engine.mergeElement call.beta old (f j))) := by
  have hhalves : width lanes = lanes + lanes := Nat.two_mul lanes
  rw [storeRow, hlow, hhigh]
  generalize call.origin + (block * width lanes + i * call.stride) = position at hsize ⊢
  let value := fun j ↦ Engine.mergeElement call.beta (output.getD (position + j) .zero) (f j)
  have hright : settle call.beta (Vector.ofFn fun lane : Fin lanes ↦ f (lanes + lane)) output
      (position + lanes) = some (Vector.ofFn fun lane : Fin lanes ↦ value (lanes + lane)) := by
    simp only [value, ← Nat.add_assoc position]
    exact settle_eq (by omega) call.beta fun lane ↦ f (lanes + lane)
  have hwriteLow : Buffer.writeVector? output position
      (Vector.ofFn fun lane : Fin lanes ↦ value lane) = _ :=
    Buffer.writeVector?_eq (by omega) (by omega : lanes ≤ call.stride) value
  have hwriteHigh : Buffer.writeVector? (output.mapIdx
      ((⟨position, call.stride, 1, lanes⟩ : Window).rewrite fun _ j _ ↦ value j))
      (position + lanes) (Vector.ofFn fun lane : Fin lanes ↦ value (lanes + lane)) = _ :=
    Buffer.writeVector?_eq (by rw [Array.size_mapIdx]; omega) (by omega : lanes ≤ call.stride)
      fun j ↦ value (lanes + j)
  rw [settle_eq (by omega) call.beta f, hright]
  simp only [Option.bind_eq_bind, Option.bind_some]
  rw [hwriteLow, Option.bind_some, hwriteHigh, Array.mapIdx_mapIdx, ← Window.mapIdx_rewrite_getD,
    hhalves]
  refine congrArg (fun g ↦ some (output.mapIdx g)) (funext fun q ↦ funext fun x ↦ ?_)
  refine (Window.rewrite_beside (by omega) _ _ q x).trans (Window.rewrite_congr ?_ q x)
  intro i hi j hj x
  dsimp only at hi hj ⊢
  rw [Window.position, Nat.lt_one_iff.mp hi, Nat.zero_mul, Nat.zero_add]
  split_ifs with hcolumn
  · rfl
  · rw [Nat.add_sub_of_le (Nat.le_of_not_lt hcolumn)]

end Registers

/-- The accumulators of a block after a number of depths. -/
def partialSums (lanes rows : Nat) (call : MicroCall) (block depth : Nat) :
    Accumulators lanes rows :=
  Vector.ofFn fun i ↦
    ⟨Vector.ofFn fun lane ↦ sum depth (call.factor rows i) (call.weight block lane),
      Vector.ofFn fun lane ↦ sum depth (call.factor rows i) (call.weight block (lanes + lane))⟩

section Calls

variable {lanes rows size : Nat} {call : MicroCall} (hbounds : call.Bounded rows size)
  (hwidth : call.width = width lanes)

/-- One more depth adds one more product to every sum. -/
theorem sum_succ (depth : Nat) (x y : Nat → Single) :
    sum (depth + 1) x y = (x depth).fma (y depth) (sum depth x y) := by
  rw [sum, List.range_succ, List.foldl_append]
  rfl

include hbounds hwidth

theorem accumulate_partialSums {block p : Nat} (hblock : block < call.blocks)
    (hp : p < call.depth) :
    accumulate call block (partialSums lanes rows call block p) p =
      some (partialSums lanes rows call block (p + 1)) := by
  have hright := hbounds.right_le hblock hp
  have hlast : ∀ lane < lanes, (block * call.depth + p) * call.width + lanes + lane =
      (block * call.depth + p) * call.width + (lanes + lane) := fun lane _ ↦ by omega
  have hleft : p * rows + rows ≤ call.left.size := Nat.le_trans (row_end_le hp rows) hbounds.left
  have hhalves : width lanes = lanes + lanes := Nat.two_mul lanes
  rw [accumulate, ← hwidth, Buffer.readVector?_eq (by omega), Buffer.readVector?_eq (by omega),
    Buffer.readVector?_eq hleft]
  refine congrArg some (Vector.ext fun i hi ↦ ?_)
  simp only [partialSums, Vector.getElem_zipWith, Vector.getElem_ofFn, RowPair.mk.injEq]
  constructor
  · refine Vector.ext fun lane hlane ↦ ?_
    simp only [Register.fma, Vector.getElem_zipWith, Vector.getElem_ofFn, sum_succ]
    rfl
  · refine Vector.ext fun lane hlane ↦ ?_
    simp only [Register.fma, Vector.getElem_zipWith, Vector.getElem_ofFn, sum_succ,
      hlast lane hlane]
    rfl

/-- After all depths the accumulators of a block hold the sums of its elements. -/
theorem foldlM_accumulate {block : Nat} (hblock : block < call.blocks) {depth : Nat}
    (hdepth : depth ≤ call.depth) :
    (List.range depth).foldlM (accumulate call block) (cleared lanes rows) =
      some (partialSums lanes rows call block depth) := by
  induction depth with
  | zero =>
    refine congrArg some (Vector.ext fun i hi ↦ ?_)
    rw [cleared, Vector.getElem_replicate, partialSums, Vector.getElem_ofFn, RowPair.mk.injEq]
    constructor <;>
    · refine Vector.ext fun lane hlane ↦ ?_
      rw [Register.zero, Vector.getElem_replicate, Vector.getElem_ofFn]
      rfl
  | succ depth ih =>
    rw [List.range_succ, List.foldlM_append, ih (Nat.le_of_succ_le hdepth), Option.bind_eq_bind,
      Option.bind_some, List.foldlM_cons,
      accumulate_partialSums hbounds hwidth hblock hdepth]
    rfl

/-- Storing a row of accumulated sums is an elementwise computation. -/
theorem storeRow_partialSums {block : Nat} (hblock : block < call.blocks) (i : Fin rows)
    {output : Array Single} (hsize : output.size = size) :
    storeRow call block (partialSums lanes rows call block call.depth) output i =
      some (output.mapIdx
        ((⟨call.origin + block * call.width + i * call.stride, call.stride, 1, call.width⟩ :
          Window).rewrite fun _ j old ↦ Engine.mergeElement call.beta old
            (sum call.depth (call.factor rows i) (call.weight block j)))) := by
  have houtput := hbounds.output_le hblock i.isLt
  have hstride := hbounds.width_le (Nat.zero_lt_of_lt hblock)
  have hposition : call.origin + (block * width lanes + i * call.stride) =
      call.origin + block * call.width + i * call.stride := by
    rw [hwidth]
    omega
  have hhalves : width lanes = lanes + lanes := Nat.two_mul lanes
  rw [storeRow_eq (fun j ↦ sum call.depth (call.factor rows i) (call.weight block j))
    (by rw [partialSums, Buffer.get_ofFn])
    (by rw [partialSums, Buffer.get_ofFn]) (by omega) (by omega), hposition,
    ← hwidth]

/-- Computing a block is an elementwise computation. -/
theorem runBlock_eq {block : Nat} (hblock : block < call.blocks) {output : Array Single}
    (hsize : output.size = size) :
    runBlock lanes rows call output block =
      some (output.mapIdx
        ((⟨call.origin + block * call.width, call.stride, rows, call.width⟩ : Window).rewrite
          fun i j old ↦ Engine.mergeElement call.beta old
            (sum call.depth (call.factor rows i) (call.weight block j)))) := by
  have hstride := hbounds.width_le (Nat.zero_lt_of_lt hblock)
  rw [runBlock, foldlM_accumulate hbounds hwidth hblock (Nat.le_refl _), Option.bind_eq_bind,
    Option.bind_some, foldlM_mapIdx (fun i _ buffer hbuffer ↦ storeRow_partialSums hbounds hwidth
      hblock i hbuffer) hsize]
  refine congrArg (fun g ↦ some (output.mapIdx g)) (funext fun q ↦ funext fun x ↦ ?_)
  rw [← Window.foldl_rows hstride]
  exact foldl_finRange (fun x i ↦
    (⟨call.origin + block * call.width + i * call.stride, call.stride, 1, call.width⟩ :
      Window).rewrite (fun _ j old ↦ Engine.mergeElement call.beta old
        (sum call.depth (call.factor rows i) (call.weight block j))) q x) x

/-- A vector kernel computes every element of its window and keeps all others. -/
theorem run_eq {output : Array Single} (hsize : output.size = size) :
    run lanes rows call output =
      some (output.mapIdx ((call.window rows).rewrite fun i c old ↦
        Engine.mergeElement call.beta old (sum call.depth (call.factor rows i)
          (call.weight (c / call.width) (c % call.width))))) := by
  rw [run, foldlM_mapIdx (fun block hblock buffer hbuffer ↦ runBlock_eq hbounds hwidth
    (List.mem_range.mp hblock) hbuffer) hsize]
  simp only [Window.foldl_blocks (fun block i j old ↦ Engine.mergeElement call.beta old
    (sum call.depth (call.factor rows i) (call.weight block j))) hbounds.columns]
  rfl

end Calls

end VectorKernel

end PanelGemm
