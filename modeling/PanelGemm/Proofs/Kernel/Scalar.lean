import PanelGemm.Proofs.Kernel.Call

/-!
# Scalar kernels compute their window

A scalar kernel sweeps over its window once for every block and depth. Each loop of it is an
elementwise computation, from a single element (`updateElement_eq`) over a row, a depth and a block
to the whole call (`ScalarKernel.run_eq`), and the sweeps of one block compose to the chain of
every element.
-/

set_option autoImplicit false
set_option relaxedAutoImplicit false

namespace PanelGemm.ScalarKernel

variable {rows size : Nat} {call : MicroCall} (hbounds : call.Bounded rows size)

include hbounds

theorem updateElement_eq {block p i j : Nat} (hblock : block < call.blocks) (hp : p < call.depth)
    (hi : i < rows) (hj : j < call.width) (x : Single) {output : Array Single}
    (hsize : output.size = size) :
    updateElement call block p i x output j =
      some (output.mapIdx fun q old ↦
        if q = call.origin + block * call.width + i * call.stride + j then
          advance call.beta p x (call.weight block j p) old
        else old) := by
  have hright := hbounds.right_le hblock hp
  have houtput := hbounds.output_le hblock hi
  have hposition : call.origin + (i * call.stride + block * call.width + j) =
      call.origin + block * call.width + i * call.stride + j := by omega
  have hlt : call.origin + block * call.width + i * call.stride + j < output.size := by omega
  have hweight : call.right[(block * call.depth + p) * call.width + j]? =
      some (call.weight block j p) := by
    rw [MicroCall.weight, Array.getElem?_eq_getElem (by omega), Array.getD, dif_pos (by omega)]
    rfl
  simp only [updateElement, hweight, hposition, Array.getElem?_eq_getElem hlt, Option.bind_eq_bind,
    Option.bind_some]
  exact write?_eq hlt (advance call.beta p x (call.weight block j p))

theorem updateRow_eq {block p i : Nat} (hblock : block < call.blocks) (hp : p < call.depth)
    (hi : i < rows) {output : Array Single} (hsize : output.size = size) :
    updateRow rows call block p output i =
      some (output.mapIdx
        ((⟨call.origin + block * call.width + i * call.stride, call.stride, 1, call.width⟩ :
          Window).rewrite fun _ j ↦
            advance call.beta p (call.factor rows i p) (call.weight block j p))) := by
  have hfactor : call.left[p * rows + i]? = some (call.factor rows i p) := by
    have hleft := hbounds.left_lt hi hp
    rw [MicroCall.factor, Array.getElem?_eq_getElem hleft, Array.getD, dif_pos hleft]
    rfl
  have hwidth := hbounds.width_le (Nat.zero_lt_of_lt hblock)
  rw [updateRow, hfactor, Option.bind_eq_bind, Option.bind_some,
    foldlM_mapIdx (fun j hj buffer hbuffer ↦ updateElement_eq hbounds hblock hp hi
      (List.mem_range.mp hj) (call.factor rows i p) hbuffer) hsize]
  simp only [Window.foldl_elements hwidth]

theorem updateDepth_eq {block p : Nat} (hblock : block < call.blocks) (hp : p < call.depth)
    {output : Array Single} (hsize : output.size = size) :
    updateDepth rows call block output p =
      some (output.mapIdx
        ((⟨call.origin + block * call.width, call.stride, rows, call.width⟩ : Window).rewrite
          fun i j ↦ advance call.beta p (call.factor rows i p) (call.weight block j p))) := by
  have hwidth := hbounds.width_le (Nat.zero_lt_of_lt hblock)
  rw [updateDepth, foldlM_mapIdx (fun i hi buffer hbuffer ↦ updateRow_eq hbounds hblock hp
    (List.mem_range.mp hi) hbuffer) hsize]
  simp only [Window.foldl_rows hwidth fun i j ↦
    advance call.beta p (call.factor rows i p) (call.weight block j p)]

theorem updateBlock_eq {block : Nat} (hblock : block < call.blocks) {output : Array Single}
    (hsize : output.size = size) :
    updateBlock rows call output block =
      some (output.mapIdx
        ((⟨call.origin + block * call.width, call.stride, rows, call.width⟩ : Window).rewrite
          fun i j ↦ element call.beta call.depth (call.factor rows i) (call.weight block j))) := by
  rw [updateBlock, foldlM_mapIdx (fun p hp buffer hbuffer ↦ updateDepth_eq hbounds hblock
    (List.mem_range.mp hp) hbuffer) hsize]
  simp only [Window.foldl_rewrite]
  rfl

/-- A scalar kernel computes every element of its window and keeps all others. -/
theorem run_eq {output : Array Single} (hsize : output.size = size) :
    run rows call output =
      some (output.mapIdx ((call.window rows).rewrite fun i c ↦
        element call.beta call.depth (call.factor rows i)
          (call.weight (c / call.width) (c % call.width)))) := by
  rw [run, foldlM_mapIdx (fun block hblock buffer hbuffer ↦ updateBlock_eq hbounds
    (List.mem_range.mp hblock) hbuffer) hsize]
  simp only [Window.foldl_blocks (fun block i j ↦
    element call.beta call.depth (call.factor rows i) (call.weight block j)) hbounds.columns]
  rfl

end PanelGemm.ScalarKernel
