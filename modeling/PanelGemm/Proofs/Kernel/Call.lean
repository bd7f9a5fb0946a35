import PanelGemm.Engine.Stage
import PanelGemm.Proofs.Window

/-!
# What a kernel call computes

A kernel call computes every element of its window from the factors of one row, the weights of one
column and the old element. `Kernel.element` is that value. The two kinds of kernels differ in it:
a scalar kernel carries the old element through a chain of fused multiply-adds, a vector kernel
starts a chain of its own at positive zero and merges the sum with the old element at the end.
`Kernel.product` is the value that does not use the old element, which is what is staged
(`element_of_isZero`).

`MicroCall.Bounded` collects the bounds that keep a call inside its buffers.
-/

set_option autoImplicit false
set_option relaxedAutoImplicit false

namespace PanelGemm

namespace MicroCall

/-- The factor of row `i` at depth `p`. -/
def factor (call : MicroCall) (rows i p : Nat) : Single := call.left.getD (p * rows + i) .zero

/-- The weight of column `j` of a block at depth `p`. -/
def weight (call : MicroCall) (block j p : Nat) : Single :=
  call.right.getD ((block * call.depth + p) * call.width + j) .zero

/-- The window of the output that a call of a given height computes. -/
def window (call : MicroCall) (rows : Nat) : Window :=
  ⟨call.origin, call.stride, rows, call.blocks * call.width⟩

/-- The operands of a call of a given height, and an output of a given size, hold what the call
accesses, and the rows of its window do not run into one another. -/
structure Bounded (call : MicroCall) (rows size : Nat) : Prop where
  left : call.depth * rows ≤ call.left.size
  right : call.blocks * (call.depth * call.width) ≤ call.right.size
  columns : call.blocks * call.width ≤ call.stride
  output : ∀ i < rows, call.origin + (i * call.stride + call.blocks * call.width) ≤ size

variable {call : MicroCall} {rows size : Nat}

theorem Bounded.left_lt (h : call.Bounded rows size) {i p : Nat} (hi : i < rows)
    (hp : p < call.depth) : p * rows + i < call.left.size :=
  Nat.lt_of_lt_of_le (offset_lt hp hi) h.left

theorem Bounded.right_le (h : call.Bounded rows size) {block p : Nat} (hblock : block < call.blocks)
    (hp : p < call.depth) :
    (block * call.depth + p) * call.width + call.width ≤ call.right.size := by
  calc (block * call.depth + p) * call.width + call.width
      ≤ call.blocks * call.depth * call.width := row_end_le (offset_lt hblock hp) _
    _ = call.blocks * (call.depth * call.width) := Nat.mul_assoc _ _ _
    _ ≤ call.right.size := h.right

theorem Bounded.output_le (h : call.Bounded rows size) {block i : Nat}
    (hblock : block < call.blocks) (hi : i < rows) :
    call.origin + (i * call.stride + block * call.width) + call.width ≤ size := by
  have houtput := h.output i hi
  have hcolumns := row_end_le hblock call.width
  omega

theorem Bounded.width_le (h : call.Bounded rows size) (hblocks : 0 < call.blocks) :
    call.width ≤ call.stride :=
  Nat.le_trans (Nat.le_mul_of_pos_left _ hblocks) h.columns

end MicroCall

/-- The value that a scalar kernel computes from factors `x`, weights `y` and the old element. -/
def ScalarKernel.element (beta : Single) (depth : Nat) (x y : Nat → Single) (old : Single) :
    Single :=
  (List.range depth).foldl (fun value p ↦ advance beta p (x p) (y p) value) old

/-- The sum that a vector kernel accumulates from factors `x` and weights `y`. -/
def VectorKernel.sum (depth : Nat) (x y : Nat → Single) : Single :=
  (List.range depth).foldl (fun value p ↦ (x p).fma (y p) value) .zero

namespace Kernel

/-- The value that a kernel computes from factors `x`, weights `y` and the old element. -/
def element (kernel : Kernel) (beta : Single) (depth : Nat) (x y : Nat → Single)
    (old : Single) : Single :=
  match kernel with
  | scalar _ => ScalarKernel.element beta depth x y old
  | vector _ _ => Engine.mergeElement beta old (VectorKernel.sum depth x y)

/-- The value that a kernel computes without an old element. -/
def product (kernel : Kernel) (depth : Nat) (x y : Nat → Single) : Single :=
  kernel.element .zero depth x y .zero

/-- The height of a kernel. -/
def rows : Kernel → Nat
  | scalar rows => rows
  | vector _ rows => rows

/-- Whether a kernel takes column blocks of a given width. -/
def Takes (kernel : Kernel) (width : Nat) : Prop :=
  match kernel with
  | scalar _ => True
  | vector lanes _ => width = VectorKernel.width lanes

end Kernel

/-- The depths of a sum are the first one and the others. -/
theorem range_eq_zero_cons {depth : Nat} (hdepth : 0 < depth) :
    List.range depth = 0 :: List.range' 1 (depth - 1) := by
  rw [List.range_eq_range', ← Nat.sub_add_cancel hdepth, List.range'_succ, Nat.add_sub_cancel]

/-- A scalar kernel treats the first depth in its own way and adds the products of the others. -/
theorem ScalarKernel.element_eq_chain (beta : Single) {depth : Nat} (hdepth : 0 < depth)
    (x y : Nat → Single) (old : Single) : element beta depth x y old =
      (List.range' 1 (depth - 1)).foldl (fun value p ↦ (x p).fma (y p) value)
        (if beta.isZero then (x 0).mul (y 0) else (x 0).fma (y 0) (beta.mul old)) := by
  have hfirst : advance beta 0 (x 0) (y 0) old =
      if beta.isZero then (x 0).mul (y 0) else (x 0).fma (y 0) (beta.mul old) :=
    if_neg (Nat.lt_irrefl 0)
  rw [element, range_eq_zero_cons hdepth, List.foldl_cons, hfirst]
  refine List.foldl_ext _ _ _ fun value p hp ↦ ?_
  exact if_pos (List.mem_range'_1.mp hp).1

/-- A scalar kernel looks at the old element only at the first depth, and only if the factor of
the old output is not zero. -/
theorem ScalarKernel.element_congr_of_isZero {beta beta' : Single} {depth : Nat}
    (hdepth : 0 < depth) (hbeta : beta.isZero = true) (hbeta' : beta'.isZero = true)
    (x y : Nat → Single) (old old' : Single) :
    element beta depth x y old = element beta' depth x y old' := by
  rw [element_eq_chain beta hdepth, element_eq_chain beta' hdepth, if_pos hbeta, if_pos hbeta']

theorem Engine.mergeElement_of_isZero {beta : Single} (hbeta : beta.isZero = true)
    (old staged : Single) : mergeElement beta old staged = staged :=
  if_pos hbeta

/-- Without a factor of the old output the value of an element is the product. -/
theorem Kernel.element_of_isZero (kernel : Kernel) {beta : Single} (hbeta : beta.isZero = true)
    {depth : Nat} (hdepth : 0 < depth) (x y : Nat → Single) (old : Single) :
    kernel.element beta depth x y old = kernel.product depth x y := by
  have hzero : (Binary.zero : Single).isZero = true := rfl
  cases kernel with
  | scalar rows => exact ScalarKernel.element_congr_of_isZero hdepth hbeta hzero x y old .zero
  | vector lanes rows =>
    simp only [product, element, Engine.mergeElement_of_isZero hbeta,
      Engine.mergeElement_of_isZero hzero]

end PanelGemm
