import PanelGemm.Proofs.Kernel.Contract

/-!
# The elements of a kernel call

What a call of a kernel computes, one element at a time and in terms of the positions of its
operands. A vector kernel works through a block with two registers for every row, and a scalar
kernel sweeps over it once for every depth; but each element of the window is left as if it were
alone. A vector kernel sums the products of its row and its column up from positive zero and merges
the sum with the old element (`MicroCall.merged`). A scalar kernel lets the first product replace
the old element, or adds it to the scaled one, and goes on from there (`MicroCall.chained`); without
any depth it has no first product and leaves everything as it is.

A vector kernel does not ask a call for the width of its column blocks, so its calls are read with
the width of the level (`MicroCall.withWidth`).
-/

set_option autoImplicit false
set_option relaxedAutoImplicit false

namespace PanelGemm

namespace MicroCall

/-- A call with another width of its column blocks. -/
def withWidth (call : MicroCall) (width : Nat) : MicroCall := { call with width }

/-- The position of an output element, given by its row, its column block and its column there. -/
def position (call : MicroCall) (i block j : Nat) : Nat :=
  call.origin + (i * call.stride + (block * call.width + j))

/-- The operands are large enough for a call of a given height: the packed strip, the packed
blocks, and a buffer of a given size for the output, whose rows do not run into one another. -/
structure Fits (call : MicroCall) (rows size : Nat) : Prop where
  left : call.depth * rows ≤ call.left.size
  right : call.blocks * (call.depth * call.width) ≤ call.right.size
  columns : call.blocks * call.width ≤ call.stride
  output : ∀ i < rows, ∀ block < call.blocks, ∀ j < call.width, call.position i block j < size

/-- A call leaves every element of its window as a function of the old one, and everything else as
it was. -/
structure Leaves (call : MicroCall) (rows : Nat) (value : Nat → Nat → Nat → Single → Single)
    (output result : Array Single) : Prop where
  size : result.size = output.size
  element : ∀ i < rows, ∀ block < call.blocks, ∀ j < call.width, ∃ old,
    output[call.position i block j]? = some old ∧
      result[call.position i block j]? = some (value i block j old)
  kept : ∀ q, (∀ i < rows, ∀ block < call.blocks, ∀ j < call.width, q ≠ call.position i block j) →
    result[q]? = output[q]?

/-- Two buffers are the same on the window of a call. -/
def SameWindow (call : MicroCall) (rows : Nat) (result other : Array Single) : Prop :=
  ∀ i < rows, ∀ block < call.blocks, ∀ j < call.width,
    result[call.position i block j]? = other[call.position i block j]?

/-- The products of a row and a column, added one after another to positive zero. -/
def accumulated (call : MicroCall) (rows i block j : Nat) : Single :=
  (List.range call.depth).foldl
    (fun acc p ↦ (call.left.getD (p * rows + i) .zero).fma
      (call.right.getD ((block * call.depth + p) * call.width + j) .zero) acc) .zero

/-- What a vector kernel makes of an old element: it is replaced by the sum of the products, or
scaled and added to it by one fused multiply-add. -/
def merged (call : MicroCall) (rows i block j : Nat) (old : Single) : Single :=
  if call.beta.isZero then call.accumulated rows i block j
  else call.beta.fma old (call.accumulated rows i block j)

/-- What a scalar kernel makes of an old element: it is replaced by the first product, or scaled and
the first product added to it, and the other products are added to what this gives. -/
def chained (call : MicroCall) (rows i block j : Nat) (old : Single) : Single :=
  let x := fun p ↦ call.left.getD (p * rows + i) .zero
  let y := fun p ↦ call.right.getD ((block * call.depth + p) * call.width + j) .zero
  (List.range' 1 (call.depth - 1)).foldl (fun value p ↦ (x p).fma (y p) value)
    (if call.beta.isZero then (x 0).mul (y 0) else (x 0).fma (y 0) (call.beta.mul old))

variable {call : MicroCall} {rows size : Nat} {output result other result' : Array Single}
  {value : Nat → Nat → Nat → Single → Single}

/-- A call whose operands are large enough and that has columns at all is bounded. -/
theorem Fits.bounded (h : call.Fits rows size) (hblocks : 0 < call.blocks)
    (hwidth : 0 < call.width) : call.Bounded rows size := by
  refine ⟨h.left, h.right, h.columns, fun i hi ↦ ?_⟩
  -- the last element of a row lies in the buffer, so the row ends there at the latest
  have hlast := h.output i hi (call.blocks - 1) (by omega) (call.width - 1) (by omega)
  have hsplit : call.blocks * call.width = (call.blocks - 1) * call.width + call.width := by
    rw [← Nat.succ_mul, Nat.succ_eq_add_one, Nat.sub_add_cancel hblocks]
  rw [position] at hlast
  omega

/-- An elementwise computation on the window of a call, told by the column blocks. -/
theorem leaves_rewrite (hfits : call.Fits rows output.size)
    (value : Nat → Nat → Nat → Single → Single) :
    call.Leaves rows value output (output.mapIdx ((call.window rows).rewrite
      fun i c ↦ value i (c / call.width) (c % call.width))) := by
  refine ⟨Array.size_mapIdx, fun i hi block hblock j hj ↦ ?_, fun q hq ↦ ?_⟩
  · have hlt := hfits.output i hi block hblock j hj
    obtain ⟨hdiv, hmod⟩ := offset_div_mod hj block
    refine ⟨output[call.position i block j], Array.getElem?_eq_getElem hlt, ?_⟩
    rw [Array.getElem?_mapIdx, Array.getElem?_eq_getElem hlt, Option.map_some]
    have hat : (call.window rows).rewrite (fun i c ↦ value i (c / call.width) (c % call.width))
        (call.position i block j) output[call.position i block j] =
          value i ((block * call.width + j) / call.width) ((block * call.width + j) % call.width)
            output[call.position i block j] :=
      Window.rewrite_position hi (offset_lt hblock hj) hfits.columns _ _
    rw [hat, hdiv, hmod]
  · have hkept : (call.window rows).rewrite
        (fun i c ↦ value i (c / call.width) (c % call.width)) q = id := by
      ext x
      apply Window.rewrite_of_forall_ne
      intro i hi c hc
      have hwidth : 0 < call.width := Nat.pos_of_mul_pos_left (Nat.zero_lt_of_lt hc)
      have hne := hq i hi (c / call.width) (Nat.div_lt_of_lt_mul (by rwa [Nat.mul_comm]))
        (c % call.width) (Nat.mod_lt c hwidth)
      rwa [position, Nat.div_add_mod' c call.width] at hne
    simp [hkept]

/-- Values that do not depend on the old elements are the same whatever these were. -/
theorem Leaves.sameWindow (h : call.Leaves rows value output result)
    (h' : call.Leaves rows value other result')
    (hvalue : ∀ i block j old old', value i block j old = value i block j old') :
    call.SameWindow rows result result' := by
  intro i hi block hblock j hj
  obtain ⟨old, -, hnew⟩ := h.element i hi block hblock j hj
  obtain ⟨old', -, hnew'⟩ := h'.element i hi block hblock j hj
  rw [hnew, hnew', hvalue i block j old old']

end MicroCall

namespace Kernel

/-- The width of the column blocks of the levels that have vector kernels. The two levels with
registers of eight lanes share one kernel. -/
inductive VectorWidth : Level → Nat → Prop
  | avx2 : VectorWidth .avx2 16
  | avx512Ymm : VectorWidth .avx512Ymm 16
  | avx512 : VectorWidth .avx512 32

variable {call : MicroCall} {rows : Nat} {output other : Array Single}

/-- A call whose operands are large enough leaves every element of its window as the kernel
computes it. -/
theorem exists_leaves (kernel : Kernel) (htakes : kernel.Takes call.width)
    (hwidth : 0 < call.width) (hfits : call.Fits kernel.rows output.size) :
    ∃ result, kernel.run call output = some result ∧
      call.Leaves kernel.rows (fun i block j ↦ kernel.element call.beta call.depth
        (call.factor kernel.rows i) (call.weight block j)) output result := by
  rcases Nat.eq_zero_or_pos call.blocks with hblocks | hblocks
  · refine ⟨output, ?_, rfl, ?_, fun _ _ ↦ rfl⟩
    · cases kernel with
      | scalar rows => simp [run, ScalarKernel.run, hblocks]
      | vector lanes rows => simp [run, VectorKernel.run, hblocks]
    · simp [hblocks]
  · exact ⟨_, kernel.run_eq htakes (hfits.bounded hblocks hwidth), MicroCall.leaves_rewrite hfits _⟩

theorem element_scalar (hdepth : 0 < call.depth) (i block j : Nat) (old : Single) :
    (scalar rows).element call.beta call.depth (call.factor rows i) (call.weight block j) old =
      call.chained rows i block j old :=
  ScalarKernel.element_eq_chain call.beta hdepth _ _ old

/-- A scalar kernel without any depth leaves its output as it is. -/
theorem run_scalar_of_depth (hdepth : call.depth = 0) :
    (scalar rows).run call output = some output := by
  have hblock : ScalarKernel.updateBlock rows call = fun output _ ↦ pure output := by
    ext output block
    simp [ScalarKernel.updateBlock, hdepth]
  rw [run, ScalarKernel.run, hblock, List.foldlM_pure, List.foldl_fixed]
  rfl

/-- A vector kernel does not look at the width in its call. -/
theorem run_vector_withWidth (call : MicroCall) (lanes rows width : Nat) (output : Array Single) :
    (vector lanes rows).run (call.withWidth width) output = (vector lanes rows).run call output :=
  rfl

/-- The kernels of the vector levels. -/
theorem VectorWidth.exists_lanes {level : Level} {width : Nat} (h : VectorWidth level width)
    (rows : Nat) : ∃ lanes, ofLevel level rows = vector lanes rows ∧ width = 2 * lanes ∧
      0 < width := by
  cases h
  · exact ⟨8, rfl, rfl, by decide⟩
  · exact ⟨8, rfl, rfl, by decide⟩
  · exact ⟨16, rfl, rfl, by decide⟩

/-- Every call of a vector kernel whose operands are large enough merges the sums of products with
the old elements of its window. -/
theorem exists_merged {level : Level} {width : Nat} (h : VectorWidth level width)
    (hfits : (call.withWidth width).Fits rows output.size) :
    ∃ result, (ofLevel level rows).run call output = some result ∧
      (call.withWidth width).Leaves rows ((call.withWidth width).merged rows) output result := by
  obtain ⟨lanes, hkernel, hlanes, hwidth⟩ := h.exists_lanes rows
  rw [hkernel, ← run_vector_withWidth call lanes rows width]
  -- `merged` is the value of a vector kernel with the definition of the sum unfolded
  exact exists_leaves (vector lanes rows) hlanes hwidth hfits

/-- Every call of a scalar kernel whose operands are large enough and that has a depth chains the
products onto the old elements of its window. -/
theorem exists_chained (hwidth : 0 < call.width) (hdepth : 0 < call.depth)
    (hfits : call.Fits rows output.size) :
    ∃ result, (ofLevel .baseline rows).run call output = some result ∧
      call.Leaves rows (call.chained rows) output result := by
  have hvalue : (fun i block j ↦ (scalar rows).element call.beta call.depth (call.factor rows i)
      (call.weight block j)) = call.chained rows := by
    ext i block j old
    rw [element_scalar hdepth]
  rw [← hvalue]
  exact exists_leaves (scalar rows) trivial hwidth hfits

/-- A call of a kernel whose operands are large enough stays inside them and computes the elements
of its window one by one. A vector kernel merges the sum of the products with the old element; a
scalar kernel chains the products onto it, and without any depth it changes nothing. The rest of the
output is kept. With a zero factor of the old output the old elements do not matter, except for a
scalar kernel without any depth. -/
theorem run_computes_window (rows : Nat) (call : MicroCall) (output : Array Single) :
    (∀ level width, VectorWidth level width → (call.withWidth width).Fits rows output.size →
      ∃ result, (ofLevel level rows).run call output = some result ∧
        (call.withWidth width).Leaves rows ((call.withWidth width).merged rows) output result ∧
        (call.beta.isZero = true → ∀ other : Array Single, other.size = output.size →
          ∃ result', (ofLevel level rows).run call other = some result' ∧
            (call.withWidth width).SameWindow rows result result')) ∧
    (0 < call.width → call.Fits rows output.size →
      ∃ result, (ofLevel .baseline rows).run call output = some result ∧
        (call.depth = 0 → result = output) ∧
        (0 < call.depth → call.Leaves rows (call.chained rows) output result ∧
          (call.beta.isZero = true → ∀ other : Array Single, other.size = output.size →
            ∃ result', (ofLevel .baseline rows).run call other = some result' ∧
              call.SameWindow rows result result'))) := by
  constructor
  · intro level width hlevel hfits
    obtain ⟨result, hrun, hleaves⟩ := exists_merged hlevel hfits
    refine ⟨result, hrun, hleaves, fun hbeta other hsize ↦ ?_⟩
    rw [← hsize] at hfits
    obtain ⟨result', hrun', hleaves'⟩ := exists_merged hlevel hfits
    refine ⟨result', hrun', hleaves.sameWindow hleaves' fun i block j old old' ↦ ?_⟩
    have hzero : (call.withWidth width).beta.isZero = true := hbeta
    simp only [MicroCall.merged, if_pos hzero]
  · intro hwidth hfits
    rcases Nat.eq_zero_or_pos call.depth with hdepth | hdepth
    · refine ⟨output, run_scalar_of_depth hdepth, fun _ ↦ rfl, fun hpos ↦ ?_⟩
      omega
    · obtain ⟨result, hrun, hleaves⟩ := exists_chained hwidth hdepth hfits
      refine ⟨result, hrun, fun hzero ↦ by omega, fun _ ↦ ⟨hleaves, fun hbeta other hsize ↦ ?_⟩⟩
      rw [← hsize] at hfits
      obtain ⟨result', hrun', hleaves'⟩ := exists_chained hwidth hdepth hfits
      refine ⟨result', hrun', hleaves.sameWindow hleaves' fun i block j old old' ↦ ?_⟩
      simp only [MicroCall.chained, if_pos hbeta]

/-- Without any depth a vector kernel clears its window and a scalar kernel does not. With one depth
a scalar kernel adds the only product to the scaled old element. -/
theorem run_computes_window_depthless :
    (∃ result,
      (ofLevel .avx2 1).run ⟨0, #[], #[], .zero, 0, 16, 1, 16⟩ (.replicate 17 (.ofNat 5)) =
        some result ∧ result[3]? = some .zero ∧ result[16]? = some (.ofNat 5)) ∧
    (ofLevel .baseline 1).run ⟨0, #[], #[], .zero, 0, 16, 1, 16⟩ (.replicate 17 (.ofNat 5)) =
      some (.replicate 17 (.ofNat 5)) ∧
    ∃ result,
      (ofLevel .baseline 1).run ⟨1, #[.ofNat 2], #[.ofNat 3, .ofNat 4], .one, 0, 2, 1, 2⟩
        #[.ofNat 5, .ofNat 6] = some result ∧ result[1]? = some (.ofNat 14) := by
  have hfits : (⟨0, #[], #[], .zero, 0, 16, 1, 16⟩ : MicroCall).Fits 1 17 :=
    ⟨by decide, by decide, by decide, by decide⟩
  obtain ⟨hvector, hscalar⟩ := run_computes_window 1 ⟨0, #[], #[], .zero, 0, 16, 1, 16⟩
    (.replicate 17 (.ofNat 5))
  obtain ⟨result, hrun, hleaves, -⟩ := hvector .avx2 16 .avx2 hfits
  obtain ⟨old, -, hcleared⟩ := hleaves.element 0 (by decide) 0 (by decide) 3 (by decide)
  obtain ⟨kept, hkept, hsame, -⟩ := hscalar (by decide) hfits
  obtain ⟨-, hone⟩ := run_computes_window 1
    ⟨1, #[.ofNat 2], #[.ofNat 3, .ofNat 4], .one, 0, 2, 1, 2⟩ #[.ofNat 5, .ofNat 6]
  obtain ⟨chained, hchained, -, hdepth⟩ := hone (by decide)
    ⟨by decide, by decide, by decide, by decide⟩
  obtain ⟨six, hsix, hsum⟩ := (hdepth (by decide)).1.element 0 (by decide) 0 (by decide) 1
    (by decide)
  cases hsix
  refine ⟨⟨result, hrun, hcleared, ?_⟩, hsame rfl ▸ hkept, chained, hchained, hsum.trans ?_⟩
  · exact hleaves.kept 16 (by decide)
  · decide

end Kernel

end PanelGemm
