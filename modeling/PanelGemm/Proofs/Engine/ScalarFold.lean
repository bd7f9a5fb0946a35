import PanelGemm.Proofs.Engine.BuiltIn

/-!
# The product on the scalar kernels

On the scalar kernels the way that an element goes is decided by its column. In the full column
blocks a K-block carries the old element through a chain of fused multiply-adds; in the ragged last
one it starts a chain of its own with the first product and merges it with the old element at the
end. `Request.scalarFolded` is this fold over the K-blocks, and `Engine.run_scalar_kernels` says
that a run leaves nothing else: the loop over the depths, the rows and the columns of a tile, which
updates the whole tile once for every depth, cannot be told apart from one loop for each element.
-/

set_option autoImplicit false
set_option relaxedAutoImplicit false

namespace PanelGemm

namespace Request

/-- The products of a row and a column over the K-block that starts at a given row, from the second
one on, each added to a first value by a fused multiply-add. -/
def blockChain (request : Request) (row column start : Nat) (first : Single) : Single :=
  (List.range' 1 (request.panel.shape.blockDepth start - 1)).foldl (fun value p ↦
    (request.factor row (start + p)).fma (request.panel.entry (start + p) column) value) first

/-- An old element updated K-block by K-block. In a full column block the first product replaces
the old element or, if the factor of the old output is not zero, is added to the scaled one, and the
chain goes on from there. In the ragged last column block the chain starts with the first product,
and its end replaces the old element or is merged with it by one fused multiply-add. The first
K-block sees the caller's factor, the others see one. -/
def scalarFolded (request : Request) (row column : Nat) (old : Single) : Single :=
  request.panel.shape.blockStarts.foldl (fun old start ↦
    let beta := if start = 0 then request.beta else .one
    let x := request.factor row start
    let y := request.panel.entry start column
    if column < request.n / request.panel.width * request.panel.width then
      request.blockChain row column start (if beta.isZero then x.mul y else x.fma y (beta.mul old))
    else
      let sum := request.blockChain row column start (x.mul y)
      if beta.isZero then sum else beta.fma old sum) old

end Request

namespace Engine

variable {request : Request} {start : Nat}

/-- On a scalar kernel a K-block updates an element as its column says. -/
theorem blockElement_scalar (hstart : start ∈ request.panel.shape.blockStarts)
    (rows row column : Nat) (old : Single) :
    blockElement (.scalar rows) request false start row column old =
      if column < fullBlocks request * request.panel.width then
        request.blockChain row column start
          (if (blockBeta request start).isZero then
            (request.factor row start).mul (request.panel.entry start column)
          else (request.factor row start).fma (request.panel.entry start column)
            ((blockBeta request start).mul old))
      else mergeElement (blockBeta request start) old
        (request.blockChain row column start
          ((request.factor row start).mul (request.panel.entry start column))) := by
  have hchain := fun beta old ↦ ScalarKernel.element_eq_chain beta
    (PanelShape.blockDepth_pos hstart) (fun p ↦ request.factor row (start + p))
    (fun p ↦ request.panel.entry (start + p) column) old
  unfold blockElement
  by_cases hcolumn : column < fullBlocks request * request.panel.width
  · rw [if_pos hcolumn, if_neg (by simp [hcolumn])]
    exact hchain _ old
  -- the staging area is overwritten, as the kernel is given zero for its factor there
  · rw [if_neg hcolumn, if_pos (.inr (Nat.le_of_not_lt hcolumn))]
    exact congrArg (mergeElement (blockBeta request start) old) (hchain .zero .zero)

/-- A full tile of scalar kernels folds every element over the K-blocks. -/
theorem tileElement_scalar {tile : Tile} (hfull : tile.isMasked = false) (row column : Nat)
    (old : Single) :
    tileElement scalar request tile row column old = request.scalarFolded row column old := by
  unfold tileElement
  rw [hfull]
  refine List.foldl_ext _ _ old fun old start hstart ↦ ?_
  exact blockElement_scalar hstart tile.kernelRows row column old

/-- A run on the scalar kernels succeeds on every request that passes a check that counts exactly.
Every element of the output is then the fold of the old one over the K-blocks on the path of its
column, and the rest of the buffer is as before. -/
theorem run_scalar_kernels (request : Request) (output : Array Single) (threads : Nat)
    (hexact : request.CountsExactly) (hresident : request.Resident output.size)
    (hm : 0 < request.m) (hk : 0 < request.k) (hn : 0 < request.n) (hthreads : 0 < threads)
    (hcheck : scalar.check request output.size = .ok ()) :
    ∃ stats, (scalar.run request output threads).result = .ok stats ∧
      (scalar.run request output threads).output.size = output.size ∧
      (∀ i < request.m, ∀ j < request.n, ∃ old,
        output[i * request.outputStride + j]? = some old ∧
        (scalar.run request output threads).output[i * request.outputStride + j]? =
          some (request.scalarFolded i j old)) ∧
      ∀ q, (∀ i < request.m, ∀ j < request.n, q ≠ i * request.outputStride + j) →
        (scalar.run request output threads).output[q]? = output[q]? := by
  have hadmits := admits_of_check hcheck hexact hresident hm hk hn
  obtain ⟨steps, hcovers, hfull, -⟩ := covers_of_builtIn (.inl rfl) hadmits
  have hstacked := hcovers.tiling.stacked
  rw [run_eq hthreads hcheck hadmits hcovers]
  refine ⟨_, rfl, Array.size_mapIdx, fun i hi j hj ↦ ?_, fun q hq ↦ ?_⟩
  · obtain ⟨old, hold, tile, htile, hvalue⟩ := element_of_stacked hadmits hstacked hi hj
    rw [tileElement_scalar (hfull tile htile)] at hvalue
    exact ⟨old, hold, hvalue⟩
  · exact kept_of_stacked hstacked hq

theorem run_scalar_kernels_ones : ∃ stats,
    (scalar.run .ones #[.ofNat 5] 4).result = .ok stats ∧
      (scalar.run .ones #[.ofNat 5] 4).output[0]? = some (.ofNat 7) := by
  obtain ⟨stats, hresult, -, helements, -⟩ := run_scalar_kernels .ones #[.ofNat 5] 4
    Request.ones_countsExactly (Request.ones_resident (by decide)) (by decide) (by decide)
    (by decide) (by decide) (by rfl)
  obtain ⟨old, hold, hvalue⟩ := helements 0 (by decide) 0 (by decide)
  cases hold
  exact ⟨stats, hresult, hvalue.trans (by decide)⟩

/-- A request that passes the check because its count wraps around does not succeed. -/
theorem run_scalar_kernels_past_words :
    scalar.check (.distantRows .wrapping 3) 17 = .ok () ∧
      (scalar.run (.distantRows .wrapping 3) (Array.replicate 17 .zero) 1).result =
        .error .wild :=
  ⟨by decide +kernel, by decide +kernel⟩

end Engine

end PanelGemm
