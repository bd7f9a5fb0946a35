import PanelGemm.Proofs.Engine.BuiltIn

/-!
# The product on vector kernels

On vector kernels the way that an element goes does not matter: in place, through a ragged column
block or through a masked tile, a K-block sums its products from positive zero on and the sum is
merged with the old element once. `Request.folded` is this fold over the K-blocks, and
`Engine.run_vector_kernels` says that a run leaves nothing else.
-/

set_option autoImplicit false
set_option relaxedAutoImplicit false

namespace PanelGemm

namespace Request

/-- The products of a row and a column over the K-block that starts at a given row, each added by a
fused multiply-add, from positive zero on. -/
def blockSum (request : Request) (row column start : Nat) : Single :=
  (List.range (request.panel.shape.blockDepth start)).foldl (fun sum p ↦
    (request.factor row (start + p)).fma (request.panel.entry (start + p) column) sum) .zero

/-- An old element updated K-block by K-block: replaced by the sum of the K-block if the factor of
the old output is zero, and merged with it by one fused multiply-add otherwise. The first K-block
sees the caller's factor, the others see one. -/
def folded (request : Request) (row column : Nat) (old : Single) : Single :=
  request.panel.shape.blockStarts.foldl (fun old start ↦
    let beta := if start = 0 then request.beta else .one
    if beta.isZero then request.blockSum row column start
    else beta.fma old (request.blockSum row column start)) old

end Request

namespace Engine

variable {engine : Engine} {request : Request}

/-- Every level but the baseline has vector kernels. -/
theorem ofLevel_of_ne_baseline {level : Level} (h : level ≠ .baseline) (rows : Nat) :
    Kernel.ofLevel level rows = .vector level.lanes rows := by
  cases level with
  | baseline => exact absurd rfl h
  | _ => rfl

/-- On a vector kernel every element is merged with the sum of its K-block, whichever way it
goes. -/
theorem blockElement_vector (lanes rows : Nat) (masked : Bool) (start row column : Nat)
    (old : Single) :
    blockElement (.vector lanes rows) request masked start row column old =
      mergeElement (blockBeta request start) old (request.blockSum row column start) := by
  have hzero : (Binary.zero : Single).isZero = true := rfl
  have hproduct : blockProduct (.vector lanes rows) request start row column =
      request.blockSum row column start := mergeElement_of_isZero hzero .zero _
  unfold blockElement
  rw [hproduct]
  split_ifs
  · rfl
  · rfl

/-- A tile of vector kernels folds every element over the K-blocks. -/
theorem tileElement_vector (hlevel : engine.level ≠ .baseline) (tile : Tile) (row column : Nat)
    (old : Single) :
    tileElement engine request tile row column old = request.folded row column old := by
  unfold tileElement
  rw [ofLevel_of_ne_baseline hlevel]
  refine List.foldl_ext _ _ old fun old start _ ↦ ?_
  exact blockElement_vector _ _ _ _ _ _ old

/-- A run on vector kernels succeeds on every request that passes a check that counts exactly. Every
element of the output is then the fold of the old one over the K-blocks, and the rest of the buffer
is as before. The family is built in, or its steps cover the rows and the buffers that they need can
be had. -/
theorem run_vector_kernels (engine : Engine) (request : Request) (output : Array Single)
    (threads : Nat) (hlevel : engine.level ≠ .baseline)
    (hfamily : engine.family.BuiltIn ∨ engine.Prepared request)
    (hexact : request.CountsExactly) (hresident : request.Resident output.size)
    (hm : 0 < request.m) (hk : 0 < request.k) (hn : 0 < request.n) (hthreads : 0 < threads)
    (hcheck : engine.check request output.size = .ok ()) :
    ∃ stats, (engine.run request output threads).result = .ok stats ∧
      (engine.run request output threads).output.size = output.size ∧
      (∀ i < request.m, ∀ j < request.n, ∃ old,
        output[i * request.outputStride + j]? = some old ∧
        (engine.run request output threads).output[i * request.outputStride + j]? =
          some (request.folded i j old)) ∧
      ∀ q, (∀ i < request.m, ∀ j < request.n, q ≠ i * request.outputStride + j) →
        (engine.run request output threads).output[q]? = output[q]? := by
  have hadmits := admits_of_check hcheck hexact hresident hm hk hn
  obtain ⟨tiles, -, hstacked, hrun⟩ :=
    exists_tiles hthreads hcheck hadmits (hadmits.prepared hfamily)
  rw [hrun]
  refine ⟨stats request tiles, rfl, Array.size_mapIdx, fun i hi j hj ↦ ?_, fun q hq ↦ ?_⟩
  · obtain ⟨old, hold, tile, -, hvalue⟩ := element_of_stacked hadmits hstacked hi hj
    rw [tileElement_vector hlevel] at hvalue
    exact ⟨old, hold, hvalue⟩
  · exact kept_of_stacked hstacked hq

/-- An engine that takes its tallest kernel for a single row, so its only tile is masked. -/
def maskedEngine : Engine :=
  ⟨Family.make (KernelTable.full .avx2 Family.narrowRows) Family.narrowRows (.fixed [⟨6, 1⟩])⟩

theorem prepared_maskedEngine : maskedEngine.Prepared .ones :=
  ⟨[⟨6, 1⟩], rfl, ⟨by decide, by decide, by decide, by decide⟩, by decide, by decide, by decide⟩

theorem run_vector_kernels_masked : ∃ stats,
    (maskedEngine.run .ones #[.one] 3).result = .ok stats ∧
      (maskedEngine.run .ones #[.one] 3).output[0]? = some (.ofNat 3) := by
  obtain ⟨stats, hresult, -, helements, -⟩ := run_vector_kernels maskedEngine .ones #[.one] 3
    (by decide) (.inr prepared_maskedEngine) Request.ones_countsExactly
    (Request.ones_resident (by decide)) (by decide) (by decide) (by decide) (by decide) (by rfl)
  obtain ⟨old, hold, hvalue⟩ := helements 0 (by decide) 0 (by decide)
  cases hold
  exact ⟨stats, hresult, hvalue.trans (by decide)⟩

/-- A request that passes the check because its count wraps around does not succeed. -/
theorem run_vector_kernels_past_words :
    let engine : Engine := ⟨.upTo .avx512Ymm Family.wideRows⟩
    engine.check (.distantRows .wrapping 3) 17 = .ok () ∧
      (engine.run (.distantRows .wrapping 3) (Array.replicate 17 .zero) 1).result =
        .error .wild :=
  ⟨by decide +kernel, by decide +kernel⟩

end Engine

end PanelGemm
