import PanelGemm.Proofs.Binary.ZeroSign
import PanelGemm.Proofs.Engine.BuiltIn
import PanelGemm.Proofs.Panel.Packing

/-!
# Agreement of the kernels

A scalar kernel starts a sum with its first product, and a vector kernel adds that product to
positive zero. The two differ only if the product is negative zero, so the kernels agree up to the
sign of zero (`Kernel.product_agree`). If the products of a request fit into one K-block and the old
output does not count, every element of the output is such a sum, whichever tile it lies in and
whichever way it goes. Two engines then agree on it as their kernels do, on panels of any levels and
block heights that are packed from the same operand (`Engine.run_agree`).
-/

set_option autoImplicit false
set_option relaxedAutoImplicit false

namespace PanelGemm

/-! ### The kernels -/

/-- A scalar kernel and a vector kernel take the first product in their own ways and add the others
alike. -/
theorem ScalarKernel.element_agree_sum {depth : Nat} (hdepth : 0 < depth) (x y : Nat → Single)
    (old : Single) :
    (element .zero depth x y old).AgreeUpToZero (VectorKernel.sum depth x y) := by
  have hfirst : ((x 0).mul (y 0)).AgreeUpToZero ((x 0).fma (y 0) .zero) :=
    (Binary.fma_of_isZero (x 0) (y 0) rfl).symm
  have hzero : (Binary.zero : Single).isZero = true := rfl
  rw [element_eq_chain .zero hdepth, if_pos hzero, VectorKernel.sum, range_eq_zero_cons hdepth,
    List.foldl_cons]
  exact hfirst.chain (List.range' 1 (depth - 1))

/-- All kernels compute the same product up to the sign of zero. -/
theorem Kernel.product_agree (kernel kernel' : Kernel) {depth : Nat} (hdepth : 0 < depth)
    (x y : Nat → Single) :
    (kernel.product depth x y).AgreeUpToZero (kernel'.product depth x y) := by
  have hsum : ∀ kernel : Kernel,
      (kernel.product depth x y).AgreeUpToZero (VectorKernel.sum depth x y) := by
    intro kernel
    cases kernel with
    | scalar rows => exact ScalarKernel.element_agree_sum hdepth x y .zero
    | vector lanes rows => exact .refl _
  exact (hsum kernel).trans (hsum kernel').symm

example : (Kernel.scalar 1).product 1 (fun _ ↦ Binary.signedZero true) (fun _ ↦ .one) =
    Binary.signedZero true := by decide +kernel

example : (Kernel.vector 8 1).product 1 (fun _ ↦ Binary.signedZero true) (fun _ ↦ .one) =
    Binary.signedZero false := by decide +kernel

/-- A request with another panel, into an output of its own. -/
def Request.withPanel (request : Request) (panel : Panel) (outputStride : Nat) (beta : Single) :
    Request :=
  { request with
    panel := panel
    outputStride := outputStride
    beta := beta }

namespace Engine

open Packing

/-! ### A single K-block -/

section SingleBlock

variable {engine : Engine} {request : Request} {level : Level} {source : Source} {blockRows : Nat}

/-- In a single K-block, and if the old output does not count, an element gets the product of its
row and its column. -/
theorem tileElement_single (hpacked : request.panel.IsPacked level source blockRows)
    (hrows : 0 < source.rows) (hle : source.rows ≤ blockRows) (hbeta : request.beta.isZero = true)
    (tile : Tile) (row : Nat) {column : Nat} (hcolumn : column < source.columns) (old : Single) :
    tileElement engine request tile row column old =
      (Kernel.ofLevel engine.level tile.kernelRows).product source.rows (request.factor row)
        fun p ↦ source.stored (p, column) := by
  have hheight : request.panel.shape.rows ≤ request.panel.shape.blockRows := by
    rw [hpacked.rows, hpacked.blockRows]
    exact hle
  have hstarts : request.panel.shape.blockStarts = [0] :=
    request.panel.shape.blockStarts_of_le (hpacked.rows ▸ hrows) hheight
  have hdepth : request.panel.shape.blockDepth 0 = source.rows :=
    (request.panel.shape.blockDepth_of_le hheight).trans hpacked.rows
  have hzero : (blockBeta request 0).isZero = true := hbeta
  have hmem : 0 ∈ request.panel.shape.blockStarts := by
    rw [hstarts]
    exact List.mem_singleton_self 0
  rw [tileElement, hstarts, List.foldl_cons, List.foldl_nil,
    blockElement_of_isZero _ hmem hzero, blockProduct, hdepth]
  refine Kernel.product_congr _ (fun p _ ↦ ?_) fun p hp ↦ ?_
  · rw [Nat.zero_add]
  · rw [Nat.zero_add]
    exact hpacked.entry_eq hp hcolumn

/-- A run on a single K-block succeeds if the old output does not count, and every element of its
output is the product of its row and its column on one of the kernels. -/
theorem exists_products {output : Array Single} {threads : Nat}
    (hfamily : engine.family.BuiltIn ∨ engine.Prepared request)
    (hexact : request.CountsExactly) (hresident : request.Resident output.size)
    (hm : 0 < request.m) (hrows : 0 < source.rows) (hcolumns : 0 < source.columns)
    (hle : source.rows ≤ blockRows) (hbeta : request.beta.isZero = true) (hthreads : 0 < threads)
    (hcheck : engine.check request output.size = .ok ())
    (hpacked : request.panel.IsPacked level source blockRows) :
    ∃ stats, (engine.run request output threads).result = .ok stats ∧
      ∀ i < request.m, ∀ j < source.columns, ∃ kernel : Kernel,
        (engine.run request output threads).output[i * request.outputStride + j]? =
          some (kernel.product source.rows (request.factor i) fun p ↦ source.stored (p, j)) := by
  have hk : request.k = source.rows := hpacked.rows
  have hn : request.n = source.columns := hpacked.columns
  have hadmits := admits_of_check hcheck hexact hresident hm (hk ▸ hrows) (hn ▸ hcolumns)
  obtain ⟨tiles, -, hstacked, hrun⟩ :=
    exists_tiles hthreads hcheck hadmits (hadmits.prepared hfamily)
  rw [hrun]
  refine ⟨_, rfl, fun i hi j hj ↦ ?_⟩
  obtain ⟨old, -, tile, -, hvalue⟩ := element_of_stacked hadmits hstacked hi (hn ▸ hj)
  rw [tileElement_single hpacked hrows hle hbeta tile i hj] at hvalue
  exact ⟨_, hvalue⟩

end SingleBlock

/-- Two engines agree up to the sign of zero if nothing is accumulated onto the output: the products
of the request fit into one K-block, and the factor of the old output is a zero of either sign. The
two panels are packed from the same operand, possibly for different levels and with K-blocks of
different heights, and the outputs, their strides and the numbers of threads may differ. Both
packings and both checks count exactly. -/
theorem run_agree (first second : Engine) (request : Request) (panel : Panel)
    (outputStride : Nat) (beta : Single) (output output' : Array Single) (threads threads' : Nat)
    (level level' : Level) (source : Source) (blockRows blockRows' : Nat)
    (hfirst : first.family.BuiltIn ∨ first.Prepared request)
    (hsecond : second.family.BuiltIn ∨
      second.Prepared (request.withPanel panel outputStride beta))
    (hpack : Panel.pack request.arithmetic level source blockRows = .ok request.panel)
    (hpack' : Panel.pack request.arithmetic level' source blockRows' = .ok panel)
    (hsource : source.CountsExactly request.arithmetic level blockRows)
    (hsource' : source.CountsExactly request.arithmetic level' blockRows')
    (hexact : request.CountsExactly)
    (hexact' : (request.withPanel panel outputStride beta).CountsExactly)
    (hresident : request.Resident output.size)
    (hresident' : (request.withPanel panel outputStride beta).Resident output'.size)
    (hm : 0 < request.m) (hrows : 0 < source.rows) (hcolumns : 0 < source.columns)
    (hle : source.rows ≤ blockRows) (hle' : source.rows ≤ blockRows')
    (hbeta : request.beta.isZero = true) (hbeta' : beta.isZero = true)
    (hthreads : 0 < threads) (hthreads' : 0 < threads')
    (hcheck : first.check request output.size = .ok ())
    (hcheck' : second.check (request.withPanel panel outputStride beta) output'.size = .ok ()) :
    ∃ stats stats', (first.run request output threads).result = .ok stats ∧
      (second.run (request.withPanel panel outputStride beta) output' threads').result =
        .ok stats' ∧
      ∀ i < request.m, ∀ j < source.columns, ∃ x y,
        (first.run request output threads).output[i * request.outputStride + j]? = some x ∧
        (second.run (request.withPanel panel outputStride beta)
          output' threads').output[i * outputStride + j]? = some y ∧
        x.AgreeUpToZero y := by
  obtain ⟨-, -, -, hpacked⟩ := (Panel.pack_eq_ok hsource).mp hpack
  obtain ⟨-, -, -, hpacked'⟩ := (Panel.pack_eq_ok hsource').mp hpack'
  obtain ⟨stats, hresult, helements⟩ := exists_products hfirst hexact hresident hm hrows hcolumns
    hle hbeta hthreads hcheck hpacked
  obtain ⟨stats', hresult', helements'⟩ := exists_products hsecond hexact' hresident' hm hrows
    hcolumns hle' hbeta' hthreads' hcheck' hpacked'
  refine ⟨stats, stats', hresult, hresult', fun i hi j hj ↦ ?_⟩
  obtain ⟨kernel, hvalue⟩ := helements i hi j hj
  obtain ⟨kernel', hvalue'⟩ := helements' i hi j hj
  exact ⟨_, _, hvalue, hvalue', kernel.product_agree kernel' hrows _ _⟩

/-- An operand of a single one. -/
def unitSource : Source := ⟨#[.one], .plain, 1, 1, 1, .one⟩

theorem unitSource_countsExactly (level : Level) {blockRows : Nat} :
    unitSource.CountsExactly .wrapping level blockRows := by
  have hcolumn : level.blockWidth < Word.limit := by cases level <;> decide
  have hrows : min blockRows unitSource.rows * level.blockWidth ≤ level.blockWidth := by
    have hone : min blockRows unitSource.rows * level.blockWidth ≤ 1 * level.blockWidth :=
      Nat.mul_le_mul_right _ (Nat.min_le_right _ _)
    rwa [Nat.one_mul] at hone
  refine .inr ⟨.inr (.inr (.inr (by decide))), Nat.lt_of_le_of_lt hrows hcolumn, ?_⟩
  cases level <;> decide

/-- The panel of that operand for a level. -/
def unitPanel (level : Level) (blockRows : Nat) (hpos : 0 < blockRows) : Panel :=
  ⟨⟨level, 1, 1, blockRows, hpos⟩, .one,
    (Binary.one :: List.replicate (level.blockWidth - 1) .zero).toArray⟩

/-- A negative zero times that operand, which overwrites the old output. -/
def negativeZeroRequest : Request where
  arithmetic := .wrapping
  m := 1
  left := #[.signedZero true]
  orientation := .plain
  leftStride := 1
  panel := unitPanel .avx2 1 Nat.one_pos
  outputStride := 1
  alpha := .one
  beta := .zero

/-- The vector kernels with the widest registers. -/
def widestEngine : Engine := ⟨Family.upTo .avx512 Family.wideRows⟩

/-- A negative zero times one on the scalar kernels and on vector kernels. -/
theorem run_agree_negative_zero :
    ∃ x y, (scalar.run negativeZeroRequest #[.nan] 2).output[0]? = some x ∧
      (widestEngine.run (negativeZeroRequest.withPanel (unitPanel .avx512 2 (by decide)) 3
        (.signedZero true)) #[.one] 1).output[0]? = some y ∧
      x.AgreeUpToZero y := by
  obtain ⟨-, -, -, -, hagree⟩ := run_agree scalar widestEngine negativeZeroRequest
    (unitPanel .avx512 2 (by decide)) 3 (.signedZero true) #[.nan] #[.one] 2 1 .avx2 .avx512
    unitSource 1 2 (.inl (.inl rfl)) (.inl (.inr ⟨.avx512, rfl⟩)) (by rfl) (by rfl)
    (unitSource_countsExactly .avx2) (unitSource_countsExactly .avx512)
    (.inr (.inr ⟨.inr (.inr (.inr (by decide))), .inr (.inr (.inr (by decide)))⟩))
    (.inr (.inr ⟨.inr (.inr (.inr (by decide))), .inr (.inr (.inr (by decide)))⟩))
    ⟨⟨by decide, by decide⟩, by decide, by decide, by decide⟩
    ⟨⟨by decide, by decide⟩, by decide, by decide, by decide⟩
    (by decide) (by decide) (by decide) (by decide) (by decide) (by decide) (by decide) (by decide)
    (by decide) (by rfl) (by rfl)
  exact hagree 0 (by decide) 0 (by decide)

/-- Two engines whose checks pass because counts wrap around do not come to elements that could
agree: in place a kernel goes wild, and by way of the staging area the merge panics. -/
theorem run_agree_past_words : ∃ panel panel',
    let source : Source := ⟨Array.replicate 34 .one, .plain, 17, 2, 17, .one⟩
    let request := (Request.distantRows .wrapping 3).withPanel panel (2 ^ 63) .zero
    let request' := (Request.distantRows .wrapping 3).withPanel panel' (2 ^ 63) .zero
    let output := Array.replicate 17 Binary.zero
    Panel.pack .wrapping .avx2 source 2 = .ok panel ∧
      Panel.pack .wrapping .avx512 source 2 = .ok panel' ∧
      scalar.check request 17 = .ok () ∧ widestEngine.check request' 17 = .ok () ∧
      (scalar.run request output 1).result = .error .wild ∧
      (widestEngine.run request' output 1).result = .error .panicked :=
  ⟨_, _, rfl, rfl, by decide +kernel, by decide +kernel, by decide +kernel, by decide +kernel⟩

end Engine

end PanelGemm
