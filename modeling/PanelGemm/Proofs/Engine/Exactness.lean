import PanelGemm.Proofs.Engine.BuiltIn
import PanelGemm.Proofs.Engine.Integers
import PanelGemm.Proofs.Matrix.Naive
import PanelGemm.Proofs.Panel.Layout

/-!
# Exact products

An `IntegerProduct` is a product of integer matrices, and a request is on its integers
(`Request.OnIntegers`) if its operands are these integers and no sum of their magnitudes is larger
than `2 ^ 24`. `Engine.run_integers` says that a run then computes the product without an error, and
so does the naive product of the same matrices. The kernels, the block height of the panel, the
tiles and the threads leave no trace in the result, not even between scalar and vector kernels.
-/

set_option autoImplicit false
set_option relaxedAutoImplicit false

namespace PanelGemm

open Finset

/-- The integers that a product is computed from. -/
structure IntegerProduct where
  alpha : Int
  beta : Int
  left : Nat → Nat → Int
  right : Nat → Nat → Int
  output : Nat → Nat → Int

namespace IntegerProduct

/-- The element of the product with inner extent `k` at a row and a column. -/
def element (product : IntegerProduct) (k i j : Nat) : Int :=
  product.beta * product.output i j +
    ∑ p ∈ range k, product.alpha * product.left i p * product.right p j

/-- The magnitudes of what is added up for an element, together. -/
def magnitude (product : IntegerProduct) (k i j : Nat) : Int :=
  |product.beta * product.output i j| +
    ∑ p ∈ range k, |product.alpha * product.left i p * product.right p j|

end IntegerProduct

namespace Request

/-- The operands of a request are the integers of a product, which are small enough for single
precision. The old output is only looked at if its factor is not zero. -/
structure OnIntegers (request : Request) (output : Array Single) (product : IntegerProduct) :
    Prop where
  alpha : request.alpha.IsInteger product.alpha
  beta : request.beta.IsInteger product.beta
  left : ∀ i < request.m, ∀ p < request.k, ∀ x ∈ request.left? i p,
    x.IsInteger (product.left i p)
  right : ∀ unpacked, request.panel.unpack request.arithmetic = .ok unpacked →
    ∀ p < request.k, ∀ j < request.n, ∀ y ∈ unpacked[p * request.n + j]?,
      y.IsInteger (product.right p j)
  output : product.beta ≠ 0 → ∀ i < request.m, ∀ j < request.n,
    ∀ old ∈ output[i * request.outputStride + j]?, old.IsInteger (product.output i j)
  factor_le : ∀ i < request.m, ∀ p < request.k, |product.alpha * product.left i p| ≤ 2 ^ 24
  magnitude_le : ∀ i < request.m, ∀ j < request.n, product.magnitude request.k i j ≤ 2 ^ 24

/-- A request on dense matrices: their rows follow one another, and their buffers hold them. -/
structure IsDense (request : Request) (size : Nat) : Prop where
  leftStride : request.leftStride = request.orientation.storedColumns request.m request.k
  outputStride : request.outputStride = request.n
  left : request.m * request.k ≤ request.left.size
  output : request.m * request.n ≤ size

/-- Words count the elements of dense matrices, since they count those of their buffers. -/
theorem IsDense.countsExactly {request : Request} {size : Nat} (h : request.IsDense size)
    (hresident : request.Resident size) : request.CountsExactly := by
  refine .inr (.inr ⟨?_, ?_⟩)
  · refine Storage.Holds.countable ?_ hresident.left.size_lt
    rw [h.leftStride]
    refine Storage.holds_of_mul_le ?_
    rw [Orientation.storedRows_mul_storedColumns]
    exact h.left
  · refine Storage.Holds.countable ?_ hresident.size_lt
    rw [h.outputStride]
    exact Storage.holds_of_mul_le h.output

/-- The request as a problem on dense matrices. -/
def dense (request : Request) : Naive.Problem :=
  ⟨request.orientation, request.m, request.n, request.k, request.alpha, request.beta⟩

end Request

namespace Engine

variable {engine : Engine} {request : Request} {output : Array Single} {product : IntegerProduct}

/-- The factors and weights of an element are the integers of the product. -/
theorem integerTerms (hadmits : engine.Admits request output.size)
    (hintegers : request.OnIntegers output product) {i j : Nat} (hi : i < request.m)
    (hj : j < request.n) :
    IntegerTerms request.k (request.factor i) (fun p ↦ request.panel.entry p j)
      (fun p ↦ product.alpha * product.left i p) fun p ↦ product.right p j where
  factor := by
    intro p hp
    obtain ⟨x, hx⟩ := Option.isSome_iff_exists.mp (hadmits.left i hi p hp)
    rw [Request.factor, hx]
    exact hintegers.alpha.mul (hintegers.left i hi p hp x hx) (hintegers.factor_le i hi p hp)
  weight := fun p hp ↦ hintegers.right _ (hadmits.resident.whole.unpack_eq request.arithmetic)
    p hp j hj _ (Panel.getElem?_dense hp hj)

/-- The buffers of a dense request that passes its check hold the matrices. -/
theorem fits_dense (hadmits : engine.Admits request output.size)
    (hdense : request.IsDense output.size) :
    request.dense.Fits request.left request.panel.dense output where
  left := by
    intro i hi p hp
    obtain ⟨x, hx⟩ := Option.isSome_iff_exists.mp (hadmits.left i hi p hp)
    rw [Request.left?, hdense.leftStride] at hx
    exact (Array.getElem?_eq_some_iff.mp hx).1
  right := Nat.le_of_eq request.panel.size_dense.symm
  output := hdense.output

/-- The factors and weights of the naive product are the integers of the product. -/
theorem integerTerms_dense (hadmits : engine.Admits request output.size)
    (hintegers : request.OnIntegers output product) (hdense : request.IsDense output.size)
    {i j : Nat} (hi : i < request.m) (hj : j < request.n) :
    IntegerTerms request.k (request.dense.factor request.left i)
      (request.dense.weight request.panel.dense j)
      (fun p ↦ product.alpha * product.left i p) fun p ↦ product.right p j where
  factor := by
    intro p hp
    have hfactor : request.dense.factor request.left i p = request.factor i p := by
      rw [Naive.Problem.factor, Array.getD_eq_getD_getElem?, Request.factor, Request.left?,
        hdense.leftStride]
      rfl
    rw [hfactor]
    exact (integerTerms hadmits hintegers hi hj).factor p hp
  weight := by
    intro p hp
    have hentry : request.panel.dense[p * request.n + j]? = some (request.panel.entry p j) :=
      Panel.getElem?_dense hp hj
    have hweight : request.dense.weight request.panel.dense j p = request.panel.entry p j := by
      rw [Naive.Problem.weight, Array.getD_eq_getD_getElem?]
      change (request.panel.dense[p * request.n + j]?).getD .zero = _
      rw [hentry, Option.getD_some]
    rw [hweight]
    exact (integerTerms hadmits hintegers hi hj).weight p hp

/-- On integers a run on dense matrices is exact. It succeeds, every element of its output is the
element of the product, and the naive product of the same matrices has the same elements. -/
theorem run_integers (engine : Engine) (request : Request) (output : Array Single) (threads : Nat)
    (product : IntegerProduct)
    (hfamily : engine.family.BuiltIn ∨ engine.PreparedGreedily request)
    (hresident : request.Resident output.size) (hdense : request.IsDense output.size)
    (hm : 0 < request.m) (hk : 0 < request.k) (hn : 0 < request.n) (hthreads : 0 < threads)
    (hcheck : engine.check request output.size = .ok ())
    (hintegers : request.OnIntegers output product) :
    ∃ stats unpacked naive, (engine.run request output threads).result = .ok stats ∧
      request.panel.unpack request.arithmetic = .ok unpacked ∧
      naiveGemm request.dense request.left unpacked output = .ok naive ∧
      ∀ i < request.m, ∀ j < request.n,
        (∃ x, (engine.run request output threads).output[i * request.n + j]? = some x ∧
          x.IsInteger (product.element request.k i j)) ∧
        ∃ x, naive[i * request.n + j]? = some x ∧ x.IsInteger (product.element request.k i j) := by
  have hadmits := admits_of_check hcheck (hdense.countsExactly hresident) hresident hm hk hn
  have hprepared := hadmits.prepared (hfamily.imp_right PreparedGreedily.prepared)
  obtain ⟨tiles, -, hstacked, hrun⟩ := exists_tiles hthreads hcheck hadmits hprepared
  have hstride := hdense.outputStride
  refine ⟨stats request tiles, request.panel.dense, _, congrArg Outcome.result hrun,
    hresident.whole.unpack_eq request.arithmetic, naiveGemm_eq (fits_dense hadmits hdense),
    fun i hi j hj ↦ ?_⟩
  obtain ⟨old, hold, tile, -, hvalue⟩ := element_of_stacked hadmits hstacked hi hj
  have hinteger : product.beta ≠ 0 → old.IsInteger (product.output i j) := fun hbeta ↦
    hintegers.output hbeta i hi j hj old hold
  have hmagnitude := hintegers.magnitude_le i hi j hj
  constructor
  · rw [hrun, ← hstride]
    exact ⟨_, hvalue, isInteger_tileElement hk tile (integerTerms hadmits hintegers hi hj)
      hintegers.beta hinteger hmagnitude⟩
  · let window : Window := ⟨0, request.n, request.m, request.n⟩
    have hposition : i * request.n + j = window.position i j := (Nat.zero_add _).symm
    rw [hstride, hposition] at hold
    rw [hposition]
    refine ⟨_, ?_, Naive.isInteger_element (integerTerms_dense hadmits hintegers hdense hi hj)
      hintegers.beta hinteger hmagnitude⟩
    rw [Array.getElem?_mapIdx, hold, Option.map_some]
    change some (window.rewrite _ (window.position i j) old) = _
    rw [Window.rewrite_position hi hj (Nat.le_refl request.n)]
    rfl

/-- An engine with a single kernel that is too tall for a single row. -/
def tallEngine : Engine :=
  ⟨Family.make ⟨.avx2, #[false, false, false, false, true], rfl⟩ 4 .greedy⟩

/-- A row times a column of ones that overwrites the old output. -/
def overwriting : Request :=
  { Request.ones with
    left := #[.ofNat 3, .ofNat 2]
    beta := .zero }

/-- The integers of that request, without those of the old output. -/
def overwritten : IntegerProduct :=
  ⟨1, 0, fun _ p ↦ if p = 0 then 3 else 2, fun _ _ ↦ 1, fun _ _ ↦ 0⟩

theorem onIntegers_overwriting : overwriting.OnIntegers #[.nan] overwritten where
  alpha := Binary.isInteger_one
  beta := Binary.isInteger_zero
  left := by decide +kernel
  right := by
    intro unpacked hunpacked
    cases hunpacked
    decide +kernel
  output := fun hbeta ↦ absurd rfl hbeta
  factor_le := by decide
  magnitude_le := by decide

theorem run_integers_overwriting : ∃ stats unpacked naive,
    (tallEngine.run overwriting #[.nan] 2).result = .ok stats ∧
      overwriting.panel.unpack .wrapping = .ok unpacked ∧
      naiveGemm overwriting.dense overwriting.left unpacked #[.nan] = .ok naive ∧
      (∃ x, (tallEngine.run overwriting #[.nan] 2).output[0]? = some x ∧ x.IsInteger 5) ∧
      ∃ x, naive[0]? = some x ∧ x.IsInteger 5 := by
  have hgreedy : tallEngine.PreparedGreedily overwriting :=
    ⟨rfl, by decide, ⟨1, by decide, by decide⟩, by decide, ⟨by decide, by decide⟩⟩
  have hones : Request.ones.Resident 1 := Request.ones_resident (by decide)
  have hresident : overwriting.Resident 1 :=
    ⟨hones.whole, hones.left, hones.output, hones.together⟩
  obtain ⟨stats, unpacked, naive, hresult, hunpacked, hnaive, helements⟩ :=
    run_integers tallEngine overwriting #[.nan] 2 overwritten (.inr hgreedy) hresident
      ⟨rfl, rfl, by decide, by decide⟩ (by decide) (by decide) (by decide) (by decide) (by rfl)
      onIntegers_overwriting
  exact ⟨stats, unpacked, naive, hresult, hunpacked, hnaive,
    helements 0 (by decide) 0 (by decide)⟩

end Engine

end PanelGemm
