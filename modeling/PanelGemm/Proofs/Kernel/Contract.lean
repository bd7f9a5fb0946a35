import PanelGemm.Proofs.Kernel.Scalar
import PanelGemm.Proofs.Kernel.Vector

/-!
# The contract of a kernel

`Kernel.run_eq` joins both kinds of kernels: a bounded call computes every element of its window by
`Kernel.element` and keeps all others. In particular it stays inside its buffers. A call that is not
bounded may leave them, but a buffer that it comes back with is as long as before
(`Kernel.size_of_run`).
-/

set_option autoImplicit false
set_option relaxedAutoImplicit false

namespace PanelGemm

/-! ### The length of the output -/

/-- A loop over a buffer keeps its length if its rounds do. -/
theorem size_of_foldlM {ι : Type} {items : List ι}
    {step : Array Single → ι → Option (Array Single)}
    (h : ∀ buffer item next, step buffer item = some next → next.size = buffer.size)
    {buffer result : Array Single} (hresult : items.foldlM step buffer = some result) :
    result.size = buffer.size := by
  induction items generalizing buffer with
  | nil => exact congrArg Array.size (Option.some.inj hresult).symm
  | cons item items ih =>
    rw [List.foldlM_cons] at hresult
    obtain ⟨next, hnext, hresult⟩ := Option.bind_eq_some_iff.mp hresult
    exact (ih hresult).trans (h buffer item next hnext)

theorem Buffer.size_of_write? {buffer result : Array Single} {position : Nat} {value : Single}
    (h : write? buffer position value = some result) : result.size = buffer.size := by
  unfold write? at h
  split_ifs at h
  rw [← Option.some.inj h, Array.size_set]

theorem ScalarKernel.size_of_run {rows : Nat} {call : MicroCall} {output result : Array Single}
    (h : run rows call output = some result) : result.size = output.size := by
  refine size_of_foldlM (fun buffer block next hblock ↦ ?_) h
  refine size_of_foldlM (fun buffer p next hdepth ↦ ?_) hblock
  refine size_of_foldlM (fun buffer i next hrow ↦ ?_) hdepth
  obtain ⟨x, -, hrow⟩ := Option.bind_eq_some_iff.mp hrow
  refine size_of_foldlM (fun buffer j next helement ↦ ?_) hrow
  obtain ⟨y, -, helement⟩ := Option.bind_eq_some_iff.mp helement
  obtain ⟨old, -, helement⟩ := Option.bind_eq_some_iff.mp helement
  exact Buffer.size_of_write? helement

theorem VectorKernel.size_of_run {lanes rows : Nat} {call : MicroCall}
    {output result : Array Single} (h : run lanes rows call output = some result) :
    result.size = output.size := by
  have hstore : ∀ {buffer next : Array Single} {start : Nat} {values : Vector Single lanes},
      Buffer.writeVector? buffer start values = some next → next.size = buffer.size :=
    size_of_foldlM fun _ _ _ hwrite ↦ Buffer.size_of_write? hwrite
  refine size_of_foldlM (fun buffer block next hblock ↦ ?_) h
  obtain ⟨accumulators, -, hblock⟩ := Option.bind_eq_some_iff.mp hblock
  refine size_of_foldlM (fun buffer i next hrow ↦ ?_) hblock
  obtain ⟨low, -, hrow⟩ := Option.bind_eq_some_iff.mp hrow
  obtain ⟨high, -, hrow⟩ := Option.bind_eq_some_iff.mp hrow
  obtain ⟨middle, hlow, hhigh⟩ := Option.bind_eq_some_iff.mp hrow
  exact (hstore hhigh).trans (hstore hlow)

namespace Kernel

/-- A call that comes back with a buffer keeps its length. -/
theorem size_of_run (kernel : Kernel) {call : MicroCall} {output result : Array Single}
    (h : kernel.run call output = some result) : result.size = output.size := by
  cases kernel with
  | scalar rows => exact ScalarKernel.size_of_run h
  | vector lanes rows => exact VectorKernel.size_of_run h

/-! ### Bounded calls -/

/-- A bounded call computes every element of its window and keeps all others. -/
theorem run_eq (kernel : Kernel) {call : MicroCall} {output : Array Single}
    (htakes : kernel.Takes call.width) (hbounds : call.Bounded kernel.rows output.size) :
    kernel.run call output =
      some (output.mapIdx ((call.window kernel.rows).rewrite fun i c ↦
        kernel.element call.beta call.depth (call.factor kernel.rows i)
          (call.weight (c / call.width) (c % call.width)))) := by
  cases kernel with
  | scalar rows => exact ScalarKernel.run_eq hbounds rfl
  | vector lanes rows => exact VectorKernel.run_eq hbounds htakes rfl

/-- Only the factors and weights of the depths that are summed matter. -/
theorem element_congr (kernel : Kernel) (beta : Single) {depth : Nat} {x x' y y' : Nat → Single}
    (hx : ∀ p < depth, x p = x' p) (hy : ∀ p < depth, y p = y' p) (old : Single) :
    kernel.element beta depth x y old = kernel.element beta depth x' y' old := by
  cases kernel with
  | scalar rows =>
    refine List.foldl_ext _ _ old fun value p hp ↦ ?_
    rw [hx p (List.mem_range.mp hp), hy p (List.mem_range.mp hp)]
  | vector lanes rows =>
    refine congrArg (Engine.mergeElement beta old) (List.foldl_ext _ _ _ fun value p hp ↦ ?_)
    rw [hx p (List.mem_range.mp hp), hy p (List.mem_range.mp hp)]

theorem product_congr (kernel : Kernel) {depth : Nat} {x x' y y' : Nat → Single}
    (hx : ∀ p < depth, x p = x' p) (hy : ∀ p < depth, y p = y' p) :
    kernel.product depth x y = kernel.product depth x' y' :=
  kernel.element_congr .zero hx hy .zero

end Kernel

end PanelGemm
