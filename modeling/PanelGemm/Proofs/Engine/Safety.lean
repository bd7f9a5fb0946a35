import PanelGemm.Proofs.Engine.Checked
import PanelGemm.Proofs.Engine.Confined
import PanelGemm.Proofs.Threads.Spans

/-!
# No access outside a buffer

`Engine.no_wild_access` is the safety of the whole: no run and no share of one thread, and with
several workers none of them, touches memory outside of the buffers that its kernels are given. It
holds for every family and every request, also for steps that do not tile the rows, as long as what
the tiles need is counted exactly (`Engine.CountsTiles`). Checked arithmetic always does that.
Wrapping arithmetic may take a stride for a small one, and then a tile passes its checks whose rows
the output does not hold (`Engine.wild_access_past_words`).
-/

set_option autoImplicit false
set_option relaxedAutoImplicit false

namespace PanelGemm

/-- The choice of steps fails by a refusal or a panic. -/
theorem Family.partition_ne_wild (family : Family) (arithmetic : Arithmetic) (rows : Nat) :
    family.partition arithmetic rows ≠ .error .wild := by
  unfold partition
  cases family.policy with
  | fixed steps => simp
  | greedy =>
    dsimp only
    by_cases hkernels : family.table.available = []
    · have hnone : Greedy.considered family.cap family.table.available = [] :=
        List.subset_nil.mp (hkernels ▸ Greedy.considered_subset family.cap family.table.available)
      rw [Greedy.partition, hnone]
      simp
    · by_cases haffords : Greedy.Affords arithmetic family.cap family.table rows
      · rw [Greedy.partition_of_affords hkernels haffords]
        simp
      · rw [Greedy.partition_without_affords hkernels haffords]
        simp

theorem Tile.mayPanic_layOut (arithmetic : Arithmetic) (steps : List Step) :
    MayPanic (layOut arithmetic steps) fun _ ↦ True := by
  have hfrom : ∀ row, MayPanic (layOutFrom arithmetic row steps) fun _ ↦ True := by
    induction steps with
    | nil => exact fun _ ↦ mayPanic_ok trivial
    | cons step steps ih =>
      exact fun row ↦ (Arithmetic.mayPanic_word _ _).bind fun next _ ↦
        (ih next).bind fun _ _ ↦ mayPanic_ok trivial
  exact (Capacity.mayPanic_reserve _ _).bind fun _ _ ↦ hfrom 0

theorem Family.tiles_ne_wild (family : Family) (arithmetic : Arithmetic) (rows : Nat) :
    family.tiles arithmetic rows ≠ .error .wild :=
  bind_ne_error (family.partition_ne_wild arithmetic rows) fun steps _ ↦
    (Tile.mayPanic_layOut arithmetic steps).ne_wild

namespace Workers

/-- Results without a wild access are joined without one. -/
theorem join_ne_wild {arithmetic : Arithmetic} {results : List (Except Failure Nat)}
    (h : ∀ result ∈ results, result ≠ .error .wild) (tally : Tally)
    (hcalls : tally.calls ≠ .error .wild) (hfailure : tally.failure? ≠ some .wild) (worker : Nat) :
    (join arithmetic tally worker results).result ≠ .error .wild := by
  induction results generalizing tally worker with
  | nil =>
    rw [join, Tally.result]
    refine bind_ne_error hcalls fun calls _ ↦ ?_
    cases hnone : tally.failure? with
    | none => exact nofun
    | some failure =>
      exact fun hwild ↦ hfailure (hnone.trans (congrArg some (Except.error.inj hwild)))
  | cons result results ih =>
    obtain ⟨hresult, hresults⟩ := List.forall_mem_cons.mp h
    refine ih hresults _ ?_ ?_ (worker + 1)
    · cases result with
      | ok calls => exact bind_ne_error hcalls fun _ _ ↦ (Arithmetic.mayPanic_word _ _).ne_wild
      | error failure => exact hcalls
    · cases result with
      | ok calls => exact hfailure
      | error failure =>
        change (tally.failure? <|> some (report worker failure)) ≠ some .wild
        cases hnone : tally.failure? with
        | some first =>
          rw [hnone] at hfailure
          exact hfailure
        | none =>
          intro hreport
          cases failure with
          | refused reason => cases hreport
          | panicked => cases hreport
          | wild => exact hresult rfl

/-- The outcome of a worker is that of its work on some band and its tiles. -/
theorem exists_work_of_mem_outcomes {bands : List (Array Single)} {spans : List (List Tile)}
    {work : Work} {outcome : Outcome Nat} (h : outcome ∈ outcomes bands spans work) :
    ∃ band row, ∃ tiles ∈ spans, outcome = work band tiles row := by
  obtain ⟨index, hindex, rfl⟩ := List.mem_iff_getElem.mp h
  exact ⟨_, _, _, List.getElem_mem _, List.getElem_zipWith⟩

theorem mayPanic_splits (arithmetic : Arithmetic) (size stride offset : Nat) (rows : List Nat) :
    MayPanic (splits arithmetic size stride offset rows) fun _ ↦ True := by
  induction rows generalizing offset with
  | nil => exact mayPanic_ok trivial
  | cons row rows ih =>
    exact (Arithmetic.mayPanic_word _ _).bind fun _ _ ↦ (mayPanic_panicUnless _).bind
      fun _ _ ↦ (ih _).bind fun _ _ ↦ mayPanic_ok trivial

/-- Work that never goes wild on tiles does not when these are shared among workers either. -/
theorem run_ne_wild {work : Work} {tiles : List Tile}
    (hwork : ∀ band part row, part ⊆ tiles → (work band part row).result ≠ .error .wild)
    (arithmetic : Arithmetic) (output : Array Single) (stride threads : Nat) :
    (run arithmetic output stride tiles threads work).result ≠ .error .wild := by
  by_cases hcount : count threads tiles = 1
  · rw [run, if_pos hcount]
    exact hwork output tiles 0 (List.Subset.refl tiles)
  · have hbands : bands arithmetic output stride (tileSpans (count threads tiles) tiles) ≠
        .error .wild := map_ne_error (mayPanic_splits _ _ _ _ _).ne_wild _
    rw [run, if_neg hcount, runMany]
    cases hcut : bands arithmetic output stride (tileSpans (count threads tiles) tiles) with
    | error failure => exact error_ne_error hbands hcut
    | ok bands =>
      refine join_ne_wild (fun result hresult ↦ ?_) .start nofun nofun 0
      obtain ⟨outcome, houtcome, rfl⟩ := List.mem_map.mp hresult
      obtain ⟨band, row, part, hpart, rfl⟩ := exists_work_of_mem_outcomes houtcome
      refine hwork band part row fun tile htile ↦ ?_
      rw [← tileSpans_flatten (count_pos threads tiles) tiles]
      exact List.mem_flatten.mpr ⟨part, hpart, htile⟩

end Workers

namespace Engine

variable {engine : Engine} {request : Request}

/-- What tiles need is counted exactly, as far as they have kernels. -/
def CountsTiles (engine : Engine) (request : Request) (tiles : List Tile) : Prop :=
  ∀ tile ∈ tiles, engine.family.table.holds tile.kernelRows = true → CountsTile request tile

instance (engine : Engine) (request : Request) (tiles : List Tile) :
    Decidable (engine.CountsTiles request tiles) :=
  inferInstanceAs (Decidable (∀ tile ∈ tiles, _))

/-- A span of a request that passes the check stays inside its buffers. -/
theorem runSpan_ne_wild_of_check {size : Nat} (hcheck : engine.check request size = .ok ())
    (hempty : request.isEmpty = false) {tiles : List Tile}
    (hcounts : engine.CountsTiles request tiles) (band : Array Single) (firstRow : Nat) :
    (engine.runSpan request band tiles firstRow).result ≠ .error .wild := by
  have hcolumns : 0 < request.n := by
    rw [← Bool.not_eq_true, Request.isEmpty_iff] at hempty
    omega
  obtain ⟨hwidth, hstride⟩ := width_stride_of_check hcheck hcolumns
  exact runSpan_ne_wild hcolumns hstride hwidth band hcounts firstRow

/-- A call that checks its request does not go wild, unless what it computes of a request that
passes does. -/
theorem checked_ne_wild {output : Array Single} {computed : Outcome RunStats}
    (hcomputed : engine.check request output.size = .ok () → request.isEmpty = false →
      computed.result ≠ .error .wild) :
    (engine.checked request output computed).result ≠ .error .wild := by
  cases hcheck : engine.check request output.size with
  | error failure =>
    rw [checked_of_error hcheck]
    exact error_ne_error (check_ne_wild engine request output.size) hcheck
  | ok =>
    cases hempty : request.isEmpty with
    | true =>
      rw [checked_of_isEmpty hcheck hempty]
      exact nofun
    | false =>
      rw [checked_of_not_isEmpty hcheck hempty]
      exact hcomputed hcheck hempty

section Spans

variable (hspan : ∀ tiles, engine.family.tiles request.arithmetic request.m = .ok tiles →
  ∀ band part row, part ⊆ tiles → (engine.runSpan request band part row).result ≠ .error .wild)
include hspan

theorem runChecked_ne_wild (output : Array Single) (threads : Nat) :
    (engine.runChecked request output threads).result ≠ .error .wild := by
  unfold runChecked
  cases htiles : engine.family.tiles request.arithmetic request.m with
  | error failure => exact error_ne_error (engine.family.tiles_ne_wild _ _) htiles
  | ok tiles =>
    exact map_ne_error (Workers.run_ne_wild (hspan tiles htiles) request.arithmetic output
      request.outputStride threads) _

theorem runShareChecked_ne_wild (output : Array Single) (slot : ThreadSlot) :
    (engine.runShareChecked request output slot).result ≠ .error .wild := by
  have hne : engine.sharedTiles request slot ≠ .error .wild :=
    bind_ne_error (engine.family.tiles_ne_wild _ _) fun tiles _ ↦
      bind_ne_error (Span.mayPanic_share? _ _ _ _).ne_wild fun span _ ↦
        (Span.mayPanic_slice? span tiles).ne_wild
  unfold runShareChecked
  cases hshare : engine.sharedTiles request slot with
  | error failure => exact error_ne_error hne hshare
  | ok share =>
    obtain ⟨tiles, htiles, hshare⟩ := bind_eq_ok.mp hshare
    obtain ⟨span, -, hslice⟩ := bind_eq_ok.mp hshare
    refine map_ne_error (hspan tiles htiles output share 0 ?_) _
    rw [(Span.mayPanic_slice? span tiles).of_eq_ok hslice]
    exact ((List.take_sublist _ _).trans (List.drop_sublist _ _)).subset

end Spans

/-- No kernel goes wild: neither in a run on any number of threads, nor in the share of any thread,
whether there are so many threads or not, nor in any of the workers that an output is shared among,
however it is cut and the tiles are shared. The steps may be empty, too tall for their kernels,
without a kernel, or leave rows out, and the panel may hold anything. All of this takes that what
the tiles need is counted exactly. -/
theorem no_wild_access (engine : Engine) (request : Request) (output : Array Single)
    (threads : Nat) (slot : ThreadSlot)
    (hcounts : ∀ tiles, engine.family.tiles request.arithmetic request.m = .ok tiles →
      engine.CountsTiles request tiles) :
    (engine.run request output threads).result ≠ .error .wild ∧
      (engine.runShare request output slot).result ≠ .error .wild ∧
      (engine.check request output.size = .ok () → request.isEmpty = false →
        ∀ bands spans, (∀ span ∈ spans, engine.CountsTiles request span) →
          ∀ outcome ∈ Workers.outcomes bands spans (engine.runSpan request),
            outcome.result ≠ .error .wild) := by
  have hspan : engine.check request output.size = .ok () → request.isEmpty = false →
      ∀ tiles, engine.family.tiles request.arithmetic request.m = .ok tiles →
        ∀ band part row, part ⊆ tiles →
          (engine.runSpan request band part row).result ≠ .error .wild :=
    fun hcheck hempty tiles htiles band part row hpart ↦ runSpan_ne_wild_of_check hcheck hempty
      (fun tile htile ↦ hcounts tiles htiles tile (hpart htile)) band row
  refine ⟨?_, ?_, fun hcheck hempty bands spans hspans outcome houtcome ↦ ?_⟩
  · rcases Nat.eq_zero_or_pos threads with rfl | hthreads
    · rw [run_without_threads]
      exact nofun
    · rw [run_eq_checked hthreads]
      exact checked_ne_wild fun hcheck hempty ↦
        runChecked_ne_wild (hspan hcheck hempty) output threads
  · rw [runShare_eq_checked]
    exact checked_ne_wild fun hcheck hempty ↦
      runShareChecked_ne_wild (hspan hcheck hempty) output slot
  · obtain ⟨band, row, tiles, htiles, rfl⟩ := Workers.exists_work_of_mem_outcomes houtcome
    exact runSpan_ne_wild_of_check hcheck hempty (hspans tiles htiles) band row

/-- An engine whose steps are no tiling: one of them is taller than its kernel, one is empty, and
one has no kernel. -/
def misfitEngine : Engine :=
  ⟨Family.make (KernelTable.full .avx2 Family.narrowRows) Family.narrowRows
    (.fixed [⟨1, 1⟩, ⟨6, 9⟩, ⟨4, 0⟩, ⟨9, 2⟩])⟩

theorem no_wild_access_misfit :
    (∀ tiles, misfitEngine.family.tiles .wrapping 1 = .ok tiles →
      misfitEngine.CountsTiles .ones tiles) ∧
    (misfitEngine.run .ones #[.one] 2).result ≠ .error .wild ∧
    (misfitEngine.runShare .ones #[.one] ⟨3, 2⟩).result ≠ .error .wild := by
  have hcounts : ∀ tiles, misfitEngine.family.tiles .wrapping 1 = .ok tiles →
      misfitEngine.CountsTiles .ones tiles := by
    intro tiles htiles
    cases htiles
    decide
  obtain ⟨hrun, hshare, -⟩ := no_wild_access misfitEngine .ones #[.one] 2 ⟨3, 2⟩ hcounts
  exact ⟨hcounts, hrun, hshare⟩

/-- With wrapping arithmetic an output of one row passes for one of three, and the kernel that
computes them goes wild. Checked arithmetic panics before. -/
theorem wild_access_past_words :
    let engine : Engine := ⟨.upTo .avx2 Family.narrowRows⟩
    let output := Array.replicate 17 Binary.zero
    engine.check (.distantRows .wrapping 3) 17 = .ok () ∧
      (engine.run (.distantRows .wrapping 3) output 1).result = .error .wild ∧
      (engine.run (.distantRows .checked 3) output 1).result = .error .panicked := by
  exact ⟨by decide +kernel, by decide +kernel, by decide +kernel⟩

end Engine

end PanelGemm
