import PanelGemm.Proofs.Engine.BuiltIn

/-!
# Which calls succeed

A call on an engine that tiles greedily succeeds exactly if the request is well shaped, and a call
that fails leaves the output as it was (`Engine.Settles`, `Engine.run_settles`). As long as words
count what the operands need, it is refused for the first requirement that it does not meet. With
checked arithmetic a request that cannot be counted is a panic instead, in the check and therefore
before anything is written; with wrapping arithmetic it may pass the check
(`Engine.run_settles_past_words`). No later stage fails once the check has passed: the steps cover
the rows, every tile finds its kernel, its rows and its buffers, and so do the workers.

What is asked of the machine is that the buffers of a run can be had (`Engine.Affords`). On a family
that is built in they can whenever the operands can (see `PanelGemm.Proofs.Engine.BuiltIn`).
-/

set_option autoImplicit false
set_option relaxedAutoImplicit false

namespace PanelGemm

namespace Engine

variable {engine : Engine} {request : Request} {output : Array Single}

/-- How a call ends that has requirements to meet. It succeeds if it is well shaped, which is to
meet all of them, and then it has nothing to do without rows, products or columns. A call that fails
leaves the output as it was, and if words count what its operands need it is refused for the first
requirement that it does not meet. -/
structure Settles (outcome : Outcome RunStats) (requirements : List Requirement) (shaped : Prop)
    (request : Request) (output : Array Single) : Prop where
  succeeds : (∃ stats, outcome.result = .ok stats) ↔ shaped
  kept : ∀ failure, outcome.result = .error failure → outcome.output = output
  refused : request.Countable → ∀ failure, outcome.result = .error failure →
    ∃ fault, Requirement.firstFault requirements = some fault ∧
      failure = .refused (.shapeMismatch fault)
  idle : shaped → request.m = 0 ∨ request.k = 0 ∨ request.n = 0 → outcome = ⟨.ok ⟨0, 0⟩, output⟩

/-- A call that fails for the first requirement that it does not meet, or else panics for what it
cannot count, settles if it fails at once. -/
theorem settles_of_failure {requirements : List Requirement} {shaped : Prop} {failure : Failure}
    (hfault : request.Countable → ∃ fault, Requirement.firstFault requirements = some fault ∧
      failure = .refused (.shapeMismatch fault)) (hshaped : ¬ shaped) :
    Settles (untouched (.error failure) output) requirements shaped request output where
  succeeds := iff_of_false nofun hshaped
  kept := fun _ _ ↦ rfl
  refused := by
    rintro hcount _ ⟨⟩
    exact hfault hcount
  idle := fun h ↦ absurd h hshaped

/-- A call that succeeds settles if it is well shaped. -/
theorem settles_of_success {outcome : Outcome RunStats} {requirements : List Requirement}
    {shaped : Prop} {stats : RunStats} (hresult : outcome.result = .ok stats) (hshaped : shaped)
    (hidle : request.m = 0 ∨ request.k = 0 ∨ request.n = 0 → outcome = ⟨.ok ⟨0, 0⟩, output⟩) :
    Settles outcome requirements shaped request output where
  succeeds := iff_of_true ⟨stats, hresult⟩ hshaped
  kept := by
    intro failure hfailure
    rw [hresult] at hfailure
    cases hfailure
  refused := by
    intro _ failure hfailure
    rw [hresult] at hfailure
    cases hfailure
  idle := fun _ ↦ hidle

/-- One more requirement, which is met, makes no difference. -/
theorem Settles.cons {outcome : Outcome RunStats} {requirements : List Requirement}
    {shaped : Prop} (h : Settles outcome requirements shaped request output)
    {requirement : Requirement} {condition : Prop} (hmet : requirement.met = true)
    (hcondition : condition) :
    Settles outcome (requirement :: requirements) (condition ∧ shaped) request output where
  succeeds := by
    rw [and_iff_right hcondition]
    exact h.succeeds
  kept := h.kept
  refused := by
    intro hcount failure hfailure
    rw [Requirement.firstFault, if_pos hmet]
    exact h.refused hcount failure hfailure
  idle := fun hshaped ↦ h.idle hshaped.2

/-- A call settles if it succeeds on every request that passes its check and is not empty. -/
theorem settles_checked {computed : Outcome RunStats}
    (hexact : request.arithmetic = .checked ∨ request.Countable)
    (hresident : request.Resident output.size)
    (hcomputed : engine.Admits request output.size → ∃ stats, computed.result = .ok stats) :
    Settles (engine.checked request output computed) (engine.requirements request output.size)
      (engine.WellShaped request output.size) request output := by
  cases hcheck : engine.check request output.size with
  | ok =>
    have hcount : request.Countable := hexact.elim (countable_of_check · hcheck) id
    have hshaped : engine.WellShaped request output.size := (check_eq_ok hcount).mp hcheck
    -- the check passes empty requests, which `Admits` leaves out: no kernel is called for them
    by_cases hempty : request.isEmpty = true
    · rw [checked_of_isEmpty hcheck hempty]
      exact settles_of_success rfl hshaped fun _ ↦ rfl
    · have hadmits := admits_of_not_isEmpty hcheck (hexact.imp_right .inr) hresident hempty
      obtain ⟨stats, hstats⟩ := hcomputed hadmits
      rw [checked_of_not_isEmpty hcheck (Bool.eq_false_iff.mpr hempty)]
      exact settles_of_success hstats hshaped fun h ↦ absurd (Request.isEmpty_iff.mpr h) hempty
  | error failure =>
    have hshaped : ¬ engine.WellShaped request output.size := by
      intro hshaped
      have hcount := hshaped.countable hresident.left.size_lt hresident.size_lt
      rw [(check_eq_ok hcount).mpr hshaped] at hcheck
      cases hcheck
    rw [checked_of_error hcheck]
    refine settles_of_failure (fun hcount ↦ ?_) hshaped
    rw [check_eq hcount, Requirement.check] at hcheck
    cases hfault : Requirement.firstFault (engine.requirements request output.size) with
    | none =>
      rw [hfault] at hcheck
      cases hcheck
    | some fault =>
      rw [hfault] at hcheck
      exact ⟨fault, rfl, (Except.error.inj hcheck).symm⟩

/-- A run, and the share of one thread, on an engine that tiles greedily succeeds exactly if the
request is well shaped, and a run has a thread. Otherwise the output is as before, and a request
that words count is refused for the first requirement that it does not meet. An engine with kernels
of its own needs room for the buffers of what it computes. -/
theorem run_settles (engine : Engine) (request : Request) (output : Array Single)
    (hpolicy : engine.family.policy = .greedy)
    (hkernels : engine.family.table.available ≠ [])
    (hexact : request.arithmetic = .checked ∨ request.Countable)
    (hresident : request.Resident output.size)
    (hroom : engine.Admits request output.size →
      engine.family.BuiltIn ∨ engine.Affords request) :
    (∀ threads, Settles (engine.run request output threads)
      (⟨0 < threads, .zeroThreads⟩ :: engine.requirements request output.size)
      (0 < threads ∧ engine.WellShaped request output.size) request output) ∧
    ∀ slot : ThreadSlot, slot.thread < slot.threads →
      Settles (engine.runShare request output slot) (engine.requirements request output.size)
        (engine.WellShaped request output.size) request output := by
  have hprepared : engine.Admits request output.size → engine.Prepared request := fun hadmits ↦
    hadmits.prepared ((hroom hadmits).imp_right fun h ↦ h.prepared hpolicy hkernels)
  constructor
  · intro threads
    by_cases hthreads : 0 < threads
    · have hrun : engine.run request output threads = engine.checked request output
          (engine.runChecked request output threads) := if_neg (Nat.ne_of_gt hthreads)
      have hsettles : Settles (engine.checked request output
          (engine.runChecked request output threads))
          (engine.requirements request output.size) (engine.WellShaped request output.size)
          request output := by
        refine settles_checked hexact hresident fun hadmits ↦ ?_
        obtain ⟨steps, hcovers⟩ := hprepared hadmits
        exact ⟨_, congrArg Outcome.result (runChecked_eq hadmits hcovers threads)⟩
      rw [hrun]
      exact hsettles.cons (decide_eq_true hthreads) hthreads
    · have hzero : threads = 0 := Nat.eq_zero_of_not_pos hthreads
      subst hzero
      exact settles_of_failure (fun _ ↦ ⟨.zeroThreads, rfl, rfl⟩) fun h ↦ hthreads h.1
  · intro slot hslot
    refine settles_checked hexact hresident fun hadmits ↦ ?_
    obtain ⟨steps, hcovers⟩ := hprepared hadmits
    exact ⟨_, congrArg Outcome.result (runShareChecked_eq hadmits hcovers hslot rfl)⟩

/-- An engine whose only kernel is taller than its cap. -/
def cappedEngine : Engine :=
  ⟨.make ⟨.avx512Ymm, #[false, false, false, true], rfl⟩ 2 .greedy⟩

theorem affords_cappedEngine : cappedEngine.Affords .ones where
  steps := ⟨1, by decide, by decide⟩
  tiles := by decide
  buffers := ⟨by decide, by decide⟩

theorem run_settles_capped :
    (∃ stats, (cappedEngine.run .ones #[.one] 2).result = .ok stats) ∧
      (∃ stats, (cappedEngine.runShare .ones #[.one] ⟨1, 2⟩).result = .ok stats) ∧
      ¬ (∃ stats, (cappedEngine.run .ones #[.one] 0).result = .ok stats) := by
  obtain ⟨hrun, hshare⟩ := run_settles cappedEngine .ones #[.one] rfl (by decide)
    (.inr ⟨by decide, by decide⟩) (Request.ones_resident (by decide)) fun _ ↦
    .inr affords_cappedEngine
  have hshaped : cappedEngine.WellShaped .ones 1 :=
    ⟨by decide, .inr (.inr (by decide)), by decide, by decide⟩
  refine ⟨(hrun 2).succeeds.mpr ⟨by decide, hshaped⟩, (hshare _ (by decide)).succeeds.mpr hshaped,
    ?_⟩
  exact fun h ↦ absurd ((hrun 0).succeeds.mp h).1 (by decide)

/-- A request that cannot be counted is not refused. It is a panic where arithmetic is checked, and
where it wraps around it passes the check although the output does not hold its rows; what stops the
run is then one of its tiles. -/
theorem run_settles_past_words :
    (scalar.requirements (.distantRows .checked 13) 17).map Requirement.met =
        [true, true, true, true, false] ∧
      scalar.run (.distantRows .checked 13) (Array.replicate 17 .zero) 1 =
        ⟨.error .panicked, Array.replicate 17 .zero⟩ ∧
      scalar.run (.distantRows .wrapping 13) (Array.replicate 17 .zero) 1 =
        ⟨.error (.refused (.misplacedTile 0 6 (.beyondBand (2 ^ 63 + 17) 17))),
          Array.replicate 17 .zero⟩ :=
  ⟨by decide +kernel, by rfl, by rfl⟩

end Engine

end PanelGemm
