import PanelGemm.Engine.Run
import PanelGemm.Proofs.Failure

/-!
# Calls that check their request

A run and the share of one thread begin alike: both of them check the request, and if it is empty
there is nothing to do. `Engine.checked` is this beginning with the rest of the call left open, and
it ends in one of three ways: with the failure of the check (`checked_of_error`), with nothing done
(`checked_of_isEmpty`), or with what the rest of the call comes to (`checked_of_not_isEmpty`).
-/

set_option autoImplicit false
set_option relaxedAutoImplicit false

namespace PanelGemm

theorem Request.isEmpty_iff {request : Request} :
    request.isEmpty = true ↔ request.m = 0 ∨ request.k = 0 ∨ request.n = 0 := by
  simp [isEmpty, or_assoc]

namespace Engine

variable {engine : Engine} {request : Request} {output : Array Single}
  {computed : Outcome RunStats}

/-- The end of a call that checks its request, has nothing to do for an empty one and computes any
other one. -/
def checked (engine : Engine) (request : Request) (output : Array Single)
    (computed : Outcome RunStats) : Outcome RunStats :=
  match engine.check request output.size with
  | .error failure => untouched (.error failure) output
  | .ok () => if request.isEmpty then untouched (.ok ⟨0, 0⟩) output else computed

theorem run_without_threads :
    engine.run request output 0 = ⟨.error (.refused (.shapeMismatch .zeroThreads)), output⟩ :=
  if_pos rfl

/-- A run on some threads checks its request. -/
theorem run_eq_checked {threads : Nat} (hthreads : 0 < threads) :
    engine.run request output threads =
      engine.checked request output (engine.runChecked request output threads) :=
  if_neg (Nat.ne_of_gt hthreads)

/-- The share of a thread checks its request. -/
theorem runShare_eq_checked (slot : ThreadSlot) :
    engine.runShare request output slot =
      engine.checked request output (engine.runShareChecked request output slot) :=
  rfl

theorem checked_of_error {failure : Failure}
    (h : engine.check request output.size = .error failure) :
    engine.checked request output computed = ⟨.error failure, output⟩ := by
  rw [checked, h]
  rfl

theorem checked_of_isEmpty (hcheck : engine.check request output.size = .ok ())
    (hempty : request.isEmpty = true) :
    engine.checked request output computed = ⟨.ok ⟨0, 0⟩, output⟩ := by
  rw [checked, hcheck]
  exact if_pos hempty

theorem checked_of_not_isEmpty (hcheck : engine.check request output.size = .ok ())
    (hempty : request.isEmpty = false) : engine.checked request output computed = computed := by
  rw [checked, hcheck]
  exact if_neg (Bool.eq_false_iff.mp hempty)

/-- A call for an empty request leaves the output alone, whether or not it is accepted. -/
theorem output_checked_of_isEmpty (hempty : request.isEmpty = true) :
    (engine.checked request output computed).output = output := by
  cases hcheck : engine.check request output.size with
  | error failure => rw [checked_of_error hcheck]
  | ok => rw [checked_of_isEmpty hcheck hempty]

end Engine

end PanelGemm
