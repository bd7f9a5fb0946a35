import PanelGemm.Binary.Arithmetic
import PanelGemm.Refusal

/-!
# Failures and outcomes

A call ends without its result in one of three ways: it refuses its input, it panics because an
index or a range leaves its buffer, a buffer would be too long or a count is no machine word, or it
goes wild, that is, a kernel touches memory outside the buffer it was given. An `Outcome` is the end
of a call that works on an output matrix: its result or failure, and the matrix as the call leaves
it, which may be partly computed after a failure.
-/

set_option autoImplicit false
set_option relaxedAutoImplicit false

namespace PanelGemm

/-- How a call ends without its result. -/
inductive Failure where
  | refused (reason : Refusal)
  | panicked
  | wild
  deriving DecidableEq

/-- A refusal as a failure. -/
def Refusal.check {α : Type} : Except Refusal α → Except Failure α
  | .ok value => .ok value
  | .error reason => .error (.refused reason)

/-- A value that must be present: its absence is a panic. -/
def orPanic {α : Type} : Option α → Except Failure α
  | some value => .ok value
  | none => .error .panicked

/-- A condition that must hold: its failure is a panic. -/
def panicUnless (condition : Prop) [Decidable condition] : Except Failure Unit :=
  if condition then .ok () else .error .panicked

/-- The elements of a buffer from `start` up to `stop`; a range that is no part of the buffer is a
panic. -/
def sliceOrPanic (buffer : Array Single) (start stop : Nat) : Except Failure (Array Single) := do
  panicUnless (start ≤ stop ∧ stop ≤ buffer.size)
  return buffer.extract start stop

/-- The end of a call that works on an output matrix. -/
structure Outcome (α : Type) where
  result : Except Failure α
  output : Array Single

/-- An outcome with its result mapped. -/
def Outcome.map {α β : Type} (f : α → β) (outcome : Outcome α) : Outcome β :=
  ⟨f <$> outcome.result, outcome.output⟩

end PanelGemm
