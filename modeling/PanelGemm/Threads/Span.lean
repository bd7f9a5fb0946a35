import PanelGemm.Arithmetic

/-!
# Spans

The items `0 .. total` are shared among workers in consecutive spans whose lengths differ by at
most one, the longer ones first. `Span.share` is the span of one worker, and `Span.share?` the one
that is computed in machine words, for any worker. A `ThreadSlot` is the place of one worker among
several. `ThreadSlot.make` accepts a place only within their number, but slots are plain pairs, and
others can be written down.
-/

set_option autoImplicit false
set_option relaxedAutoImplicit false

namespace PanelGemm

/-- The items from `start` up to, but not including, `stop`. -/
structure Span where
  start : Nat
  stop : Nat
  deriving DecidableEq

namespace Span

/-- The span of one worker among `workers`, of which there is at least one. -/
def share (worker workers total : Nat) : Span :=
  let length := total / workers
  let extra := total % workers
  let start := worker * length + min worker extra
  ⟨start, start + (length + if worker < extra then 1 else 0)⟩

/-- The span of a worker in machine words; there is none without workers, and asking for it is a
panic. -/
def share? (arithmetic : Arithmetic) (worker workers total : Nat) : Except Failure Span := do
  panicUnless (workers ≠ 0)
  let length := total / workers
  let extra := total % workers
  let start ← arithmetic.word (worker * length + min worker extra)
  let stop ← arithmetic.word (start + (length + if worker < extra then 1 else 0))
  return ⟨start, stop⟩

/-- The items of a list that lie in a span. -/
def slice {α : Type} (span : Span) (items : List α) : List α :=
  (items.drop span.start).take (span.stop - span.start)

/-- The items of a list that lie in a span, which has to be a part of the list. -/
def slice? {α : Type} (span : Span) (items : List α) : Except Failure (List α) := do
  panicUnless (span.start ≤ span.stop ∧ span.stop ≤ items.length)
  return span.slice items

end Span

/-- The place of one worker among several. -/
structure ThreadSlot where
  thread : Nat
  threads : Nat
  deriving DecidableEq

namespace ThreadSlot

/-- The place of a worker, if there are so many workers. -/
def make (thread threads : Nat) : Except Refusal ThreadSlot :=
  if thread < threads then .ok ⟨thread, threads⟩
  else .error (.shapeMismatch (.threadRange thread threads))

/-- The only worker. -/
def alone : ThreadSlot := ⟨0, 1⟩

/-- The span of a worker. -/
def span (arithmetic : Arithmetic) (slot : ThreadSlot) (total : Nat) : Except Failure Span :=
  Span.share? arithmetic slot.thread slot.threads total

end ThreadSlot

end PanelGemm
