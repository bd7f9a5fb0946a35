import Mathlib.Tactic.SplitIfs
import PanelGemm.Dispatch.Service

/-!
# Answers without a dispatcher

What a call to the running program answers on a platform under given settings (`Call.answer`). No
dispatcher and no cache takes part in it. Only some calls come to the point where they consult the
settings, and only some of these detect the level. Refused settings are refused to all calls that
consult them, and the other calls answer the same under all settings.
-/

set_option autoImplicit false
set_option relaxedAutoImplicit false

namespace PanelGemm

/-! ### Calls and their answers -/

/-- A call to a running program. -/
inductive Call where
  | capability
  | configuration
  | detected
  | engineFor (level : Level)
  | packWith (level : Level) (source : Packing.Source) (blockRows? : Option Nat)
  | pack (data : Array Single) (k n : Int) (stride : Nat)
  | run (engine : Engine) (request : Request) (output : Array Single) (threads : Nat)
  | runShare (engine : Engine) (request : Request) (output : Array Single) (slot : ThreadSlot)
  | gemm (orientation : Orientation) (m : Int) (left : Array Single) (panel : Panel)
    (beta : Single) (output : Array Single) (thread threads : Nat)
  | gemmParallel (orientation : Orientation) (m : Int) (left : Array Single) (panel : Panel)
    (beta : Single) (output : Array Single) (threads : Nat)
  | multiply (left right output : Array Single) (m n k threads : Nat)

/-- What a call answers. -/
inductive Answer where
  | level (result : Except Refusal Level)
  | config (result : Except Refusal Config)
  | engine (result : Except Failure Engine)
  | panel (result : Except Failure Panel)
  | outcome (outcome : Outcome RunStats)

/-- The level that a configuration settles on. -/
def Config.level (host : Host) (config : Config) : Level := host.resolve config.levelOverride

/-- The engine for a level. -/
def Engine.forLevel (host : Host) (level : Level) : Except Failure Engine :=
  if level = .baseline then .ok scalar
  else if host.supports level then Engine.mk <$> Refusal.check (Family.lookup level)
  else .error (.refused (.unsupportedLevel level))

/-- The outcome of a call that needs a preparation; if that fails the output is left alone. -/
def Outcome.afterwards {α β : Type} (preparation : Except Failure α) (output : Array Single)
    (call : α → Outcome β) : Outcome β :=
  match preparation with
  | .ok value => call value
  | .error failure => ⟨.error failure, output⟩

namespace Dense

/-- The panel that packing a row-major operand gives under given settings. -/
def packUnder (platform : Platform) (settings : Except Refusal Config) (data : Array Single)
    (k n : Int) (stride : Nat) : Except Failure Panel := do
  let rows ← Refusal.check (extent "k" k)
  let columns ← Refusal.check (extent "n" n)
  let config ← Refusal.check settings
  Panel.pack platform.arithmetic (config.level platform.host)
    ⟨data, .plain, stride, rows, columns, .one⟩ config.blockRows

/-- What the share of one thread is computed with. -/
def shareParts (platform : Platform) (m : Int) (left : Array Single) (panel : Panel)
    (output : Array Single) (thread threads : Nat) :
    Except Failure (Nat × ThreadSlot × Engine) := do
  let rows ← Refusal.check (extent "m" m)
  let slot ← Refusal.check (ThreadSlot.make thread threads)
  checkOperands platform.arithmetic rows left panel output
  return (rows, slot, ← Engine.forLevel platform.host panel.level)

/-- What a product with a packed operand is computed with. -/
def productParts (platform : Platform) (m : Int) (left : Array Single) (panel : Panel)
    (output : Array Single) : Except Failure (Nat × Engine) := do
  let rows ← Refusal.check (extent "m" m)
  checkOperands platform.arithmetic rows left panel output
  return (rows, ← Engine.forLevel platform.host panel.level)

/-- Checks that the buffers of plain operands have exactly their sizes. -/
def checkSizes (arithmetic : Arithmetic) (left right output : Array Single) (m n k : Nat) :
    Except Failure Unit := do
  checkSize arithmetic .a left.size m k
  checkSize arithmetic .b right.size k n
  checkSize arithmetic .c output.size m n

/-- What a product of plain operands is computed with under given settings. -/
def multiplyParts (platform : Platform) (settings : Except Refusal Config)
    (left right output : Array Single) (m n k : Nat) : Except Failure (Panel × Engine) := do
  checkSizes platform.arithmetic left right output m n k
  let config ← Refusal.check settings
  let panel ← Panel.pack platform.arithmetic (config.level platform.host)
    ⟨right, .plain, n, k, n, .one⟩ config.blockRows
  return (panel, ← Engine.forLevel platform.host (config.level platform.host))

end Dense

namespace Call

/-- The call as the dispatcher of the program carries it out. -/
def perform : Call → Dispatch Answer
  | capability => Answer.level <$> Dispatcher.level
  | configuration => Answer.config <$> Dispatcher.config
  | detected => Answer.engine <$> Engine.detected.run
  | engineFor level => Answer.engine <$> (Engine.ofLevel level).run
  | packWith level source blockRows? =>
    Answer.panel <$> (Panel.packWith level source blockRows?).run
  | pack data k n stride => Answer.panel <$> (Dense.pack data k n stride).run
  | run engine request output threads =>
    Answer.outcome <$> engine.runReported request output threads
  | runShare engine request output slot => pure (.outcome (engine.runShare request output slot))
  | gemm orientation m left panel beta output thread threads =>
    Answer.outcome <$> Dense.gemm orientation m left panel beta output thread threads
  | gemmParallel orientation m left panel beta output threads =>
    Answer.outcome <$> Dense.gemmParallel orientation m left panel beta output threads
  | multiply left right output m n k threads =>
    Answer.outcome <$> Dense.multiply left right output m n k threads

/-- What a call answers under given settings. -/
def answer (platform : Platform) (settings : Except Refusal Config) : Call → Answer
  | capability => .level (Config.level platform.host <$> settings)
  | configuration => .config settings
  | detected => .engine do
    let config ← Refusal.check settings
    Engine.forLevel platform.host (config.level platform.host)
  | engineFor level => .engine (Engine.forLevel platform.host level)
  | packWith level source (some blockRows) =>
    .panel (Panel.pack platform.arithmetic level source blockRows)
  | packWith level source none => .panel do
    let config ← Refusal.check settings
    Panel.pack platform.arithmetic level source config.blockRows
  | pack data k n stride => .panel (Dense.packUnder platform settings data k n stride)
  | run engine request output threads => .outcome (engine.run request output threads)
  | runShare engine request output slot => .outcome (engine.runShare request output slot)
  | gemm orientation m left panel beta output thread threads =>
    .outcome (.afterwards (Dense.shareParts platform m left panel output thread threads) output
      fun (rows, slot, engine) ↦ engine.runShare
        (Dense.request platform.arithmetic orientation rows left panel beta) output slot)
  | gemmParallel orientation m left panel beta output threads =>
    .outcome (.afterwards (Dense.productParts platform m left panel output) output
      fun (rows, engine) ↦ engine.run
        (Dense.request platform.arithmetic orientation rows left panel beta) output threads)
  | multiply left right output m n k threads =>
    .outcome (.afterwards (Dense.multiplyParts platform settings left right output m n k) output
      fun (panel, engine) ↦ engine.run
        (Dense.request platform.arithmetic .plain m left panel .one) output
        (ThreadBudget.chooseThreads m n k threads))

/-- Whether a call comes to the point where it detects the level. -/
def detects (platform : Platform) : Call → Bool
  | capability | detected => true
  | pack _ k n _ => 0 ≤ k ∧ 0 ≤ n
  | multiply left right output m n k _ =>
    (Dense.checkSizes platform.arithmetic left right output m n k).isOk
  | _ => false

/-- Whether a call comes to the point where it consults the settings. -/
def consults (platform : Platform) : Call → Bool
  | configuration | packWith _ _ none => true
  | call => call.detects platform

/-- The answer to a call that is refused and leaves its output alone. -/
def refused (reason : Refusal) : Call → Answer
  | capability => .level (.error reason)
  | configuration => .config (.error reason)
  | detected | engineFor _ => .engine (.error (.refused reason))
  | packWith _ _ _ | pack _ _ _ _ => .panel (.error (.refused reason))
  | run _ _ output _ | runShare _ _ output _ | gemm _ _ _ _ _ output _ _
  | gemmParallel _ _ _ _ _ output _ | multiply _ _ output _ _ _ _ =>
    .outcome ⟨.error (.refused reason), output⟩

end Call

namespace Dense

theorem check_extent (name : String) (value : Int) : Refusal.check (extent name value) =
    if 0 ≤ value then .ok value.toNat else .error (.refused (.negativeExtent name value)) := by
  unfold extent
  by_cases h : 0 ≤ value
  · rw [if_neg (Int.not_lt.mpr h), if_pos h]
    rfl
  · rw [if_pos (Int.not_le.mp h), if_neg h]
    rfl

theorem isOk_extent (name : String) (value : Int) :
    (Refusal.check (extent name value)).isOk = decide (0 ≤ value) := by
  rw [check_extent]
  by_cases h : 0 ≤ value
  · rw [if_pos h, decide_eq_true h]
    rfl
  · rw [if_neg h, decide_eq_false h]
    rfl

theorem nonneg_of_extent {name : String} {value : Int} {rows : Nat}
    (h : Refusal.check (extent name value) = .ok rows) : 0 ≤ value := by
  have hisOk := isOk_extent name value
  rw [h] at hisOk
  exact of_decide_eq_true hisOk.symm

/-- All sizes are accepted if each of them is. -/
theorem isOk_checkSizes (arithmetic : Arithmetic) (left right output : Array Single)
    (m n k : Nat) : (checkSizes arithmetic left right output m n k).isOk =
      ((checkSize arithmetic .a left.size m k).isOk &&
        ((checkSize arithmetic .b right.size k n).isOk &&
          ((checkSize arithmetic .c output.size m n).isOk && true))) := by
  unfold checkSizes
  cases checkSize arithmetic .a left.size m k with
  | error failure => rfl
  | ok =>
    cases checkSize arithmetic .b right.size k n with
    | error failure => rfl
    | ok => cases checkSize arithmetic .c output.size m n <;> rfl

theorem packUnder_of_negative (platform : Platform) (settings settings' : Except Refusal Config)
    (data : Array Single) {k n : Int} (stride : Nat) (h : ¬ (0 ≤ k ∧ 0 ≤ n)) :
    packUnder platform settings data k n stride = packUnder platform settings' data k n stride := by
  unfold packUnder
  rw [check_extent, check_extent]
  by_cases hk : 0 ≤ k
  · rw [if_neg fun hn ↦ h ⟨hk, hn⟩]
    rfl
  · rw [if_neg hk]
    rfl

theorem multiplyParts_of_not_isOk (platform : Platform) (settings settings' : Except Refusal Config)
    {left right output : Array Single} {m n k : Nat}
    (h : (checkSizes platform.arithmetic left right output m n k).isOk = false) :
    multiplyParts platform settings left right output m n k =
      multiplyParts platform settings' left right output m n k := by
  unfold multiplyParts
  cases hsizes : checkSizes platform.arithmetic left right output m n k with
  | ok =>
    rw [hsizes] at h
    exact nomatch h
  | error failure => rfl

end Dense

namespace Call

variable {platform : Platform} {call : Call}

/-- A call that does not consult the settings answers the same under all of them. -/
theorem answer_of_not_consults (h : call.consults platform = false)
    (settings settings' : Except Refusal Config) :
    call.answer platform settings = call.answer platform settings' := by
  cases call with
  | capability => exact nomatch h
  | configuration => exact nomatch h
  | detected => exact nomatch h
  | engineFor level => rfl
  | packWith level source blockRows? =>
    cases blockRows? with
    | none => exact nomatch h
    | some blockRows => rfl
  | pack data k n stride =>
    exact congrArg Answer.panel
      (Dense.packUnder_of_negative platform settings settings' data stride (of_decide_eq_false h))
  | run engine request output threads => rfl
  | runShare engine request output slot => rfl
  | gemm orientation m left panel beta output thread threads => rfl
  | gemmParallel orientation m left panel beta output threads => rfl
  | multiply left right output m n k threads =>
    simp only [answer, Dense.multiplyParts_of_not_isOk platform settings settings' h]

end Call

end PanelGemm
