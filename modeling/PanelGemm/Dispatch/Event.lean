import PanelGemm.Level

/-!
# Events

What a dispatcher reports while it works. Each event has a severity and a text.
-/

set_option autoImplicit false
set_option relaxedAutoImplicit false

namespace PanelGemm

/-- How much an event matters. -/
inductive Severity where
  | warn
  | debug
  | trace
  deriving DecidableEq

/-- The name of a severity. -/
def Severity.name : Severity → String
  | warn => "WARN"
  | debug => "DEBUG"
  | trace => "TRACE"

/-- Something a dispatcher reports. -/
inductive Event where
  /-- A level is requested that the host does not support. -/
  | overruled (requested host : Level)
  /-- The level to dispatch for is decided. -/
  | dispatching (level : Level)
  /-- An engine is made on the vector kernels of a level. -/
  | selected (level : Level) (tallest width : Nat)
  /-- An operand is packed. -/
  | packed (rows columns : Nat) (level : Level) (blocks width : Nat)
  /-- A product is computed. -/
  | computed (level : Level) (m n k tiles calls threads : Nat)
  deriving DecidableEq

namespace Event

/-- The severity of an event. -/
def severity : Event → Severity
  | overruled _ _ => .warn
  | dispatching _ => .debug
  | selected _ _ _ => .debug
  | packed _ _ _ _ _ => .trace
  | computed _ _ _ _ _ _ _ => .trace

/-- An event in words. -/
def text : Event → String
  | overruled requested host =>
    s!"requested ISA {requested.name} is not supported by this CPU, using {host.name}"
  | dispatching level => s!"dispatching GEMM kernels for {level.name}"
  | selected level tallest width =>
    s!"selected {level.name} kernels: up to {tallest} rows, block width {width}"
  | packed rows columns level blocks width =>
    s!"packed {rows}x{columns} operand for {level.name}: {blocks} column blocks of {width}"
  | computed level m n k tiles calls threads =>
    s!"{level.name} gemm {m}x{n}x{k}: {tiles} tiles, {calls} kernel calls, {threads} threads"

end Event

end PanelGemm
