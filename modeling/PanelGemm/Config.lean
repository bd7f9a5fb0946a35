import PanelGemm.Decimal.Natural
import PanelGemm.Level.Spelling

/-!
# Configuration

Two texts of the environment configure the dispatch: a level to use in place of the detected one,
and the height of a K-block. A text that is absent or blank leaves its setting at the default.
`Config.read` looks at the level first, so a bad level is reported whatever the other text holds.
-/

set_option autoImplicit false
set_option relaxedAutoImplicit false

namespace PanelGemm

/-- The two configuration texts of an environment. -/
structure Environment where
  level : Option String
  blockRows : Option String
  deriving DecidableEq, Inhabited

/-- The environment in which nothing is set. -/
def Environment.unset : Environment := ⟨none, none⟩

/-- What the environment settles. -/
structure Config where
  levelOverride : Option Level
  blockRows : Nat
  deriving DecidableEq

namespace Config

/-- The height of a K-block unless it is configured. -/
def defaultBlockRows : Nat := 512

/-- A setting that holds more than white space. -/
def given? (text? : Option String) : Option String :=
  text?.filter fun text ↦ !(Text.trim text.toList).isEmpty

/-- The level that a setting asks for. -/
def readLevel (text : String) : Except Refusal Level :=
  match Level.ofSpelling? (Level.normalForm text) with
  | some level => .ok level
  | none => .error (.environment (.levelSetting (Level.normalForm text)))

/-- The height of a K-block that a setting asks for. -/
def readBlockRows (text : String) : Except Refusal Nat :=
  match Decimal.readExtent? (Text.trim text.toList) with
  | some rows =>
    if rows = 0 then .error (.environment (.blockRowsSetting text)) else .ok rows
  | none => .error (.environment (.blockRowsSetting text))

/-- The configuration that an environment asks for. -/
def read (environment : Environment) : Except Refusal Config := do
  let levelOverride ← (given? environment.level).mapM readLevel
  let blockRows? ← (given? environment.blockRows).mapM readBlockRows
  return ⟨levelOverride, blockRows?.getD defaultBlockRows⟩

end Config

end PanelGemm
