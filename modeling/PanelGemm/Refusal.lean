import PanelGemm.Level
import PanelGemm.Text.Quoted

/-!
# Refusals

A `Refusal` is the reason why a call declines its input. Each case holds the facts of the matter,
and `Refusal.message` is the one place where they are put into words.
-/

set_option autoImplicit false
set_option relaxedAutoImplicit false

namespace PanelGemm

/-- The environment variable that names a level. -/
def levelVariable : String := "MATMUL_DISPATCH_ISA"

/-- The environment variable that sets the height of a K-block. -/
def blockRowsVariable : String := "MATMUL_DISPATCH_BLOCK_ROWS"

/-- What is wrong with a text that should configure the dispatch. -/
inductive SettingFault where
  /-- A text, trimmed and in capitals, that names no level. -/
  | unknownLevel (text : String)
  /-- The level variable holds such a text. -/
  | levelSetting (text : String)
  /-- The block-rows variable holds a text that is no positive machine word. -/
  | blockRowsSetting (text : String)
  /-- Any other fault, in words. -/
  | described (text : String)
  deriving DecidableEq

/-- An operand of a dense product. -/
inductive Operand where
  | a
  | b
  | c
  deriving DecidableEq

/-- What does not fit among shapes, strides, lengths and thread counts. -/
inductive ShapeFault where
  | zeroBlockRows
  | shortStride (stride columns : Nat)
  | shortBuffer (rows columns stride needed size : Nat)
  | zeroThreads
  | panelWidth (panelLevel : Level) (panelWidth : Nat) (kernelLevel : Level) (kernelWidth : Nat)
  | shortOutputStride (stride columns : Nat)
  | threadRange (thread threads : Nat)
  | operandSize (operand : Operand) (rows columns needed size : Nat)
  | described (text : String)
  deriving DecidableEq

/-- Why a tile does not lie in the rows it is given. -/
inductive TileFault where
  | beforeBand
  | empty
  | beyondBand (needed size : Nat)
  | described (text : String)
  deriving DecidableEq

/-- Why a call declines its input. -/
inductive Refusal where
  | environment (fault : SettingFault)
  | unsupportedLevel (level : Level)
  | negativeExtent (name : String) (value : Int)
  | shapeMismatch (fault : ShapeFault)
  | missingKernel (level : Level) (rows tallest : Nat)
  | misplacedTile (row rows : Nat) (fault : TileFault)
  | workerPanicked (worker : Nat)
  deriving DecidableEq

namespace SettingFault

/-- The words for a text that names no level. -/
def unknownLevelWords (text : String) : String := "unknown instruction set " ++ Text.quoted text

/-- A complaint about the environment. -/
def complaint (words : String) : String := "ISA detection failed: " ++ words

/-- The words for a fault of a setting. The complaint about a level setting holds the whole
complaint about its text. -/
def words : SettingFault → String
  | unknownLevel text => unknownLevelWords text
  | levelSetting text => levelVariable ++ ": " ++ complaint (unknownLevelWords text)
  | blockRowsSetting text =>
    blockRowsVariable ++ ": expected a positive integer, got " ++ Text.quoted text
  | described text => text

end SettingFault

/-- The letter of an operand. -/
def Operand.name : Operand → String
  | a => "A"
  | b => "B"
  | c => "C"

/-- The words for a fault of shapes. -/
def ShapeFault.words : ShapeFault → String
  | zeroBlockRows => "K-block height must be positive"
  | shortStride stride columns =>
    s!"leading dimension {stride} is smaller than {columns} columns"
  | shortBuffer rows columns stride needed size =>
    s!"{rows}x{columns} matrix with leading dimension {stride} needs {needed} elements, got {size}"
  | zeroThreads => "num_threads must be at least 1"
  | panelWidth panelLevel width kernelLevel kernelWidth =>
    s!"panel packed for {panelLevel.name} (block width {width}) cannot feed " ++
      s!"{kernelLevel.name} kernels (block width {kernelWidth})"
  | shortOutputStride stride columns => s!"ldc {stride} is smaller than N = {columns}"
  | threadRange thread threads => s!"thread {thread} out of range for {threads} threads"
  | operandSize operand rows columns needed size =>
    s!"{operand.name}: expected {rows}x{columns}={needed} elements, got {size}"
  | described text => text

/-- The words for a fault of a tile. -/
def TileFault.words : TileFault → String
  | beforeBand => "tile starts before its band"
  | empty => "empty tile"
  | beyondBand needed size => s!"needs {needed} elements of C, band has {size}"
  | described text => text

/-- A refusal in words. -/
def Refusal.message : Refusal → String
  | environment fault => SettingFault.complaint fault.words
  | unsupportedLevel level => s!"no kernel family compiled for capability level {level.name}"
  | negativeExtent name value => s!"invalid dimension {name}={value}: must be non-negative"
  | shapeMismatch fault => "dimension mismatch: " ++ fault.words
  | missingKernel level rows tallest =>
    s!"no {level.name} kernel for {rows} rows (table max {tallest})"
  | misplacedTile row rows fault =>
    s!"tile at row {row} ({rows} rows) out of bounds: {fault.words}"
  | workerPanicked worker => s!"worker thread {worker} panicked"

end PanelGemm
