import PanelGemm.Refusal
import PanelGemm.Text.Blank

/-!
# Spellings of the levels

A level is recognised by its canonical name or an alias, in any mixture of ASCII cases and with
white space around it. Only the letters from `a` to `z` are raised to capitals, so no letter of
another script can take part in a name.
-/

set_option autoImplicit false
set_option relaxedAutoImplicit false

namespace PanelGemm.Level

/-- The names of a level, the canonical one first. -/
def spellings : Level → List String
  | baseline => ["BASELINE", "ANYARCH", "SCALAR"]
  | neon => ["NEON"]
  | avx2 => ["AVX2"]
  | avx512Ymm => ["AVX512_YMM", "AVX512_256"]
  | avx512 => ["AVX512"]

/-- The level with a given name. -/
def ofSpelling? (word : String) : Option Level :=
  all.find? fun level ↦ level.spellings.contains word

/-- A text without surrounding white space and with its ASCII letters raised to capitals. -/
def normalForm (text : String) : String :=
  String.ofList ((Text.trim text.toList).map Char.toUpper)

/-- The level that a text names. -/
def read (text : String) : Except Refusal Level :=
  match ofSpelling? (normalForm text) with
  | some level => .ok level
  | none => .error (.environment (.unknownLevel (normalForm text)))

end PanelGemm.Level
