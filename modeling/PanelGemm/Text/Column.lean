/-!
# Text in columns

A text is padded with spaces to a column width, counted in characters. A text that is wider than
its column is left whole.
-/

set_option autoImplicit false
set_option relaxedAutoImplicit false

namespace PanelGemm.Text

/-- A text at the left edge of a column. -/
def flushLeft (width : Nat) (text : String) : String := text.pushn ' ' (width - text.length)

/-- A text at the right edge of a column. -/
def flushRight (width : Nat) (text : String) : String :=
  "".pushn ' ' (width - text.length) ++ text

/-- A ruled line of one repeated character. -/
def rule (c : Char) (width : Nat) : String := "".pushn c width

end PanelGemm.Text
