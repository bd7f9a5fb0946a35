/-!
# Blank characters

A character is blank if it has the Unicode property of being white space: twenty-five characters,
the ASCII ones among them. `Text.trim` removes the blanks from both ends of a text and leaves
those inside it.
-/

set_option autoImplicit false
set_option relaxedAutoImplicit false

namespace PanelGemm.Text

/-- The inclusive ranges of the white-space characters. -/
def blankRanges : List (Nat × Nat) :=
  [(0x9, 0xD), (0x20, 0x20), (0x85, 0x85), (0xA0, 0xA0), (0x1680, 0x1680), (0x2000, 0x200A),
    (0x2028, 0x2029), (0x202F, 0x202F), (0x205F, 0x205F), (0x3000, 0x3000)]

/-- Whether a character is white space. -/
def isBlank (c : Char) : Bool :=
  blankRanges.any fun range ↦ range.1 ≤ c.toNat && c.toNat ≤ range.2

/-- A row of characters without the blanks at its end. -/
def trimEnd (text : List Char) : List Char := (text.reverse.dropWhile isBlank).reverse

/-- A row of characters without the blanks at its two ends. -/
def trim (text : List Char) : List Char := trimEnd (text.dropWhile isBlank)

end PanelGemm.Text
