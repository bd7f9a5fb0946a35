/-!
# Letters drawn as nothing

A filler stands in a Hangul syllable for a part that is left out. It is a letter, and yet nothing is
drawn for it: the fillers are the only letters that Unicode 17 lets a display ignore.
-/

set_option autoImplicit false
set_option relaxedAutoImplicit false

namespace PanelGemm.Text

/-- The letters drawn as nothing: a filler for a leading consonant, one for a vowel, and one for a
letter in full and in half width. -/
def fillers : List Char := ['\u115F', '\u1160', '\u3164', '\uFFA0']

/-- Whether a character is a letter drawn as nothing. -/
def isFiller (c : Char) : Bool := fillers.contains c

end PanelGemm.Text
