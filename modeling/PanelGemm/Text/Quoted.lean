import PanelGemm.Text.Extending
import PanelGemm.Text.Filler
import PanelGemm.Text.Unprintable

/-!
# Quoted text

`Text.quoted` puts a text between double quotes so that every character of it can be seen. The
quote and the backslash take a backslash, four control characters have a sign of their own, and a
character that has no printed form, that is drawn as nothing, or that would be drawn on its
neighbour, is written as its code in hexadecimal. All other characters stand for themselves; an
apostrophe is one of them.
-/

set_option autoImplicit false
set_option relaxedAutoImplicit false

namespace PanelGemm.Text

/-- A code in hexadecimal digits, without leading zeros. -/
def hexadecimal (code : Nat) : String := String.ofList (Nat.toDigits 16 code)

/-- Whether a character could not be seen in a quoted text as itself. -/
def isHidden (c : Char) : Bool := isUnprintable c || isFiller c || isExtending c

/-- A character as it stands in a quoted text. -/
def quotedChar (c : Char) : String :=
  match c with
  | '\x00' => "\\0"
  | '\t' => "\\t"
  | '\r' => "\\r"
  | '\n' => "\\n"
  | '\\' => "\\\\"
  | '"' => "\\\""
  | c => if isHidden c then "\\u\x7b" ++ hexadecimal c.toNat ++ "\x7d" else c.toString

/-- A text between double quotes. -/
def quoted (text : String) : String :=
  "\"" ++ String.join (text.toList.map quotedChar) ++ "\""

end PanelGemm.Text
