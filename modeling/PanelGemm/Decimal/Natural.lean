import PanelGemm.Word

/-!
# Reading natural numbers

`Decimal.readExtent?` reads the text of a machine-word extent: an optional plus sign, then one or
more ASCII digits, with a value below `2 ^ 64`. Leading zeros are allowed; a minus sign, a blank,
an underscore or a digit of another script is not.
-/

set_option autoImplicit false
set_option relaxedAutoImplicit false

namespace PanelGemm.Decimal

/-- Whether a character is an ASCII digit. -/
def isDigit (c : Char) : Bool := '0' ≤ c && c ≤ '9'

/-- The value of an ASCII digit. -/
def digitValue (c : Char) : Nat := c.toNat - '0'.toNat

/-- The value of a row of digits, the most significant one first. -/
def valueOf (digits : List Char) : Nat :=
  digits.foldl (fun value c ↦ 10 * value + digitValue c) 0

/-- The characters after an optional leading plus sign. -/
def withoutPlus : List Char → List Char
  | '+' :: rest => rest
  | text => text

/-- The machine word that a text denotes. -/
def readExtent? (text : List Char) : Option Nat :=
  let digits := withoutPlus text
  if digits ≠ [] ∧ digits.all isDigit ∧ valueOf digits < Word.limit then
    some (valueOf digits)
  else
    none

end PanelGemm.Decimal
