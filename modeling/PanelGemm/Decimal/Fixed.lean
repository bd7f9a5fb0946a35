import PanelGemm.Binary.Arithmetic

/-!
# Decimal text with a fixed number of places

`Binary.fixed` writes a datum with a given number of digits after the point. The digits are those
of the exact value rounded once, an exact tie going to the even digit, so no digit of a large
value is lost. A negative zero keeps its sign.
-/

set_option autoImplicit false
set_option relaxedAutoImplicit false

namespace PanelGemm

namespace Decimal

/-- A natural in decimal digits, padded with zeros on the left to at least a given width. -/
def padded (width n : Nat) : String :=
  let digits := toString n
  "".pushn '0' (width - digits.length) ++ digits

/-- A count of `10 ^ -places` units, written out. -/
def ofUnits (places units : Nat) : String :=
  let whole := toString (units / Nat.pow 10 places)
  if places = 0 then whole else whole ++ "." ++ padded places (units % Nat.pow 10 places)

end Decimal

/-- A datum with a fixed number of decimal places. -/
def Binary.fixed {format : Format} (places : Nat) (x : Binary format) : String :=
  let sign (negative : Bool) : String := bif negative then "-" else ""
  match x.exact with
  | .nan => "NaN"
  | .infinite negative => sign negative ++ "inf"
  | .finite negative m e =>
    sign negative ++ Decimal.ofUnits places
      (roundQuotient ((m * Nat.pow 10 places) <<< e.toNat) (1 <<< (-e).toNat))

end PanelGemm
