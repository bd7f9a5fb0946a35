import PanelGemm.Binary.Exact

/-!
# Rounded arithmetic

Every operation is the exact one followed by a single rounding to the nearest datum, an exact tie
going to the even significand, with gradual underflow and overflow to infinity. `roundQuotient`
is the rounding of a quotient of naturals, `Format.roundCode` the code that the magnitude
`m * 2 ^ e` rounds to, and `Binary.round` rounds an `Exact` value. The code grows with the
magnitude, a carry out of a binade lands on the first code of the next one, and the minimum with
the code of infinity is the overflow rule.
-/

set_option autoImplicit false
set_option relaxedAutoImplicit false

namespace PanelGemm

/-- The natural nearest to `numerator / denominator`, an exact half going to the even one. -/
def roundQuotient (numerator denominator : Nat) : Nat :=
  let quotient := numerator / denominator
  let twice := 2 * (numerator % denominator)
  if twice < denominator then quotient
  else if denominator < twice then quotient + 1
  else quotient + quotient % 2

namespace Format

/-- The exponent of the last place that a magnitude `m * 2 ^ e` keeps: `precision` bits from its
leading one, but never below the least exponent. -/
def lastPlace (format : Format) (m : Nat) (e : Int) : Int :=
  max (e + (m.log2 + 1 : Nat) - format.precision) format.leastExponent

/-- The code of the magnitude nearest to `m * 2 ^ e`, overflow not yet cut off. -/
def roundCode (format : Format) (m : Nat) (e : Int) : Nat :=
  if m = 0 then 0
  else
    let place := format.lastPlace m e
    (place - format.leastExponent).toNat * format.binade +
      roundQuotient (m <<< (e - place).toNat) (1 <<< (place - e).toNat)

end Format

namespace Binary

variable {format : Format}

/-- The datum nearest to a signed magnitude. -/
def roundFinite (negative : Bool) (m : Nat) (e : Int) : Binary format :=
  number negative (min (format.roundCode m e) format.infinityCode) (Nat.min_le_right _ _)

/-- The datum nearest to an exact value. -/
def round : Exact → Binary format
  | .nan => nan
  | .infinite negative => infinity negative
  | .finite negative m e => roundFinite negative m e

/-- The product, rounded. -/
def mul (x y : Binary format) : Binary format := round (x.exact.mul y.exact)

/-- The sum, rounded. -/
def add (x y : Binary format) : Binary format := round (x.exact.add y.exact)

/-- The fused multiply-add `x * y + z`, rounded once. -/
def fma (x y z : Binary format) : Binary format := round ((x.exact.mul y.exact).add z.exact)

/-- The datum nearest to the quotient of two finite magnitudes, the divisor not zero. Enough
quotient bits are taken for the remainder to matter only as one bit below the last of them. -/
def divFinite (negative : Bool) (m : Nat) (e : Int) (n : Nat) (g : Int) : Binary format :=
  let shift := n.log2 + format.precision + 2
  let scaled := m <<< shift
  roundFinite negative (2 * (scaled / n) + (if scaled % n = 0 then 0 else 1)) (e - g - shift - 1)

/-- The quotient, rounded. -/
def div (x y : Binary format) : Binary format :=
  match x.exact, y.exact with
  | .nan, _ => nan
  | _, .nan => nan
  | .infinite _, .infinite _ => nan
  | .infinite s, .finite t _ _ => infinity (s ^^ t)
  | .finite s _ _, .infinite t => signedZero (s ^^ t)
  | .finite s m e, .finite t n g =>
    if n = 0 then (if m = 0 then nan else infinity (s ^^ t))
    else divFinite (s ^^ t) m e n g

/-- The datum nearest to a natural number. -/
def ofNat (n : Nat) : Binary format := roundFinite false n 0

/-- One. -/
def one : Binary format := ofNat 1

end Binary

end PanelGemm
