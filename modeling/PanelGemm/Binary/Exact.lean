import PanelGemm.Binary.Format

/-!
# Exact values

An `Exact` value is what an operation means before it is rounded: a NaN, a signed infinity, or a
signed integer multiple of a power of two, where zero keeps its sign. `Binary.exact` is the
meaning of a datum; `Exact.mul` and `Exact.add` lose nothing, so several operations can be
composed and rounded once.
-/

set_option autoImplicit false
set_option relaxedAutoImplicit false

namespace PanelGemm

/-- A value before rounding; `finite negative significand exponent` is
`± significand * 2 ^ exponent`. -/
inductive Exact where
  | nan
  | infinite (negative : Bool)
  | finite (negative : Bool) (significand : Nat) (exponent : Int)
  deriving DecidableEq

namespace Exact

/-- The integer with a given sign and magnitude. -/
def signed (negative : Bool) (magnitude : Nat) : Int :=
  bif negative then -(magnitude : Int) else magnitude

/-- The exact product; an infinity times a zero is no number. -/
def mul : Exact → Exact → Exact
  | nan, _ => nan
  | _, nan => nan
  | infinite s, infinite t => infinite (s ^^ t)
  | infinite s, finite t m _ => if m = 0 then nan else infinite (s ^^ t)
  | finite s m _, infinite t => if m = 0 then nan else infinite (s ^^ t)
  | finite s m e, finite t n g => finite (s ^^ t) (m * n) (e + g)

/-- The exact sum of two finite values over their smaller exponent. A sum of zero is negative only
if both operands are. -/
def addFinite (s : Bool) (m : Nat) (e : Int) (t : Bool) (n : Nat) (g : Int) : Exact :=
  let least := min e g
  let sum := signed s (m <<< (e - least).toNat) + signed t (n <<< (g - least).toNat)
  finite (if sum = 0 then s && t else decide (sum < 0)) sum.natAbs least

/-- The exact sum; infinities of unlike sign have none. -/
def add : Exact → Exact → Exact
  | nan, _ => nan
  | _, nan => nan
  | infinite s, infinite t => if s = t then infinite s else nan
  | infinite s, finite _ _ _ => infinite s
  | finite _ _ _, infinite t => infinite t
  | finite s m e, finite t n g => addFinite s m e t n g

end Exact

namespace Binary

variable {format : Format}

/-- The significand of the magnitude with a given code: the leading bit is implicit from the
second binade on. -/
def significand (format : Format) (code : Nat) : Nat :=
  if code / format.binade = 0 then code else format.binade + code % format.binade

/-- The exponent of the magnitude with a given code: the first two binades share the least one. -/
def exponent (format : Format) (code : Nat) : Int :=
  format.leastExponent + (code / format.binade - 1 : Nat)

/-- What a datum means. -/
def exact : Binary format → Exact
  | nan => .nan
  | number negative code _ =>
    if code = format.infinityCode then .infinite negative
    else .finite negative (significand format code) (exponent format code)

end Binary

end PanelGemm
