/-!
# Binary floating-point formats

A `Format` is the shape of a binary interchange format: how many bits a significand has and how
many bits an exponent has. `Binary format` is the type of its data. There is one NaN; every other
datum is a sign and a *code*, the position of the magnitude in the increasing list of all
magnitudes of the format, zero first and infinity last. The code is also the bit pattern without
its sign bit, so comparing magnitudes is comparing codes.

`Binary.ofBits` reads a bit pattern and `Binary.toBits?` writes it back.
-/

set_option autoImplicit false
set_option relaxedAutoImplicit false

namespace PanelGemm

/-- The shape of a binary interchange format: the number of bits of a significand, the implicit
leading bit included, and the number of bits of an exponent. -/
structure Format where
  precision : Nat
  exponentBits : Nat

namespace Format

/-- The format of 32 bits. -/
def single : Format := ⟨24, 8⟩

/-- The format of 64 bits. -/
def double : Format := ⟨53, 11⟩

/-- The number of magnitudes in one binade, which is also the significand that has only its
leading bit. -/
def binade (format : Format) : Nat := 1 <<< (format.precision - 1)

/-- The code of infinity: every binade but the last one lies below it. -/
def infinityCode (format : Format) : Nat := ((1 <<< format.exponentBits) - 1) * format.binade

/-- The exponent of the smallest positive magnitude. -/
def leastExponent (format : Format) : Int :=
  3 - (1 <<< (format.exponentBits - 1) : Nat) - format.precision

/-- The number of bits of a magnitude, which is the position of the sign bit. -/
def magnitudeBits (format : Format) : Nat := format.precision - 1 + format.exponentBits

end Format

/-- A datum of a binary format. -/
inductive Binary (format : Format) where
  | nan
  | number (negative : Bool) (code : Nat) (bounded : code ≤ format.infinityCode)
  deriving DecidableEq

/-- Single precision. -/
abbrev Single := Binary Format.single

/-- Double precision. -/
abbrev Double := Binary Format.double

namespace Binary

variable {format : Format}

/-- The zero of either sign. -/
def signedZero (negative : Bool) : Binary format := number negative 0 (Nat.zero_le _)

/-- Positive zero. -/
def zero : Binary format := signedZero false

/-- The infinity of either sign. -/
def infinity (negative : Bool) : Binary format :=
  number negative format.infinityCode (Nat.le_refl _)

instance : Inhabited (Binary format) := ⟨zero⟩

/-- Whether a datum is no number. -/
def isNaN : Binary format → Bool
  | nan => true
  | number _ _ _ => false

/-- Whether a datum is a zero of either sign. -/
def isZero : Binary format → Bool
  | nan => false
  | number _ code _ => code == 0

/-- The place of a number in the order of the numbers, in which the two zeros share one place. -/
def place : Bool → Nat → Int
  | true, code => -(code : Int)
  | false, code => code

/-- Numeric equality: the zeros are equal, and a NaN equals nothing. -/
def equal : Binary format → Binary format → Bool
  | number s x _, number t y _ => place s x == place t y
  | _, _ => false

/-- The strict numeric order: a NaN is unordered. -/
def less : Binary format → Binary format → Bool
  | number s x _, number t y _ => decide (place s x < place t y)
  | _, _ => false

/-- The datum that a bit pattern stands for; every pattern above that of infinity is the NaN. -/
def ofBits (format : Format) (bits : Nat) : Binary format :=
  let code := bits % (1 <<< format.magnitudeBits)
  if bounded : code ≤ format.infinityCode then
    number ((bits >>> format.magnitudeBits) % 2 == 1) code bounded
  else
    nan

/-- The bit pattern of a number; a NaN has many and is given none. -/
def toBits? : Binary format → Option Nat
  | nan => none
  | number negative code _ => some (bif negative then (1 <<< format.magnitudeBits) + code else code)

end Binary

end PanelGemm
