import PanelGemm.Proofs.Binary.Rounding

/-!
# Integers in single precision

Single precision represents every integer up to `2 ^ 24` in magnitude, so an operation on integers
whose result is that small is exact. The operands may be larger: a product with zero is zero
whatever the other factor is.
-/

set_option autoImplicit false
set_option relaxedAutoImplicit false

namespace PanelGemm

theorem Format.represents_single {z : Int} (hz : |z| ≤ 2 ^ 24) :
    Format.single.Represents z := by
  have hcast : |(z : ℚ)| = (z.natAbs : ℚ) := by rw [← Int.cast_abs, ← Int.natCast_natAbs]; rfl
  have hle : z.natAbs ≤ 2 ^ 24 := by
    rw [← Int.natCast_natAbs] at hz
    exact_mod_cast hz
  by_cases hlt : z.natAbs < 2 ^ 24
  · exact ⟨z.natAbs, 0, hlt, by decide, by decide, by rw [hcast, zpow_zero, mul_one]⟩
  · -- the limit itself does not fit the significand, but half of it does
    refine ⟨2 ^ 23, 1, by decide, by decide, by decide, ?_⟩
    rw [hcast, show z.natAbs = 2 ^ 23 * 2 by omega, Nat.cast_mul, zpow_one]
    norm_cast

namespace Binary

variable {x y w : Single} {a b c : Int}

/-- Whether a datum is an integer, and which one. The two zeros are the same integer. -/
def IsInteger (x : Single) (z : Int) : Prop := x.exact.value? = some (z : ℚ)

instance (x : Single) (z : Int) : Decidable (x.IsInteger z) :=
  inferInstanceAs (Decidable (_ = _))

theorem isInteger_round {x : Exact} (hx : x.value? = some (a : ℚ)) (ha : |a| ≤ 2 ^ 24) :
    (round x : Single).IsInteger a :=
  value?_round (by decide) hx (Format.represents_single ha)

theorem IsInteger.mul (hx : x.IsInteger a) (hy : y.IsInteger b) (h : |a * b| ≤ 2 ^ 24) :
    (x.mul y).IsInteger (a * b) := by
  refine isInteger_round ?_ h
  rw [Exact.value?_mul hx hy, Int.cast_mul]

theorem IsInteger.add (hx : x.IsInteger a) (hy : y.IsInteger b) (h : |a + b| ≤ 2 ^ 24) :
    (x.add y).IsInteger (a + b) := by
  refine isInteger_round ?_ h
  rw [Exact.value?_add hx hy, Int.cast_add]

theorem IsInteger.fma (hx : x.IsInteger a) (hy : y.IsInteger b) (hw : w.IsInteger c)
    (h : |a * b + c| ≤ 2 ^ 24) : (x.fma y w).IsInteger (a * b + c) := by
  refine isInteger_round ?_ h
  rw [Exact.value?_add (Exact.value?_mul hx hy) hw, Int.cast_add, Int.cast_mul]

theorem isInteger_zero : (zero : Single).IsInteger 0 := by
  change some (((0 : Int) : ℚ) * 2 ^ exponent Format.single 0) = some ((0 : Int) : ℚ)
  rw [Int.cast_zero, zero_mul]

theorem isInteger_one : (one : Single).IsInteger 1 := by
  refine isInteger_round (x := .finite false 1 0) ?_ (by decide)
  rw [Exact.value?, zpow_zero, mul_one]
  rfl

/-- An integer is zero exactly if it is one of the zeros. -/
theorem IsInteger.isZero_iff (hx : x.IsInteger a) : x.isZero = true ↔ a = 0 := by
  cases x with
  | nan => exact nomatch hx
  | number negative code bounded =>
    have hsignificand : significand Format.single code = 0 ↔ code = 0 := by
      unfold significand
      by_cases hfirst : code / Format.single.binade = 0
      · rw [if_pos hfirst]
      · rw [if_neg hfirst]
        constructor
        · intro hnone
          exact absurd (Nat.eq_zero_of_add_eq_zero_right hnone) (by decide)
        · rintro rfl
          exact absurd (Nat.zero_div _) hfirst
    have hfinite : code ≠ Format.single.infinityCode := by
      rintro rfl
      simp [IsInteger, exact, Exact.value?] at hx
    simp only [IsInteger, exact, if_neg hfinite, Exact.value?, Option.some.injEq] at hx
    have hmagnitude : a = 0 ↔ significand Format.single code = 0 := by
      rw [← Int.cast_eq_zero (α := ℚ), ← hx, mul_eq_zero, or_iff_left (by positivity),
        Int.cast_eq_zero, ← abs_eq_zero, Exact.abs_signed, Int.natCast_eq_zero]
    rw [hmagnitude, hsignificand]
    exact beq_iff_eq

end Binary

end PanelGemm
