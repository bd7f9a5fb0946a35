import Mathlib.Algebra.Order.Field.Power
import Mathlib.Data.Rat.Cast.Order
import Mathlib.Tactic.Linarith
import Mathlib.Tactic.Positivity
import Mathlib.Tactic.Ring
import PanelGemm.Binary.Arithmetic

/-!
# Rounding a value that needs no rounding

`Exact.value?` reads a finite exact value as a rational number, and exact products and sums are
those of the rationals. A format represents a number if a significand of its precision and an
exponent of its range have it as their magnitude (`Format.Represents`). Such a number is rounded to
itself (`Binary.value?_round`), however its magnitude is written before it is rounded.
-/

set_option autoImplicit false
set_option relaxedAutoImplicit false

namespace PanelGemm

namespace Exact

/-- The number that a finite value is. -/
def value? : Exact → Option ℚ
  | finite negative m e => some (signed negative m * 2 ^ e)
  | nan => none
  | infinite _ => none

/-! ### Exact arithmetic -/

theorem signed_xor (s t : Bool) (m n : Nat) :
    signed (s ^^ t) (m * n) = signed s m * signed t n := by
  cases s
  · cases t <;> simp [signed]
  · cases t <;> simp [signed]

theorem signed_mul (s : Bool) (m d : Nat) : signed s (m * d) = signed s m * d := by
  cases s <;> simp [signed]

theorem abs_signed (s : Bool) (m : Nat) : |signed s m| = m := by
  cases s <;> simp [signed]

/-- A sum gets its sign back, whatever sign a sum of zero is given. -/
theorem signed_natAbs (zero : Bool) (sum : Int) :
    signed (if sum = 0 then zero else decide (sum < 0)) sum.natAbs = sum := by
  by_cases hzero : sum = 0
  · rw [hzero]
    cases zero <;> rfl
  · rw [if_neg hzero]
    by_cases hsign : sum < 0
    · rw [decide_eq_true hsign]
      change -(sum.natAbs : Int) = sum
      omega
    · rw [decide_eq_false hsign]
      change (sum.natAbs : Int) = sum
      omega

/-- A power of two over a smaller exponent. -/
theorem two_zpow_split {least e : Int} (h : least ≤ e) :
    (2 : ℚ) ^ e = ((2 ^ (e - least).toNat : ℕ) : ℚ) * 2 ^ least := by
  rw [Nat.cast_pow, Nat.cast_ofNat, ← zpow_natCast, ← zpow_add₀ two_ne_zero]
  congr 1
  omega

variable {x y : Exact} {a b : ℚ}

theorem value?_mul (hx : x.value? = some a) (hy : y.value? = some b) :
    (x.mul y).value? = some (a * b) := by
  cases x with
  | nan => exact nomatch hx
  | infinite s => exact nomatch hx
  | finite s m e =>
    cases y with
    | nan => exact nomatch hy
    | infinite t => exact nomatch hy
    | finite t n g =>
      cases hx
      cases hy
      rw [mul, value?, signed_xor, zpow_add₀ two_ne_zero, Int.cast_mul]
      congr 1
      ring

theorem value?_add (hx : x.value? = some a) (hy : y.value? = some b) :
    (x.add y).value? = some (a + b) := by
  cases x with
  | nan => exact nomatch hx
  | infinite s => exact nomatch hx
  | finite s m e =>
    cases y with
    | nan => exact nomatch hy
    | infinite t => exact nomatch hy
    | finite t n g =>
      cases hx
      cases hy
      rw [add, addFinite, value?, signed_natAbs, Nat.shiftLeft_eq, Nat.shiftLeft_eq, signed_mul,
        signed_mul, two_zpow_split (min_le_left e g), two_zpow_split (min_le_right e g)]
      push_cast
      congr 1
      ring

end Exact

/-! ### Represented numbers -/

theorem Format.binade_eq (format : Format) : format.binade = 2 ^ (format.precision - 1) :=
  Nat.one_shiftLeft _

theorem Format.binade_pos (format : Format) : 0 < format.binade := by
  rw [binade_eq]
  exact Nat.two_pow_pos _

theorem Format.infinityCode_eq (format : Format) :
    format.infinityCode = (2 ^ format.exponentBits - 1) * format.binade := by
  rw [infinityCode, Nat.one_shiftLeft]

/-- Whether a significand of the precision and an exponent of the range have a number as their
magnitude. -/
def Format.Represents (format : Format) (value : ℚ) : Prop :=
  ∃ (w : ℕ) (g : ℤ), w < 2 ^ format.precision ∧ format.leastExponent ≤ g ∧
    g + 2 < format.leastExponent + 2 ^ format.exponentBits ∧ |value| = w * 2 ^ g

section Codes

variable {format : Format}

/-- The code of a significand in a binade: a significand without a leading one only stands in the
first one. -/
theorem div_binade {t q : Nat} (hq : q < 2 * format.binade) (ht : t = 0 ∨ format.binade ≤ q) :
    Binary.significand format (t * format.binade + q) = q ∧
      Binary.exponent format (t * format.binade + q) = format.leastExponent + t := by
  have hpos := format.binade_pos
  unfold Binary.significand Binary.exponent
  by_cases hsmall : q < format.binade
  · rcases ht with rfl | ht
    · rw [Nat.zero_mul, Nat.zero_add, Nat.div_eq_of_lt hsmall]
      exact ⟨if_pos rfl, rfl⟩
    · exact absurd hsmall (Nat.not_lt_of_le ht)
  · obtain ⟨r, rfl⟩ := Nat.exists_eq_add_of_le (Nat.le_of_not_lt hsmall)
    have hr : r < format.binade := by omega
    have hcode : t * format.binade + (format.binade + r) = r + format.binade * (t + 1) := by ring
    rw [hcode, Nat.add_mul_div_left _ _ hpos, Nat.add_mul_mod_self_left, Nat.div_eq_of_lt hr,
      Nat.mod_eq_of_lt hr, Nat.zero_add, if_neg (Nat.succ_ne_zero t)]
    exact ⟨rfl, rfl⟩

/-- A quotient without remainder is not rounded. -/
theorem roundQuotient_mul (q : Nat) {d : Nat} (hd : 0 < d) : roundQuotient (q * d) d = q := by
  rw [roundQuotient, Nat.mul_mod_left, Nat.mul_div_cancel _ hd]
  exact if_pos hd

/-- A represented magnitude is a multiple of the last place that it keeps. -/
theorem lastPlace_le {m w : Nat} {e g : Int} (hm : m ≠ 0) (hw : w < 2 ^ format.precision)
    (hg : format.leastExponent ≤ g) (hvalue : (m : ℚ) * 2 ^ e = w * 2 ^ g) :
    format.lastPlace m e ≤ g := by
  refine max_le ?_ hg
  have hlog : (2 : ℚ) ^ m.log2 ≤ m := by exact_mod_cast Nat.log2_self_le hm
  have hlt : (2 : ℚ) ^ ((m.log2 : ℤ) + e) < 2 ^ ((format.precision : ℤ) + g) := by
    calc (2 : ℚ) ^ ((m.log2 : ℤ) + e) = 2 ^ m.log2 * 2 ^ e := by
          rw [zpow_add₀ two_ne_zero, zpow_natCast]
      _ ≤ m * 2 ^ e := mul_le_mul_of_nonneg_right hlog (by positivity)
      _ = w * 2 ^ g := hvalue
      _ < 2 ^ format.precision * 2 ^ g :=
        mul_lt_mul_of_pos_right (by exact_mod_cast hw) (by positivity)
      _ = 2 ^ ((format.precision : ℤ) + g) := by rw [zpow_add₀ two_ne_zero, zpow_natCast]
  have hexponent := (zpow_lt_zpow_iff_right₀ one_lt_two).mp hlt
  push_cast
  omega

/-- The significand over the last place has the precision of the format, and it has a leading one
unless the last place is the least exponent. -/
theorem bounds_of_lastPlace (hprecision : 0 < format.precision) {m q : Nat} {e : Int} (hm : m ≠ 0)
    (hvalue : (m : ℚ) * 2 ^ e = q * 2 ^ format.lastPlace m e) :
    q < 2 * format.binade ∧
      (format.lastPlace m e = format.leastExponent ∨ format.binade ≤ q) := by
  have hplace : (0 : ℚ) < 2 ^ format.lastPlace m e := by positivity
  have hdouble : 2 * format.binade = 2 ^ format.precision := by
    rw [Format.binade_eq, ← pow_succ', Nat.sub_add_cancel hprecision]
  constructor
  · have hlog : (m : ℚ) < 2 ^ (m.log2 + 1) := by exact_mod_cast Nat.lt_log2_self
    have hle : ((m.log2 + 1 : ℕ) : ℤ) + e ≤ format.precision + format.lastPlace m e := by
      have hmax := le_max_left (e + (m.log2 + 1 : Nat) - format.precision) format.leastExponent
      unfold Format.lastPlace
      omega
    have hlt : (q : ℚ) * 2 ^ format.lastPlace m e <
        2 ^ format.precision * 2 ^ format.lastPlace m e := by
      calc (q : ℚ) * 2 ^ format.lastPlace m e = m * 2 ^ e := hvalue.symm
        _ < 2 ^ (m.log2 + 1) * 2 ^ e := mul_lt_mul_of_pos_right hlog (by positivity)
        _ = 2 ^ (((m.log2 + 1 : ℕ) : ℤ) + e) := by rw [zpow_add₀ two_ne_zero, zpow_natCast]
        _ ≤ 2 ^ ((format.precision : ℤ) + format.lastPlace m e) :=
          zpow_le_zpow_right₀ one_le_two hle
        _ = 2 ^ format.precision * 2 ^ format.lastPlace m e := by
          rw [zpow_add₀ two_ne_zero, zpow_natCast]
    rw [hdouble]
    exact_mod_cast lt_of_mul_lt_mul_right hlt hplace.le
  · by_cases hleast : format.lastPlace m e = format.leastExponent
    · exact .inl hleast
    · right
      have hlog : (2 : ℚ) ^ m.log2 ≤ m := by exact_mod_cast Nat.log2_self_le hm
      have heq : ((format.precision - 1 : ℕ) : ℤ) + format.lastPlace m e = m.log2 + e := by
        unfold Format.lastPlace at hleast ⊢
        omega
      have hle : ((2 ^ (format.precision - 1) : ℕ) : ℚ) * 2 ^ format.lastPlace m e ≤
          q * 2 ^ format.lastPlace m e := by
        calc ((2 ^ (format.precision - 1) : ℕ) : ℚ) * 2 ^ format.lastPlace m e
            = 2 ^ (((format.precision - 1 : ℕ) : ℤ) + format.lastPlace m e) := by
              rw [zpow_add₀ two_ne_zero, zpow_natCast, Nat.cast_pow, Nat.cast_ofNat]
          _ = 2 ^ m.log2 * 2 ^ e := by rw [heq, zpow_add₀ two_ne_zero, zpow_natCast]
          _ ≤ m * 2 ^ e := mul_le_mul_of_nonneg_right hlog (by positivity)
          _ = q * 2 ^ format.lastPlace m e := hvalue
      rw [Format.binade_eq]
      exact_mod_cast le_of_mul_le_mul_right hle hplace

/-- The quotient that a represented magnitude is rounded from has no remainder. -/
theorem roundQuotient_of_value {m q : Nat} {e place : Int}
    (hvalue : (m : ℚ) * 2 ^ e = q * 2 ^ place) :
    roundQuotient (m * 2 ^ (e - place).toNat) (2 ^ (place - e).toNat) = q := by
  -- both sides are the value over the larger of the two exponents
  have hmax : ((2 ^ (e - place).toNat : ℕ) : ℚ) * 2 ^ place =
      ((2 ^ (place - e).toNat : ℕ) : ℚ) * 2 ^ e := by
    push_cast
    rw [← zpow_natCast, ← zpow_natCast, ← zpow_add₀ two_ne_zero, ← zpow_add₀ two_ne_zero]
    congr 1
    omega
  have hcancel : (2 : ℚ) ^ place * 2 ^ e ≠ 0 := by positivity
  have hquotient : m * 2 ^ (e - place).toNat = q * 2 ^ (place - e).toNat := by
    have hcast : (m : ℚ) * (2 ^ (e - place).toNat : ℕ) = q * (2 ^ (place - e).toNat : ℕ) := by
      refine mul_right_cancel₀ hcancel ?_
      calc (m : ℚ) * (2 ^ (e - place).toNat : ℕ) * (2 ^ place * 2 ^ e)
          = m * 2 ^ e * ((2 ^ (e - place).toNat : ℕ) * 2 ^ place) := by ring
        _ = q * 2 ^ place * ((2 ^ (place - e).toNat : ℕ) * 2 ^ e) := by rw [hvalue, hmax]
        _ = q * (2 ^ (place - e).toNat : ℕ) * (2 ^ place * 2 ^ e) := by ring
    exact_mod_cast hcast
  rw [hquotient, roundQuotient_mul q (Nat.two_pow_pos _)]

/-- The code of a represented magnitude is that of a significand in a binade, which have the same
value. -/
theorem exists_roundCode (hprecision : 0 < format.precision) {m w : Nat} {e g : Int}
    (hw : w < 2 ^ format.precision) (hg : format.leastExponent ≤ g)
    (hrange : g + 2 < format.leastExponent + 2 ^ format.exponentBits)
    (hvalue : (m : ℚ) * 2 ^ e = w * 2 ^ g) :
    ∃ t q : Nat, format.roundCode m e = t * format.binade + q ∧ q < 2 * format.binade ∧
      (t = 0 ∨ format.binade ≤ q) ∧ t + 2 < 2 ^ format.exponentBits ∧
      (m : ℚ) * 2 ^ e = q * 2 ^ (format.leastExponent + t) := by
  have hleast : format.leastExponent ≤ format.lastPlace m e := le_max_right _ _
  have hcast : ((2 ^ format.exponentBits : ℕ) : ℤ) = 2 ^ format.exponentBits := by push_cast; rfl
  by_cases hm : m = 0
  · refine ⟨0, 0, ?_, ?_, .inl rfl, by omega, ?_⟩
    · rw [hm, Format.roundCode, if_pos rfl, Nat.zero_mul]
    · exact Nat.mul_pos Nat.two_pos format.binade_pos
    · rw [hm, Nat.cast_zero, zero_mul, zero_mul]
  · have hplace := lastPlace_le hm hw hg hvalue
    have hquotient : (m : ℚ) * 2 ^ e =
        (w * 2 ^ (g - format.lastPlace m e).toNat : ℕ) * 2 ^ format.lastPlace m e := by
      rw [hvalue, Exact.two_zpow_split hplace, Nat.cast_mul, mul_assoc]
    obtain ⟨hlt, hleading⟩ := bounds_of_lastPlace hprecision hm hquotient
    refine ⟨(format.lastPlace m e - format.leastExponent).toNat, _, ?_, hlt, ?_, by omega, ?_⟩
    · rw [Format.roundCode, if_neg hm]
      dsimp only
      rw [Nat.shiftLeft_eq, Nat.one_shiftLeft, roundQuotient_of_value hquotient]
    · rcases hleading with hleading | hleading
      · left
        omega
      · exact .inr hleading
    · rw [hquotient]
      congr 2
      omega

end Codes

namespace Binary

variable {format : Format}

/-- A represented magnitude is rounded to itself. -/
theorem value?_roundFinite (hprecision : 0 < format.precision) (negative : Bool) {m : Nat} {e : Int}
    (h : format.Represents (Exact.signed negative m * 2 ^ e)) :
    (roundFinite negative m e : Binary format).exact.value? =
      some ((Exact.signed negative m : ℚ) * 2 ^ e) := by
  obtain ⟨w, g, hw, hg, hrange, hmagnitude⟩ := h
  have hvalue : (m : ℚ) * 2 ^ e = w * 2 ^ g := by
    rw [← hmagnitude, abs_mul, ← Int.cast_abs, Exact.abs_signed, Int.cast_natCast,
      abs_of_pos (by positivity : (0 : ℚ) < 2 ^ e)]
  obtain ⟨t, q, hcode, hq, ht, hbinades, hsame⟩ :=
    exists_roundCode hprecision hw hg hrange hvalue
  obtain ⟨hsignificand, hexponent⟩ := div_binade hq ht
  have hfinite : format.roundCode m e < format.infinityCode := by
    calc format.roundCode m e < (t + 2) * format.binade := by
          rw [hcode, Nat.add_mul]
          exact Nat.add_lt_add_left hq _
      _ ≤ format.infinityCode := by
          rw [Format.infinityCode_eq]
          exact Nat.mul_le_mul_right _ (by omega)
  have hexact : (roundFinite negative m e : Binary format).exact =
      .finite negative q (format.leastExponent + t) := by
    simp only [roundFinite, exact, Nat.min_eq_left hfinite.le, if_neg hfinite.ne]
    rw [hcode, hsignificand, hexponent]
  have hsign : ∀ n : ℕ, (Exact.signed negative n : ℚ) = Exact.signed negative 1 * n := by
    intro n
    rw [← Int.cast_natCast n, ← Int.cast_mul, ← Exact.signed_mul, Nat.one_mul]
  rw [hexact, Exact.value?, hsign q, hsign m, mul_assoc, mul_assoc, hsame]

/-- A represented number is rounded to itself. -/
theorem value?_round (hprecision : 0 < format.precision) {x : Exact} {a : ℚ}
    (hx : x.value? = some a) (ha : format.Represents a) :
    (round x : Binary format).exact.value? = some a := by
  cases x with
  | nan => exact nomatch hx
  | infinite negative => exact nomatch hx
  | finite negative m e =>
    cases hx
    exact value?_roundFinite hprecision negative ha

end Binary

end PanelGemm
