import Mathlib.Order.Monotone.Basic
import PanelGemm.Proofs.Binary.Unit

/-!
# The order of data

Codes are compared in place of the numbers that they stand for. A code is a significand in a binade,
and the significand behind the last one of a binade is the first one of the next binade
(`Binary.magnitude_eq`), so magnitudes grow with their codes (`Binary.strictMono_magnitude`). The
order of finite data is therefore the order of their numbers (`Binary.less_iff`).
-/

set_option autoImplicit false
set_option relaxedAutoImplicit false

namespace PanelGemm

namespace Binary

variable {format : Format}

/-- The magnitude that a code stands for. -/
def magnitude (format : Format) (code : Nat) : ℚ :=
  significand format code * 2 ^ exponent format code

/-- The magnitude of a significand in a binade, which may have been carried out of the binade. -/
theorem magnitude_eq {t q : Nat} (hq : q ≤ 2 * format.binade) (ht : t = 0 ∨ format.binade ≤ q) :
    magnitude format (t * format.binade + q) = q * 2 ^ (format.leastExponent + t) := by
  have hpos := format.binade_pos
  rcases Nat.lt_or_eq_of_le hq with hlt | rfl
  · obtain ⟨hsignificand, hexponent⟩ := div_binade hlt ht
    rw [magnitude, hsignificand, hexponent]
  · have hcarried : t * format.binade + 2 * format.binade =
        (t + 1) * format.binade + format.binade := by ring
    obtain ⟨hsignificand, hexponent⟩ :=
      div_binade (t := t + 1) (q := format.binade) (by omega) (.inr (Nat.le_refl _))
    rw [magnitude, hcarried, hsignificand, hexponent, Nat.cast_add, ← add_assoc, Nat.cast_one,
      zpow_add_one₀ two_ne_zero]
    push_cast
    ring

/-- Magnitudes grow with their codes. -/
theorem strictMono_magnitude (format : Format) : StrictMono (magnitude format) := by
  refine strictMono_nat_of_lt_succ fun code ↦ ?_
  obtain ⟨t, hcode, hq, ht, -, -⟩ := exists_binade format code
  generalize significand format code = q at hcode hq ht
  subst hcode
  have hnext : t = 0 ∨ format.binade ≤ q + 1 := ht.imp_right Nat.le_succ_of_le
  rw [Nat.add_assoc, magnitude_eq hq.le ht, magnitude_eq hq hnext]
  exact mul_lt_mul_of_pos_right (by exact_mod_cast Nat.lt_succ_self q) (by positivity)

theorem magnitude_zero (format : Format) : magnitude format 0 = 0 := by
  have hzero := magnitude_eq (Nat.zero_le (2 * format.binade)) (.inl rfl)
  rwa [Nat.zero_mul, Nat.cast_zero, zero_mul] at hzero

theorem magnitude_nonneg (format : Format) (code : Nat) : 0 ≤ magnitude format code := by
  rw [← magnitude_zero format]
  exact (strictMono_magnitude format).monotone (Nat.zero_le code)

/-- The number at a place in the order of the numbers. -/
def numberAt (format : Format) (place : Int) : ℚ :=
  if place < 0 then -magnitude format place.natAbs else magnitude format place.natAbs

/-- A higher place has a greater number. -/
theorem numberAt_lt {place place' : Int} (h : place < place') :
    numberAt format place < numberAt format place' := by
  have hmono := strictMono_magnitude format
  unfold numberAt
  split_ifs with hnegative hnegative'
  · exact neg_lt_neg (hmono (by omega))
  · have hpos : magnitude format 0 < magnitude format place.natAbs := hmono (by omega)
    rw [magnitude_zero] at hpos
    exact lt_of_lt_of_le (neg_lt_zero.mpr hpos) (magnitude_nonneg format _)
  · omega
  · exact hmono (by omega)

theorem numberAt_place (negative : Bool) (code : Nat) : numberAt format (place negative code) =
    if negative = true then -magnitude format code else magnitude format code := by
  cases negative with
  | false => exact if_neg (Int.not_lt.mpr (Int.natCast_nonneg code))
  | true =>
    rcases Nat.eq_zero_or_pos code with rfl | hpos
    · -- the zeros have one place, and no sign is left there
      have hzero : -magnitude format 0 = magnitude format 0 := by rw [magnitude_zero, neg_zero]
      exact hzero.symm
    · have hnegative : place true code < 0 := by
        simp only [place]
        omega
      rw [numberAt, if_pos hnegative, if_pos rfl, place, Int.natAbs_neg, Int.natAbs_natCast]

/-- The number of a finite datum is the one at its place. -/
theorem value_eq {negative : Bool} {code : Nat} {bounded : code ≤ format.infinityCode} {a : ℚ}
    (h : (number negative code bounded : Binary format).exact.value? = some a) :
    a = numberAt format (place negative code) := by
  rw [numberAt_place]
  simp only [exact] at h
  split_ifs at h with hinfinite
  · cases h
  · cases h
    cases negative with
    | false => simp [Exact.signed, magnitude]
    | true => simp [Exact.signed, magnitude]

/-- Finite data are ordered as their numbers are. -/
theorem less_iff {x y : Binary format} {a b : ℚ} (hx : x.exact.value? = some a)
    (hy : y.exact.value? = some b) : x.less y = true ↔ a < b := by
  cases x with
  | nan => exact nomatch hx
  | number negative code bounded =>
    cases y with
    | nan => exact nomatch hy
    | number negative' code' bounded' =>
      have hmono : StrictMono (numberAt format) := fun _ _ ↦ numberAt_lt
      rw [value_eq hx, value_eq hy, hmono.lt_iff_lt, less, decide_eq_true_iff]

end Binary

end PanelGemm
