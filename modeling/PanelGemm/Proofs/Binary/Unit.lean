import PanelGemm.Proofs.Binary.Rounding

/-!
# The factor one

A finite magnitude has only one code (`code_injective`), so an exact value that is a datum is
rounded to that datum again (`Binary.roundFinite_eq`). One is therefore neutral for the rounded
product, whatever the other factor is: a number of any size and sign, a zero, an infinity or no
number at all (`Binary.unit_mul`).
-/

set_option autoImplicit false
set_option relaxedAutoImplicit false

namespace PanelGemm

section Codes

variable {format : Format}

/-- A code is a significand in a binade, with a leading one in every binade but the first. -/
theorem exists_binade (format : Format) (code : Nat) :
    ∃ t, code = t * format.binade + Binary.significand format code ∧
      Binary.significand format code < 2 * format.binade ∧
      (t = 0 ∨ format.binade ≤ Binary.significand format code) ∧
      Binary.exponent format code = format.leastExponent + t ∧ t = code / format.binade - 1 := by
  have hdiv := Nat.div_add_mod code format.binade
  have hmod := Nat.mod_lt code format.binade_pos
  refine ⟨code / format.binade - 1, ?_⟩
  unfold Binary.significand Binary.exponent
  by_cases hfirst : code / format.binade = 0
  · have hsmall : code < format.binade := by
      rw [hfirst, Nat.mul_zero, Nat.zero_add] at hdiv
      exact hdiv ▸ hmod
    simp only [hfirst, if_true, Nat.zero_sub, Nat.zero_mul, Nat.zero_add, true_or, true_and,
      and_true]
    omega
  · obtain ⟨t, ht⟩ := Nat.exists_eq_succ_of_ne_zero hfirst
    rw [ht, Nat.mul_succ, Nat.mul_comm] at hdiv
    rw [if_neg hfirst, ht, Nat.succ_eq_add_one, Nat.add_sub_cancel]
    omega

/-- A significand with a leading one is never the value of one in a lower binade. -/
theorem not_lt_of_value_eq {t u q r : Nat} (hq : q < 2 * format.binade)
    (hr : u = 0 ∨ format.binade ≤ r)
    (hvalue : (q : ℚ) * 2 ^ (format.leastExponent + t) = r * 2 ^ (format.leastExponent + u)) :
    ¬ t < u := by
  intro hlt
  have hbinade : format.binade ≤ r := by
    rcases hr with rfl | hr
    · exact absurd hlt (Nat.not_lt_zero t)
    · exact hr
  have hsame : q = r * 2 ^ (u - t) := by
    have hpower : (2 : ℚ) ^ (format.leastExponent + t) ≠ 0 := by positivity
    have hsplit := Exact.two_zpow_split (by omega :
      format.leastExponent + t ≤ format.leastExponent + u)
    rw [hsplit, ← mul_assoc] at hvalue
    have hcast := mul_right_cancel₀ hpower hvalue
    rw [show (format.leastExponent + u - (format.leastExponent + t)).toNat = u - t by omega]
      at hcast
    exact_mod_cast hcast
  have hdouble : r * 2 ≤ r * 2 ^ (u - t) := by
    apply Nat.mul_le_mul_left
    exact Nat.le_self_pow (by omega) 2
  omega

/-- Codes of the same value are the same. -/
theorem code_injective {a b : Nat}
    (hvalue : (Binary.significand format a : ℚ) * 2 ^ Binary.exponent format a =
      Binary.significand format b * 2 ^ Binary.exponent format b) : a = b := by
  obtain ⟨t, ha, hq, hleading, hexponent, -⟩ := exists_binade format a
  obtain ⟨u, hb, hr, hleading', hexponent', -⟩ := exists_binade format b
  rw [hexponent, hexponent'] at hvalue
  have htu : t = u := by
    apply Nat.le_antisymm
    · exact Nat.le_of_not_lt (not_lt_of_value_eq hr hleading hvalue.symm)
    · exact Nat.le_of_not_lt (not_lt_of_value_eq hq hleading' hvalue)
  subst htu
  have hpower : (2 : ℚ) ^ (format.leastExponent + t) ≠ 0 := by positivity
  have hsame : Binary.significand format a = Binary.significand format b := by
    exact_mod_cast mul_right_cancel₀ hpower hvalue
  rw [ha, hb, hsame]

/-- A finite magnitude is rounded to its code, however it is written before. -/
theorem roundCode_eq (hprecision : 0 < format.precision) (hexponents : 2 < 2 ^ format.exponentBits)
    {m code : Nat} {e : Int} (hcode : code < format.infinityCode)
    (hvalue : (m : ℚ) * 2 ^ e =
      Binary.significand format code * 2 ^ Binary.exponent format code) :
    format.roundCode m e = code := by
  obtain ⟨t, -, hw, -, hexponent, ht⟩ := exists_binade format code
  have hdouble : 2 * format.binade = 2 ^ format.precision := by
    rw [Format.binade_eq, ← pow_succ', Nat.sub_add_cancel hprecision]
  have hlast : code / format.binade < 2 ^ format.exponentBits - 1 := by
    rw [Nat.div_lt_iff_lt_mul format.binade_pos, ← Format.infinityCode_eq]
    exact hcode
  have hcast : ((2 ^ format.exponentBits : ℕ) : ℤ) = 2 ^ format.exponentBits := by push_cast; rfl
  obtain ⟨u, q, hround, hq, hleading, -, hrounded⟩ := exists_roundCode hprecision (hdouble ▸ hw)
    (by omega : format.leastExponent ≤ Binary.exponent format code) (by omega) hvalue
  obtain ⟨hsignificand, hexponent'⟩ := div_binade hq hleading
  apply code_injective
  rw [hround, hsignificand, hexponent', ← hrounded, hvalue]

end Codes

namespace Binary

variable {format : Format}

/-- A signed magnitude that is a datum is rounded to that datum. -/
theorem roundFinite_eq (hprecision : 0 < format.precision)
    (hexponents : 2 < 2 ^ format.exponentBits) (negative : Bool) {m code : Nat} {e : Int}
    (bounded : code ≤ format.infinityCode) (hfinite : code ≠ format.infinityCode)
    (hvalue : (m : ℚ) * 2 ^ e = significand format code * 2 ^ exponent format code) :
    roundFinite negative m e = number negative code bounded := by
  have hround := roundCode_eq hprecision hexponents (Nat.lt_of_le_of_ne bounded hfinite) hvalue
  simp only [roundFinite, hround, Nat.min_eq_left bounded]

/-- One times a datum is that datum. -/
theorem unit_mul (x : Single) : one.mul x = x := by
  have hone : (one : Single).exact = .finite false (2 ^ 23) (-23) := by decide
  cases x with
  | nan => rw [mul, hone]; rfl
  | number negative code bounded =>
    by_cases hinfinite : code = Format.single.infinityCode
    · subst hinfinite
      rw [mul, hone, exact, if_pos rfl]
      cases negative <;> rfl
    · rw [mul, hone, exact, if_neg hinfinite]
      change roundFinite (false ^^ negative) (2 ^ 23 * significand Format.single code)
        (-23 + exponent Format.single code) = _
      rw [Bool.false_xor]
      apply roundFinite_eq (by decide) (by decide) _ bounded hinfinite
      have hunit : ((2 ^ 23 : ℕ) : ℚ) * 2 ^ (-23 : ℤ) = 1 := by norm_num
      rw [zpow_add₀ two_ne_zero, Nat.cast_mul, mul_mul_mul_comm, hunit]
      exact one_mul _

end Binary

end PanelGemm
