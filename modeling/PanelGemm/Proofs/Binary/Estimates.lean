import PanelGemm.Proofs.Binary.Order

/-!
# Counts in double precision

A count in double precision is exact for as long as it fits the significand. Above that each
rounding may change it, but at most halves or doubles it (`Binary.exists_value?_round`). What is
computed from natural numbers by conversions and products therefore estimates the product of these
numbers (`Binary.Estimates`), and it is on the same side of every limit that lies as many binades
below the last exact count as there were roundings (`Binary.Estimates.less_iff`).
-/

set_option autoImplicit false
set_option relaxedAutoImplicit false

namespace PanelGemm

/-! ### One rounding -/

theorem le_roundQuotient {n d c : Nat} (hd : 0 < d) (h : c * d ≤ n) : c ≤ roundQuotient n d := by
  have hquotient : c ≤ n / d := (Nat.le_div_iff_mul_le hd).mpr h
  unfold roundQuotient
  dsimp only
  split_ifs
  · exact hquotient
  · omega
  · omega

theorem roundQuotient_le {n d c : Nat} (h : n < c * d) : roundQuotient n d ≤ c := by
  have hquotient : n / d < c := Nat.div_lt_of_lt_mul (by rwa [Nat.mul_comm])
  unfold roundQuotient
  dsimp only
  split_ifs
  · omega
  · omega
  · omega

section Significand

variable {format : Format} {m up down : Nat}

/-- A number that is shifted to the length of a significand is rounded to a significand with a
leading one, or to the first number that is too long for one. -/
theorem roundQuotient_significand (hm : m ≠ 0)
    (hshift : format.precision - 1 + down = m.log2 + up) :
    format.binade ≤ roundQuotient (m <<< up) (1 <<< down) ∧
      roundQuotient (m <<< up) (1 <<< down) ≤ 2 * format.binade := by
  rw [Nat.one_shiftLeft, Nat.shiftLeft_eq, Format.binade_eq]
  constructor
  · refine le_roundQuotient (Nat.two_pow_pos down) ?_
    rw [← pow_add, hshift, pow_add]
    exact Nat.mul_le_mul_right _ (Nat.log2_self_le hm)
  · refine roundQuotient_le ?_
    rw [mul_assoc, ← pow_add, hshift, ← pow_succ', Nat.add_right_comm, pow_add]
    exact Nat.mul_lt_mul_of_pos_right Nat.lt_log2_self (Nat.two_pow_pos up)

/-- A magnitude lies between the powers of two around it. -/
theorem zpow_log2_bounds (hm : m ≠ 0) (e : Int) :
    (2 : ℚ) ^ (e + m.log2) ≤ m * 2 ^ e ∧ (m : ℚ) * 2 ^ e < 2 * 2 ^ (e + m.log2) := by
  have hpower : (0 : ℚ) < 2 ^ e := by positivity
  rw [add_comm, zpow_add₀ two_ne_zero, zpow_natCast, ← mul_assoc, ← pow_succ']
  constructor
  · exact mul_le_mul_of_nonneg_right (by exact_mod_cast Nat.log2_self_le hm) hpower.le
  · exact mul_lt_mul_of_pos_right (by exact_mod_cast Nat.lt_log2_self) hpower

end Significand

namespace Binary

variable {format : Format}

theorem value?_number {code : Nat} (h : code < format.infinityCode) :
    (number false code h.le : Binary format).exact.value? = some (magnitude format code) := by
  rw [exact, if_neg h.ne, Exact.value?]
  rfl

/-- A magnitude with a full significand is rounded to one between the powers of two around it. -/
theorem exists_value?_roundFinite (hprecision : 0 < format.precision) {m : Nat} {e : Int}
    (hm : m ≠ 0) (hnormal : format.leastExponent + format.precision ≤ e + m.log2 + 1)
    (hrange : e + m.log2 + 4 < format.leastExponent + format.precision + 2 ^ format.exponentBits) :
    ∃ v : ℚ, (roundFinite false m e : Binary format).exact.value? = some v ∧
      2 ^ (e + m.log2) ≤ v ∧ v ≤ 2 * 2 ^ (e + m.log2) := by
  have hplace : format.lastPlace m e = e + m.log2 + 1 - format.precision := by
    unfold Format.lastPlace
    push_cast
    omega
  obtain ⟨t, ht⟩ : ∃ t : Nat, format.lastPlace m e = format.leastExponent + t :=
    Int.le.dest (by omega) |>.imp fun t ht ↦ ht.symm
  let q := roundQuotient (m <<< (e - format.lastPlace m e).toNat)
    (1 <<< (format.lastPlace m e - e).toNat)
  obtain ⟨hlower, hupper⟩ : format.binade ≤ q ∧ q ≤ 2 * format.binade :=
    roundQuotient_significand hm (by omega)
  have hcode : format.roundCode m e = t * format.binade + q := by
    rw [Format.roundCode, if_neg hm]
    dsimp only
    rw [ht, add_sub_cancel_left, Int.toNat_natCast, ← ht]
  have hfinite : format.roundCode m e < format.infinityCode := by
    have hcast : ((2 ^ format.exponentBits : ℕ) : ℤ) = 2 ^ format.exponentBits := by push_cast; rfl
    calc format.roundCode m e ≤ (t + 2) * format.binade := by
          rw [hcode, Nat.add_mul]
          exact Nat.add_le_add_left hupper _
      _ < format.infinityCode := by
          rw [Format.infinityCode_eq]
          exact Nat.mul_lt_mul_of_pos_right (by omega) format.binade_pos
  have hpower : (2 : ℚ) ^ (e + m.log2) = format.binade * 2 ^ (format.leastExponent + t) := by
    rw [Format.binade_eq, Nat.cast_pow, Nat.cast_ofNat, ← zpow_natCast, ← zpow_add₀ two_ne_zero]
    congr 1
    omega
  refine ⟨q * 2 ^ (format.leastExponent + t), ?_, ?_, ?_⟩
  · simp only [roundFinite, Nat.min_eq_left hfinite.le]
    rw [value?_number hfinite, hcode, magnitude_eq hupper (.inr hlower)]
  · rw [hpower]
    exact mul_le_mul_of_nonneg_right (by exact_mod_cast hlower) (by positivity)
  · rw [hpower, ← mul_assoc]
    exact mul_le_mul_of_nonneg_right (by exact_mod_cast hupper) (by positivity)

/-- Rounding to double precision at most halves or doubles a number from one up to a limit far
above all counts. -/
theorem exists_value?_round {x : Exact} {a : ℚ} (hx : x.value? = some a) (hone : 1 ≤ a)
    (hlimit : a < 2 ^ 1000) :
    ∃ v, (round x : Double).exact.value? = some v ∧ a ≤ 2 * v ∧ v ≤ 2 * a := by
  cases x with
  | nan => exact nomatch hx
  | infinite negative => exact nomatch hx
  | finite negative m e =>
    cases hx
    have hpower : (0 : ℚ) < 2 ^ e := by positivity
    cases negative with
    | true =>
      -- a negative number is not one or more
      have hsign : (Exact.signed true m : ℚ) ≤ 0 := by simp [Exact.signed]
      linarith [mul_nonpos_of_nonpos_of_nonneg hsign hpower.le]
    | false =>
      rw [show (Exact.signed false m : ℚ) = m by simp [Exact.signed]] at hone hlimit ⊢
      have hm : m ≠ 0 := by
        rintro rfl
        rw [Nat.cast_zero, zero_mul] at hone
        linarith
      obtain ⟨hlower, hupper⟩ := zpow_log2_bounds hm e
      have hbase : (1 : ℚ) < 2 := one_lt_two
      have hfirst : 0 < e + m.log2 + 1 := by
        refine (zpow_lt_zpow_iff_right₀ hbase).mp ?_
        rw [zpow_zero, zpow_add_one₀ two_ne_zero, mul_comm]
        exact lt_of_le_of_lt hone hupper
      have hlast : e + m.log2 < 1000 :=
        (zpow_lt_zpow_iff_right₀ hbase).mp (lt_of_le_of_lt hlower hlimit)
      have hleast : Format.double.leastExponent = -1074 := by decide
      have hprecision : Format.double.precision = 53 := rfl
      have hbits : Format.double.exponentBits = 11 := rfl
      obtain ⟨v, hv, hle, hge⟩ : ∃ v : ℚ, (roundFinite false m e : Double).exact.value? = some v ∧
          2 ^ (e + m.log2) ≤ v ∧ v ≤ 2 * 2 ^ (e + m.log2) := by
        refine exists_value?_roundFinite (by decide) hm ?_ ?_
        · rw [hleast, hprecision]
          omega
        · rw [hleast, hprecision, hbits]
          omega
      exact ⟨v, hv, by linarith, by linarith⟩

/-! ### Several roundings -/

/-- A datum that was computed for a natural number with a number of roundings. It is exact if the
number fits the significand, and each of the roundings has at most halved or doubled it. -/
def Estimates (x : Double) (n roundings : Nat) : Prop :=
  ∃ v : ℚ, x.exact.value? = some v ∧ (n < 2 ^ 53 → v = n) ∧ n ≤ 2 ^ roundings * v ∧
    v ≤ 2 ^ roundings * n

theorem value?_natCast (n : Nat) : (Exact.finite false n 0).value? = some (n : ℚ) := by
  simp [Exact.value?, Exact.signed]

/-- A number that fits the significand is not rounded. -/
theorem value?_round_natCast {x : Exact} {n : Nat} (hx : x.value? = some (n : ℚ))
    (hn : n < 2 ^ 53) : (round x : Double).exact.value? = some (n : ℚ) := by
  refine value?_round (by decide) hx ⟨n, 0, hn, by decide, by decide, ?_⟩
  rw [zpow_zero, mul_one, Nat.abs_cast]

/-- One more rounding of an exact product of estimates, or of a number itself. -/
theorem estimates_round {x : Exact} {a : ℚ} {n roundings : Nat} (hx : x.value? = some a)
    (hexact : n < 2 ^ 53 → a = n) (hlower : n ≤ 2 ^ roundings * a)
    (hupper : a ≤ 2 ^ roundings * n) (hroundings : roundings ≤ 53) (hlimit : n < 2 ^ 200) :
    Estimates (round x) n (roundings + 1) := by
  have hscale : (0 : ℚ) < 2 ^ roundings := by positivity
  by_cases hsmall : n < 2 ^ 53
  · rw [hexact hsmall] at hx
    have hone : (1 : ℚ) ≤ 2 ^ (roundings + 1) := one_le_pow₀ one_le_two
    have hle : (n : ℚ) ≤ 2 ^ (roundings + 1) * n := le_mul_of_one_le_left n.cast_nonneg hone
    exact ⟨n, value?_round_natCast hx hsmall, fun _ ↦ rfl, hle, hle⟩
  · have hpow : (2 : ℚ) ^ roundings ≤ 2 ^ 53 := pow_le_pow_right₀ one_le_two hroundings
    have hlarge : (2 : ℚ) ^ 53 ≤ n := by exact_mod_cast Nat.le_of_not_lt hsmall
    have hone : 1 ≤ a := by
      refine le_of_mul_le_mul_left ?_ hscale
      linarith
    have hbelow : a < 2 ^ 1000 := by
      have hn : (n : ℚ) < 2 ^ 200 := by exact_mod_cast hlimit
      calc a ≤ 2 ^ roundings * n := hupper
        _ ≤ 2 ^ 53 * n := mul_le_mul_of_nonneg_right hpow n.cast_nonneg
        _ ≤ 2 ^ 53 * 2 ^ 200 := mul_le_mul_of_nonneg_left hn.le (by positivity)
        _ = 2 ^ 253 := (pow_add 2 53 200).symm
        _ < 2 ^ 1000 := pow_lt_pow_right₀ one_lt_two (by decide)
    obtain ⟨v, hv, hle, hge⟩ := exists_value?_round hx hone hbelow
    refine ⟨v, hv, fun h ↦ absurd h hsmall, ?_, ?_⟩
    · calc (n : ℚ) ≤ 2 ^ roundings * a := hlower
        _ ≤ 2 ^ roundings * (2 * v) := mul_le_mul_of_nonneg_left hle hscale.le
        _ = 2 ^ (roundings + 1) * v := by ring
    · calc v ≤ 2 * a := hge
        _ ≤ 2 * (2 ^ roundings * n) := mul_le_mul_of_nonneg_left hupper zero_le_two
        _ = 2 ^ (roundings + 1) * n := by ring

/-- A natural number is converted with one rounding. -/
theorem estimates_ofNat {n : Nat} (hn : n < 2 ^ 200) : Estimates (ofNat n) n 1 := by
  have hsame : (n : ℚ) ≤ 2 ^ 0 * n := by rw [pow_zero, one_mul]
  exact estimates_round (value?_natCast n) (fun _ ↦ rfl) hsame hsame (Nat.zero_le _) hn

namespace Estimates

variable {x y : Double} {n k r s : Nat}

/-- A product takes one rounding more than its factors together. Where it is zero, one of the
factors is exact and has made it so. -/
theorem mul (hx : Estimates x n r) (hy : Estimates y k s) (hroundings : r + s ≤ 53)
    (hlimit : n * k < 2 ^ 200) : Estimates (x.mul y) (n * k) (r + s + 1) := by
  obtain ⟨v, hv, hexact, hlower, hupper⟩ := hx
  obtain ⟨w, hw, hexact', hlower', hupper'⟩ := hy
  have hr : (0 : ℚ) < 2 ^ r := by positivity
  have hs : (0 : ℚ) < 2 ^ s := by positivity
  have hvnonneg : 0 ≤ v := nonneg_of_mul_nonneg_right (le_trans n.cast_nonneg hlower) hr
  have hwnonneg : 0 ≤ w := nonneg_of_mul_nonneg_right (le_trans k.cast_nonneg hlower') hs
  refine estimates_round (Exact.value?_mul hv hw) (fun hsmall ↦ ?_) ?_ ?_ hroundings hlimit
  · rw [Nat.cast_mul]
    rcases Nat.eq_zero_or_pos n with rfl | hn
    · rw [hexact (by decide), Nat.cast_zero, zero_mul, zero_mul]
    · rcases Nat.eq_zero_or_pos k with rfl | hk
      · rw [hexact' (by decide), Nat.cast_zero, mul_zero, mul_zero]
      · rw [hexact (Nat.lt_of_le_of_lt (Nat.le_mul_of_pos_right n hk) hsmall),
          hexact' (Nat.lt_of_le_of_lt (Nat.le_mul_of_pos_left k hn) hsmall)]
  · calc ((n * k : ℕ) : ℚ) = n * k := Nat.cast_mul n k
      _ ≤ 2 ^ r * v * (2 ^ s * w) :=
        mul_le_mul hlower hlower' k.cast_nonneg (mul_nonneg hr.le hvnonneg)
      _ = 2 ^ (r + s) * (v * w) := by ring
  · calc v * w ≤ 2 ^ r * n * (2 ^ s * k) :=
        mul_le_mul hupper hupper' hwnonneg (mul_nonneg hr.le n.cast_nonneg)
      _ = 2 ^ (r + s) * (n * k : ℕ) := by
        rw [Nat.cast_mul]
        ring

/-- An estimate is below a limit exactly if the number is, provided that the roundings cannot bring
a number that does not fit the significand down to the limit. -/
theorem less_iff (hx : Estimates x n r) {limit : Nat} (hlimit : 2 ^ r * limit < 2 ^ 53) :
    x.less (ofNat limit) = true ↔ n < limit := by
  obtain ⟨v, hv, hexact, hlower, -⟩ := hx
  have hscale : (0 : ℚ) < 2 ^ r := by positivity
  have hsmaller : limit < 2 ^ 53 :=
    Nat.lt_of_le_of_lt (Nat.le_mul_of_pos_left limit (Nat.two_pow_pos r)) hlimit
  have hofNat : (ofNat limit : Double).exact.value? = some (limit : ℚ) :=
    value?_round_natCast (value?_natCast limit) hsmaller
  rw [Binary.less_iff hv hofNat]
  by_cases hsmall : n < 2 ^ 53
  · rw [hexact hsmall, Nat.cast_lt]
  · have hlarge : (2 : ℚ) ^ 53 ≤ n := by exact_mod_cast Nat.le_of_not_lt hsmall
    have hcast : (2 : ℚ) ^ r * limit < 2 ^ 53 := by exact_mod_cast hlimit
    refine iff_of_false (not_lt.mpr ?_) (by omega)
    refine le_of_mul_le_mul_left ?_ hscale
    linarith

end Estimates

end Binary

end PanelGemm
