import PanelGemm.Proofs.Binary.Rounding

/-!
# Numbers up to the sign of zero

Two data agree up to the sign of zero (`Binary.AgreeUpToZero`) if they are the same or both of them
are zeros. Adding a zero of either sign before rounding changes no more than that
(`Binary.fma_of_isZero`): a product that is not zero is written over a smaller exponent then, and
its code does not depend on how it is written (`Format.roundCode_shift`). A fused multiply-add
therefore takes sums that agree to sums that agree, whatever its factors are.
-/

set_option autoImplicit false
set_option relaxedAutoImplicit false

namespace PanelGemm

/-! ### Magnitudes over a smaller exponent -/

theorem roundQuotient_scale (numerator denominator : Nat) {scale : Nat} (hscale : 0 < scale) :
    roundQuotient (numerator * scale) (denominator * scale) =
      roundQuotient numerator denominator := by
  have hrest : 2 * (numerator % denominator * scale) = 2 * (numerator % denominator) * scale :=
    (Nat.mul_assoc _ _ _).symm
  simp only [roundQuotient, Nat.mul_div_mul_right _ _ hscale, Nat.mul_mod_mul_right, hrest,
    Nat.mul_lt_mul_right hscale]

/-- Quotients of the same value are rounded alike. -/
theorem roundQuotient_congr {n d n' d' : Nat} (hd : 0 < d) (hd' : 0 < d')
    (hvalue : n * d' = n' * d) : roundQuotient n d = roundQuotient n' d' := by
  rw [← roundQuotient_scale n d hd', ← roundQuotient_scale n' d' hd, hvalue, Nat.mul_comm d d']

theorem log2_mul_two_pow {m : Nat} (hm : m ≠ 0) (k : Nat) :
    (m * 2 ^ k).log2 = m.log2 + k := by
  have hpos : 0 < 2 ^ k := Nat.two_pow_pos k
  rw [Nat.log2_eq_iff (Nat.mul_ne_zero hm (Nat.ne_of_gt hpos))]
  constructor
  · rw [pow_add]
    exact Nat.mul_le_mul_right _ (Nat.log2_self_le hm)
  · rw [Nat.add_right_comm, pow_add]
    exact Nat.mul_lt_mul_of_pos_right Nat.lt_log2_self hpos

/-- A magnitude that is written over a smaller exponent has the same code. -/
theorem Format.roundCode_shift (format : Format) (m k : Nat) (e : Int) :
    format.roundCode (m * 2 ^ k) (e - k) = format.roundCode m e := by
  by_cases hm : m = 0
  · rw [hm, Nat.zero_mul, roundCode, roundCode, if_pos rfl, if_pos rfl]
  · have hshifted : m * 2 ^ k ≠ 0 := Nat.mul_ne_zero hm (Nat.ne_of_gt (Nat.two_pow_pos k))
    have hplace : format.lastPlace (m * 2 ^ k) (e - k) = format.lastPlace m e := by
      unfold lastPlace
      rw [log2_mul_two_pow hm]
      congr 2
      push_cast
      ring
    rw [roundCode, roundCode, if_neg hshifted, if_neg hm, hplace]
    dsimp only
    congr 1
    simp only [Nat.shiftLeft_eq, Nat.one_mul]
    refine roundQuotient_congr (Nat.two_pow_pos _) (Nat.two_pow_pos _) ?_
    rw [Nat.mul_assoc, Nat.mul_assoc, Nat.mul_assoc, ← pow_add, ← pow_add, ← pow_add]
    congr 2
    omega

namespace Binary

variable {format : Format} {x y z w : Single}

/-! ### Agreement -/

/-- Whether two data are the same or both of them are zeros. -/
def AgreeUpToZero (x y : Binary format) : Prop := x = y ∨ x.isZero = true ∧ y.isZero = true

instance (x y : Binary format) : Decidable (x.AgreeUpToZero y) :=
  inferInstanceAs (Decidable (_ ∨ _))

namespace AgreeUpToZero

theorem refl (x : Single) : x.AgreeUpToZero x := .inl rfl

theorem symm (h : x.AgreeUpToZero y) : y.AgreeUpToZero x := by
  rcases h with rfl | ⟨hx, hy⟩
  · exact refl x
  · exact .inr ⟨hy, hx⟩

theorem trans (hxy : x.AgreeUpToZero y) (hyz : y.AgreeUpToZero z) : x.AgreeUpToZero z := by
  rcases hxy with rfl | ⟨hx, hy⟩
  · exact hyz
  · rcases hyz with rfl | ⟨-, hz⟩
    · exact .inr ⟨hx, hy⟩
    · exact .inr ⟨hx, hz⟩

end AgreeUpToZero

/-! ### Adding a zero -/

/-- A zero means no magnitude, over the least exponent. -/
theorem exact_of_isZero (hz : z.isZero = true) :
    ∃ negative, z.exact = .finite negative 0 (exponent Format.single 0) := by
  cases z with
  | nan => exact nomatch hz
  | number negative code bounded =>
    obtain rfl : code = 0 := beq_iff_eq.mp hz
    exact ⟨negative, by rfl⟩

theorem isZero_roundFinite_zero (negative : Bool) (e : Int) :
    (roundFinite negative 0 e : Single).isZero = true := by
  rw [roundFinite, isZero]
  simp [Format.roundCode]

/-- A sum that is not zero has the sign of its value. -/
theorem sign_signed {magnitude : Nat} (hpos : 0 < magnitude) (s zero : Bool) :
    (if Exact.signed s magnitude = 0 then zero else decide (Exact.signed s magnitude < 0)) = s := by
  cases s with
  | false =>
    have hsum : ¬ Exact.signed false magnitude = 0 := by
      change ¬ (magnitude : Int) = 0
      omega
    have hsign : ¬ Exact.signed false magnitude < 0 := Int.not_lt.mpr (Int.natCast_nonneg _)
    rw [if_neg hsum, decide_eq_false hsign]
  | true =>
    have hsum : Exact.signed true magnitude < 0 := by
      change -(magnitude : Int) < 0
      omega
    rw [if_neg (Int.ne_of_lt hsum), decide_eq_true hsum]

theorem natAbs_signed (s : Bool) (magnitude : Nat) :
    (Exact.signed s magnitude).natAbs = magnitude := by
  cases s with
  | false => exact Int.natAbs_natCast _
  | true => exact (Int.natAbs_neg _).trans (Int.natAbs_natCast _)

/-- A number that is not zero keeps its value, over the smaller of two exponents, if a zero is
added. -/
theorem addFinite_zero {m : Nat} (hm : m ≠ 0) (s t : Bool) (e g : Int) :
    Exact.addFinite s m e t 0 g =
      .finite s (m * 2 ^ (e - min e g).toNat) (e - (e - min e g).toNat) := by
  have hpos : 0 < m * 2 ^ (e - min e g).toNat :=
    Nat.mul_pos (Nat.pos_of_ne_zero hm) (Nat.two_pow_pos _)
  have hleast : min e g = e - (e - min e g).toNat := by omega
  have hzero : Exact.signed t 0 = 0 := by cases t <;> rfl
  rw [Exact.addFinite, Nat.zero_shiftLeft, hzero, Int.add_zero, Nat.shiftLeft_eq,
    sign_signed hpos, natAbs_signed, ← hleast]

/-- Zeros add up to a zero. -/
theorem addFinite_zero_zero (s t : Bool) (e g : Int) :
    Exact.addFinite s 0 e t 0 g = .finite (s && t) 0 (min e g) := by
  have hzero : ∀ negative, Exact.signed negative 0 = 0 := by decide
  simp only [Exact.addFinite, Nat.zero_shiftLeft, hzero, Int.add_zero, if_true, Int.natAbs_zero]

/-- Adding a zero of either sign to an exact value changes no more than the sign of a zero. -/
theorem round_add_zero (v : Exact) (negative : Bool) (g : Int) :
    (round (v.add (.finite negative 0 g)) : Single).AgreeUpToZero (round v) := by
  cases v with
  | nan => exact .refl _
  | infinite s => exact .refl _
  | finite s m e =>
    by_cases hm : m = 0
    · right
      rw [hm, Exact.add, addFinite_zero_zero]
      exact ⟨isZero_roundFinite_zero _ _, isZero_roundFinite_zero _ _⟩
    · left
      rw [Exact.add, addFinite_zero hm, round, round, roundFinite, roundFinite]
      simp only [Format.roundCode_shift]

/-- A fused multiply-add of a zero is the product up to the sign of zero. -/
theorem fma_of_isZero (x y : Single) (hz : z.isZero = true) :
    (x.fma y z).AgreeUpToZero (x.mul y) := by
  obtain ⟨negative, hexact⟩ := exact_of_isZero hz
  rw [fma, mul, hexact]
  exact round_add_zero _ negative _

/-- A product of a negative zero loses its sign to a sum that is zero. -/
example : (signedZero true).fma .one (.zero : Single) ≠ (signedZero true).mul .one ∧
    ((signedZero true).fma .one (.zero : Single)).AgreeUpToZero ((signedZero true).mul .one) := by
  decide

/-- Fused multiply-adds of sums that agree agree. -/
theorem AgreeUpToZero.fma (h : z.AgreeUpToZero w) (x y : Single) :
    (x.fma y z).AgreeUpToZero (x.fma y w) := by
  rcases h with rfl | ⟨hz, hw⟩
  · exact refl _
  · exact (fma_of_isZero x y hz).trans (fma_of_isZero x y hw).symm

/-- Chains of fused multiply-adds that start with sums that agree end with sums that agree. -/
theorem AgreeUpToZero.chain {x y : Nat → Single} (depths : List Nat) (h : z.AgreeUpToZero w) :
    (depths.foldl (fun sum p ↦ (x p).fma (y p) sum) z).AgreeUpToZero
      (depths.foldl (fun sum p ↦ (x p).fma (y p) sum) w) := by
  induction depths generalizing z w with
  | nil => exact h
  | cons p depths ih => exact ih (h.fma (x p) (y p))

end Binary

end PanelGemm
