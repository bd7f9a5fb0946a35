import Mathlib.Data.List.Induction
import Mathlib.Data.Nat.Digits.Defs
import PanelGemm.Decimal.Natural

/-!
# Numerals

A numeral is an optional plus sign and one or more decimal digits, and it stands for the number that
the digits have in base ten, leading zeros or not (`Decimal.IsNumeral`). `Decimal.readExtent?` reads
the numerals of machine words and nothing else (`Decimal.readExtent?_eq_some_iff`).
-/

set_option autoImplicit false
set_option relaxedAutoImplicit false

namespace PanelGemm.Decimal

variable {c : Char} {text : List Char} {value : Nat}

/-- The character of a decimal digit. -/
def digit (d : Fin 10) : Char := Nat.digitChar d

/-- A text is an optional plus sign and decimal digits that have a value in base ten, the most
significant one first. -/
def IsNumeral (text : List Char) (value : Nat) : Prop :=
  ∃ sign ∈ [[], ['+']], ∃ digits : List (Fin 10), digits ≠ [] ∧
    text = sign ++ digits.map digit ∧ value = Nat.ofDigits 10 (digits.map Fin.val).reverse

/-! ### Digits -/

theorem toNat_digit (d : Fin 10) : (digit d).toNat = 48 + d :=
  Nat.toNat_digitChar_of_lt_ten d.isLt

theorem digitValue_digit (d : Fin 10) : digitValue (digit d) = d := by
  have hzero : '0'.toNat = 48 := rfl
  rw [digitValue, toNat_digit, hzero, Nat.add_sub_cancel_left]

theorem isDigit_digit : ∀ d : Fin 10, isDigit (digit d) = true := by
  decide

/-- The ten digits are all there are. -/
theorem exists_digit (h : isDigit c = true) : ∃ d, digit d = c := by
  have hbounds : '0' ≤ c ∧ c ≤ '9' := by simpa [isDigit] using h
  have hlow : 48 ≤ c.toNat := hbounds.1
  have hhigh : c.toNat ≤ 57 := hbounds.2
  refine ⟨⟨c.toNat - 48, by omega⟩, Char.toNat_inj.mp ?_⟩
  rw [toNat_digit]
  exact Nat.add_sub_of_le hlow

theorem exists_digits (h : text.all isDigit = true) :
    ∃ digits : List (Fin 10), digits.map digit = text := by
  induction text with
  | nil => exact ⟨[], rfl⟩
  | cons c text ih =>
    rw [List.all_cons, Bool.and_eq_true] at h
    obtain ⟨d, rfl⟩ := exists_digit h.1
    obtain ⟨digits, rfl⟩ := ih h.2
    exact ⟨d :: digits, rfl⟩

theorem all_isDigit_map (digits : List (Fin 10)) : (digits.map digit).all isDigit = true := by
  rw [List.all_eq_true]
  rintro _ hc
  obtain ⟨d, -, rfl⟩ := List.mem_map.mp hc
  exact isDigit_digit d

/-- A row of digits has the value that it has in base ten. -/
theorem valueOf_map (digits : List (Fin 10)) :
    valueOf (digits.map digit) = Nat.ofDigits 10 (digits.map Fin.val).reverse := by
  induction digits using List.reverseRecOn with
  | nil => rfl
  | append_singleton digits d ih =>
    have hvalue : valueOf ((digits ++ [d]).map digit) =
        10 * valueOf (digits.map digit) + digitValue (digit d) := by
      rw [valueOf, List.map_append, List.foldl_append]
      rfl
    rw [hvalue, ih, digitValue_digit, List.map_append, List.map_singleton, List.reverse_append,
      List.reverse_singleton, List.singleton_append, Nat.ofDigits_cons, Nat.add_comm]

/-! ### The sign -/

/-- A text is what follows its plus sign, or that after a plus sign. -/
theorem eq_append_withoutPlus (text : List Char) :
    ∃ sign ∈ [[], ['+']], text = sign ++ withoutPlus text := by
  unfold withoutPlus
  split
  · exact ⟨['+'], by simp, rfl⟩
  · exact ⟨[], by simp, rfl⟩

/-- A plus sign is no digit, so digits are not taken for one. -/
theorem withoutPlus_append {sign : List Char} (hsign : sign ∈ [[], ['+']])
    (digits : List (Fin 10)) : withoutPlus (sign ++ digits.map digit) = digits.map digit := by
  rcases List.mem_cons.mp hsign with rfl | hplus
  · cases digits with
    | nil => rfl
    | cons d digits =>
      have hd : digit d ≠ '+' := by
        revert d
        decide
      rw [List.nil_append, List.map_cons]
      unfold withoutPlus
      split
      · rename_i heq
        exact absurd (List.cons.inj heq).1 hd
      · rfl
  · rw [List.mem_singleton.mp hplus]
    rfl

/-- What is read is the value of a numeral, and every numeral of a machine word is read. -/
theorem readExtent?_eq_some_iff :
    readExtent? text = some value ↔ IsNumeral text value ∧ value < 2 ^ 64 := by
  unfold readExtent?
  constructor
  · intro h
    dsimp only at h
    split_ifs at h with hread
    obtain ⟨hne, hdigits, hlimit⟩ := hread
    cases h
    obtain ⟨sign, hsign, htext⟩ := eq_append_withoutPlus text
    obtain ⟨digits, hmap⟩ := exists_digits hdigits
    rw [← hmap] at htext hne hlimit ⊢
    refine ⟨⟨sign, hsign, digits, fun hnil ↦ hne (hnil ▸ rfl), htext, valueOf_map digits⟩, hlimit⟩
  · rintro ⟨⟨sign, hsign, digits, hne, rfl, rfl⟩, hlimit⟩
    rw [withoutPlus_append hsign]
    rw [← valueOf_map] at hlimit ⊢
    exact if_pos ⟨mt List.map_eq_nil_iff.mp hne, all_isDigit_map digits, hlimit⟩

end PanelGemm.Decimal
