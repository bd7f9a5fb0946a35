import PanelGemm.Arithmetic
import PanelGemm.Proofs.Failure

/-!
# Counts and machine words

A count that is a machine word is computed as it is (`Arithmetic.word_of_lt`). One that is not is a
panic or becomes another one, so what is computed has to be told from the count unless the
arithmetic is checked or the count is known to be a word (`Arithmetic.Exact`).

The operations that compute a sum take one word after another. They come to the word of the whole
(`Arithmetic.word_add`).
-/

set_option autoImplicit false
set_option relaxedAutoImplicit false

namespace PanelGemm

theorem Word.limit_pos : 0 < Word.limit := by decide

namespace Arithmetic

variable {arithmetic : Arithmetic} {value word : Nat}

theorem word_of_lt (h : value < Word.limit) : arithmetic.word value = .ok value := if_pos h

theorem checked_word_of_le (h : Word.limit ≤ value) : checked.word value = .error .panicked :=
  if_neg (Nat.not_lt_of_le h)

theorem wrapping_word (value : Nat) : wrapping.word value = .ok (value % Word.limit) := by
  unfold Arithmetic.word
  split_ifs with h
  · rw [Nat.mod_eq_of_lt h]
  · rfl

/-- There is no other failure than a panic, and what is computed is a word. -/
theorem mayPanic_word (arithmetic : Arithmetic) (value : Nat) :
    MayPanic (arithmetic.word value) fun word ↦ word < Word.limit ∧ word ≤ value := by
  cases arithmetic with
  | checked =>
    by_cases h : value < Word.limit
    · exact word_of_lt h ▸ mayPanic_ok ⟨h, Nat.le_refl _⟩
    · exact .inl (checked_word_of_le (Nat.le_of_not_lt h))
  | wrapping =>
    rw [wrapping_word]
    exact mayPanic_ok ⟨Nat.mod_lt _ (by decide), Nat.mod_le _ _⟩

/-- What is computed is no greater than the count. -/
theorem word_le (h : arithmetic.word value = .ok word) : word ≤ value :=
  ((mayPanic_word arithmetic value).of_eq_ok h).2

/-! ### Exact counts -/

/-- A count that is computed as it is, if it is computed at all. -/
def Exact (arithmetic : Arithmetic) (value : Nat) : Prop :=
  arithmetic = .checked ∨ value < Word.limit

instance (arithmetic : Arithmetic) (value : Nat) : Decidable (arithmetic.Exact value) :=
  inferInstanceAs (Decidable (_ ∨ _))

theorem exact_checked (value : Nat) : checked.Exact value := .inl rfl

theorem Exact.mono {other : Nat} (h : arithmetic.Exact value) (hle : other ≤ value) :
    arithmetic.Exact other :=
  h.imp_right fun hlt ↦ Nat.lt_of_le_of_lt hle hlt

/-- The word of an exact count is the count. -/
theorem Exact.word_eq_ok (h : arithmetic.Exact value) :
    arithmetic.word value = .ok word ↔ word = value ∧ value < Word.limit := by
  by_cases hlt : value < Word.limit
  · rw [word_of_lt hlt, Except.ok.injEq, and_iff_left hlt, eq_comm]
  · cases h.resolve_right hlt
    rw [checked_word_of_le (Nat.le_of_not_lt hlt)]
    exact iff_of_false nofun fun hword ↦ hlt hword.2

/-! ### Sums of products -/

/-- A sum comes out no farther from a term that is computed than it is. -/
theorem word_add_le {first second word word' : Nat} (h : arithmetic.word first = .ok word)
    (h' : arithmetic.word (first + second) = .ok word') : word' ≤ word + second := by
  cases arithmetic with
  | checked =>
    rw [(exact_checked _).word_eq_ok] at h h'
    omega
  | wrapping =>
    rw [wrapping_word, Except.ok.injEq] at h h'
    rw [← h, ← h', ← Nat.mod_add_mod]
    exact Nat.mod_le _ _

/-- A sum is the word of the whole, whether it is taken of an exact term or of the word of it. -/
theorem word_add (arithmetic : Arithmetic) (first second : Nat) :
    (do arithmetic.word ((← arithmetic.word first) + second)) =
      arithmetic.word (first + second) := by
  cases arithmetic with
  | checked =>
    by_cases h : first < Word.limit
    · rw [word_of_lt h]
      rfl
    · rw [checked_word_of_le (Nat.le_of_not_lt h), checked_word_of_le (by omega)]
      rfl
  | wrapping =>
    rw [wrapping_word, wrapping_word, ← Nat.mod_add_mod]
    exact wrapping_word _

end Arithmetic

end PanelGemm
