import PanelGemm.Proofs.Binary.Estimates
import PanelGemm.Threads.Budget
import PanelGemm.Word

/-!
# The thread budget in whole numbers

The operations of a product are counted in double precision, but both limits that the count is
compared with lie far below the first count that is rounded. Whatever the extents are, as long as
they are machine words, the number of threads is therefore the one for the exact count
(`ThreadBudget.chooseThreads_counts_exactly`). It grows with the extents and with the number of
threads that are allowed.
-/

set_option autoImplicit false
set_option relaxedAutoImplicit false

namespace PanelGemm.ThreadBudget

open Binary

/-- The number of threads that an exact count of operations asks for. -/
def threadsFor (operations most : Nat) : Nat :=
  if operations < 100000000 then 1 else if operations < 300000000 then 2 else most

/-- Conversions round each factor once and products round once more. -/
theorem estimates_operations {m n k : Nat} (hm : m < Word.limit) (hn : n < Word.limit)
    (hk : k < Word.limit) : Estimates (operations m n k) (2 * m * n * k) 7 := by
  unfold Word.limit at hm hn hk
  have hrows : 2 * m < 2 ^ 65 := by omega
  have hcolumns : 2 * m * n < 2 ^ 65 * 2 ^ 64 := Nat.mul_lt_mul'' hrows hn
  have hdepth : 2 * m * n * k < 2 ^ 65 * 2 ^ 64 * 2 ^ 64 := Nat.mul_lt_mul'' hcolumns hk
  have hword : ∀ {extent}, extent < 2 ^ 64 → Estimates (ofNat extent) extent 1 :=
    fun h ↦ estimates_ofNat (h.trans (by norm_num))
  have hfirst := (hword (by norm_num : 2 < 2 ^ 64)).mul (hword hm) (by norm_num)
    (hrows.trans (by norm_num))
  have hsecond := hfirst.mul (hword hn) (by norm_num) (hcolumns.trans (by norm_num))
  have hcount := hsecond.mul (hword hk) (by norm_num) (hdepth.trans (by norm_num))
  exact hcount

/-- The rounded count is on the same side of both limits as the exact one. -/
theorem wanted_eq {m n k : Nat} (hm : m < Word.limit) (hn : n < Word.limit) (hk : k < Word.limit)
    (most : Nat) : wanted m n k most = threadsFor (2 * m * n * k) most := by
  have hcount := estimates_operations hm hn hk
  have hsingle : (operations m n k).less singleThreadLimit = true ↔ 2 * m * n * k < 100000000 :=
    hcount.less_iff (by decide)
  have htwo : (operations m n k).less twoThreadLimit = true ↔ 2 * m * n * k < 300000000 :=
    hcount.less_iff (by decide)
  unfold wanted threadsFor
  simp only [hsingle, htwo]

/-- More operations, rows and allowed threads never ask for fewer threads. -/
theorem threadsFor_mono {operations operations' rows rows' most most' : Nat}
    (hoperations : operations' ≤ operations) (hrows : rows' ≤ rows) (hmost : most' ≤ most) :
    max 1 (min (threadsFor operations' most') (min rows' most')) ≤
      max 1 (min (threadsFor operations most) (min rows most)) := by
  unfold threadsFor
  split_ifs
  all_goals omega

theorem chooseThreads_pos (m n k most : Nat) : 0 < chooseThreads m n k most :=
  Nat.le_max_right _ _

/-- The number of threads for a product is the one that the exact count of its operations asks for,
at most one for every full sixty-four rows, at most as many as are allowed, and at least one. It
never falls if an extent or the number of allowed threads grows. -/
theorem chooseThreads_counts_exactly (m n k most : Nat) (hm : m < Word.limit)
    (hn : n < Word.limit) (hk : k < Word.limit) :
    chooseThreads m n k most =
      max 1 (min (threadsFor (2 * m * n * k) most) (min (max 1 (m / 64)) most)) ∧
    1 ≤ chooseThreads m n k most ∧ chooseThreads m n k most ≤ max 1 most ∧
    chooseThreads m n k most ≤ max 1 (m / 64) ∧
    ∀ m' ≤ m, ∀ n' ≤ n, ∀ k' ≤ k, ∀ most' ≤ most,
      chooseThreads m' n' k' most' ≤ chooseThreads m n k most := by
  have hexact : ∀ m n k most, m < Word.limit → n < Word.limit → k < Word.limit →
      chooseThreads m n k most =
        max 1 (min (threadsFor (2 * m * n * k) most) (min (max 1 (m / 64)) most)) := by
    intro m n k most hm hn hk
    unfold chooseThreads rowsPerThread
    rw [wanted_eq hm hn hk, max_comm, min_assoc, max_comm (m / 64)]
  refine ⟨hexact m n k most hm hn hk, ?_, ?_, ?_, fun m' hm' n' hn' k' hk' most' hmost' ↦ ?_⟩
  · exact chooseThreads_pos m n k most
  · rw [hexact m n k most hm hn hk]
    omega
  · rw [hexact m n k most hm hn hk]
    omega
  · have hcount : 2 * m' * n' * k' ≤ 2 * m * n * k :=
      Nat.mul_le_mul (Nat.mul_le_mul (Nat.mul_le_mul_left 2 hm') hn') hk'
    rw [hexact m n k most hm hn hk, hexact m' n' k' most' (Nat.lt_of_le_of_lt hm' hm)
      (Nat.lt_of_le_of_lt hn' hn) (Nat.lt_of_le_of_lt hk' hk)]
    exact threadsFor_mono hcount (max_le_max_left 1 (Nat.div_le_div_right hm')) hmost'

/-- A count that just reaches the first limit asks for two threads, and the rounded product of the
greatest words is still nothing if it is taken no times. -/
theorem chooseThreads_counts_exactly_limits :
    (2500 < Word.limit ∧ chooseThreads 2500 200 100 4 = 2) ∧
      2 ^ 64 - 1 < Word.limit ∧ chooseThreads (2 ^ 64 - 1) (2 ^ 64 - 1) 0 4 = 1 := by
  have hgreatest : 2 ^ 64 - 1 < Word.limit := by decide
  obtain ⟨hfirst, -⟩ :=
    chooseThreads_counts_exactly 2500 200 100 4 (by decide) (by decide) (by decide)
  obtain ⟨hnone, -⟩ :=
    chooseThreads_counts_exactly (2 ^ 64 - 1) (2 ^ 64 - 1) 0 4 hgreatest hgreatest (by decide)
  exact ⟨⟨by decide, hfirst.trans (by decide)⟩, hgreatest, hnone.trans (by decide)⟩

end PanelGemm.ThreadBudget
