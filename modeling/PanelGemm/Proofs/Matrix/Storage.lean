import Mathlib.Tactic.SplitIfs
import PanelGemm.Matrix.Storage
import PanelGemm.Proofs.Arithmetic

/-!
# Buffers that hold a matrix

A call that checks its operands meets a list of requirements one after another and is refused for
the first one that it does not meet (`Requirement.check`). `Storage.Holds` says what a buffer needs
to hold a row-major matrix, and `Storage.check` is the check of these requirements as long as a
machine word counts what the matrix needs (`Storage.Countable`, `Storage.check_eq`). With checked
arithmetic it passes no other matrix (`Storage.countable_of_check`). Every element of a matrix that
is held has a place in the buffer, in whichever orientation the matrix is consumed
(`Orientation.offset_lt_size`).
-/

set_option autoImplicit false
set_option relaxedAutoImplicit false

namespace PanelGemm

/-- Something that a call requires, and what is said of a call that does not meet it. -/
structure Requirement where
  met : Bool
  fault : ShapeFault

namespace Requirement

/-- The fault of the first requirement that is not met. -/
def firstFault : List Requirement → Option ShapeFault
  | [] => none
  | requirement :: rest => if requirement.met then firstFault rest else some requirement.fault

/-- Meets the requirements one after another. -/
def check (requirements : List Requirement) : Except Failure Unit :=
  match firstFault requirements with
  | none => .ok ()
  | some fault => .error (.refused (.shapeMismatch fault))

variable {requirement : Requirement} {requirements rest : List Requirement}

theorem check_cons_of_met (h : requirement.met = true) :
    check (requirement :: rest) = check rest := by
  simp [check, firstFault, h]

theorem check_cons_of_not_met (h : requirement.met = false) :
    check (requirement :: rest) = .error (.refused (.shapeMismatch requirement.fault)) := by
  simp [check, firstFault, h]

/-- The requirements are met up to the first fault, if there is one. -/
theorem firstFault_append : firstFault (requirements ++ rest) =
    (firstFault requirements).or (firstFault rest) := by
  induction requirements with
  | nil => rfl
  | cons requirement requirements ih =>
    cases h : requirement.met with
    | false => simp [firstFault, h]
    | true => simpa [firstFault, h] using ih

theorem check_append :
    check (requirements ++ rest) = check requirements >>= fun _ ↦ check rest := by
  unfold check
  rw [firstFault_append]
  cases firstFault requirements with
  | none => rfl
  | some fault => rfl

theorem firstFault_eq_none :
    firstFault requirements = none ↔ ∀ requirement ∈ requirements, requirement.met = true := by
  induction requirements with
  | nil => simp [firstFault]
  | cons requirement requirements ih =>
    cases h : requirement.met with
    | false => simp [firstFault, h]
    | true => simpa [firstFault, h] using ih

/-- A check passes if every requirement is met. -/
theorem check_eq_ok :
    check requirements = .ok () ↔ ∀ requirement ∈ requirements, requirement.met = true := by
  rw [← firstFault_eq_none, check]
  cases firstFault requirements with
  | none => simp
  | some fault => simp

end Requirement

namespace Storage

variable {arithmetic : Arithmetic} {size rows columns stride : Nat}

/-- What a buffer needs to hold a matrix that has rows and columns: a stride that holds a row, and
a place for the last row. -/
def requirements (size rows columns stride : Nat) : List Requirement :=
  [⟨rows = 0 ∨ columns = 0 ∨ columns ≤ stride, .shortStride stride columns⟩,
    ⟨rows = 0 ∨ columns = 0 ∨ (rows - 1) * stride + columns ≤ size,
      .shortBuffer rows columns stride ((rows - 1) * stride + columns) size⟩]

/-- A buffer holds a matrix that has no rows or no columns, or the rows of which fit its stride
and end before the buffer does. -/
def Holds (size rows columns stride : Nat) : Prop :=
  rows = 0 ∨ columns = 0 ∨ columns ≤ stride ∧ (rows - 1) * stride + columns ≤ size

/-- A machine word counts the elements that a matrix needs, if these come to be counted: it has rows
and columns, and its stride holds a row. -/
def Countable (rows columns stride : Nat) : Prop :=
  rows = 0 ∨ columns = 0 ∨ stride < columns ∨ (rows - 1) * stride + columns < Word.limit

instance (rows columns stride : Nat) : Decidable (Countable rows columns stride) :=
  inferInstanceAs (Decidable (_ ∨ _))

/-- A matrix that a buffer of the machine holds can be counted. -/
theorem Holds.countable (h : Holds size rows columns stride) (hsize : size < Word.limit) :
    Countable rows columns stride := by
  unfold Holds at h
  unfold Countable
  omega

/-- A matrix that is held and can be counted would fit a buffer of as many elements as a word
counts. -/
theorem Holds.limit (h : Holds size rows columns stride) (hcount : Countable rows columns stride) :
    Holds (Word.limit - 1) rows columns stride := by
  unfold Countable at hcount
  unfold Holds at h ⊢
  omega

/-- The check of a matrix that can be counted meets its requirements one after another. -/
theorem check_eq (h : Countable rows columns stride) :
    check arithmetic size rows columns stride =
      Requirement.check (requirements size rows columns stride) := by
  unfold check requirements
  by_cases hempty : rows = 0 ∨ columns = 0
  · have hmet : ∀ p : Prop, rows = 0 ∨ columns = 0 ∨ p := fun p ↦ or_assoc.mp (.inl hempty)
    rw [if_pos hempty, Requirement.check_cons_of_met (decide_eq_true (hmet _)),
      Requirement.check_cons_of_met (decide_eq_true (hmet _))]
    rfl
  · rw [if_neg hempty]
    by_cases hstride : stride < columns
    · rw [if_pos hstride, Requirement.check_cons_of_not_met (decide_eq_false (by omega))]
    · have hcounted : needed rows columns stride < Word.limit := by
        unfold Countable at h
        unfold needed
        omega
      rw [if_neg hstride, Requirement.check_cons_of_met (decide_eq_true (by omega)),
        Arithmetic.word_of_lt hcounted]
      change (if size < needed rows columns stride then _ else _) = _
      unfold needed
      by_cases hsize : size < (rows - 1) * stride + columns
      · rw [if_pos hsize, Requirement.check_cons_of_not_met (decide_eq_false (by omega))]
      · rw [if_neg hsize, Requirement.check_cons_of_met (decide_eq_true (by omega))]
        rfl

/-- The requirements are those of a buffer that holds the matrix. -/
theorem requirements_met :
    Requirement.check (requirements size rows columns stride) = .ok () ↔
      Holds size rows columns stride := by
  rw [Requirement.check_eq_ok]
  simp only [requirements, List.forall_mem_cons, List.not_mem_nil, false_implies, implies_true,
    and_true, decide_eq_true_eq]
  unfold Holds
  omega

/-- The check passes the buffers that hold the matrix. -/
theorem check_eq_ok (h : Countable rows columns stride) :
    check arithmetic size rows columns stride = .ok () ↔ Holds size rows columns stride := by
  rw [check_eq h, requirements_met]

/-- What passes the check with exact arithmetic can be counted. -/
theorem countable_of_check (hexact : arithmetic.Exact (needed rows columns stride))
    (h : check arithmetic size rows columns stride = .ok ()) : Countable rows columns stride := by
  unfold check at h
  unfold Countable
  split_ifs at h with hempty hstride
  · omega
  · obtain ⟨word, hword, -⟩ := bind_eq_ok.mp h
    have hcounted := (hexact.word_eq_ok.mp hword).2
    unfold needed at hcounted
    omega

/-- Checked arithmetic does not pass over a matrix that cannot be counted. -/
theorem check_uncountable (h : ¬ Countable rows columns stride) :
    check .checked size rows columns stride = .error .panicked := by
  unfold Countable at h
  have hlimit : Word.limit ≤ needed rows columns stride := by
    unfold needed
    omega
  rw [check, if_neg (by omega), if_neg (by omega), Arithmetic.checked_word_of_le hlimit]
  rfl

/-- A check does not go wild. -/
theorem check_ne_wild : check arithmetic size rows columns stride ≠ .error .wild := by
  unfold check
  split_ifs
  · exact nofun
  · exact nofun
  · refine bind_ne_error (arithmetic.mayPanic_word _).ne_wild fun needed _ ↦ ?_
    split_ifs
    · exact nofun
    · exact nofun

theorem Holds.stride_le (h : Holds size rows columns stride) (hrows : 0 < rows)
    (hcolumns : 0 < columns) : columns ≤ stride := by
  unfold Holds at h
  omega

/-- Every row of a matrix ends before its buffer does. -/
theorem Holds.row_le (h : Holds size rows columns stride) (hcolumns : 0 < columns) {i : Nat}
    (hi : i < rows) : i * stride + columns ≤ size := by
  have hrow : i * stride ≤ (rows - 1) * stride := Nat.mul_le_mul_right _ (by omega)
  unfold Holds at h
  omega

/-- A buffer that holds a matrix has room for all of its elements. -/
theorem Holds.mul_le (h : Holds size rows columns stride) : rows * columns ≤ size := by
  rcases h with hrows | hcolumns | ⟨hstride, hsize⟩
  · simp [hrows]
  · simp [hcolumns]
  · by_cases hrows : rows = 0
    · simp [hrows]
    · have hmul := Nat.mul_le_mul_left (rows - 1) hstride
      have hsucc : rows * columns = (rows - 1) * columns + columns := by
        rw [← Nat.succ_mul, Nat.succ_eq_add_one, Nat.sub_add_cancel (Nat.pos_of_ne_zero hrows)]
      omega

/-- A buffer with the elements of a matrix, one row after the other, holds it. -/
theorem holds_of_mul_le (h : rows * columns ≤ size) : Holds size rows columns columns := by
  by_cases hrows : rows = 0
  · exact .inl hrows
  · have hlast : (rows - 1) * columns + columns = rows * columns := by
      rw [← Nat.succ_mul, Nat.succ_eq_add_one, Nat.sub_add_cancel (Nat.pos_of_ne_zero hrows)]
    exact .inr (.inr ⟨Nat.le_refl _, hlast ▸ h⟩)

theorem holds_dense (rows columns : Nat) : Holds (rows * columns) rows columns columns :=
  holds_of_mul_le (Nat.le_refl _)

/-- A buffer that holds a matrix holds its rows from a given one on, from where that row starts. -/
theorem Holds.rows_from (h : Holds size rows columns stride) {first part : Nat}
    (hpart : first + part ≤ rows) : Holds (size - first * stride) part columns stride := by
  by_cases hempty : part = 0
  · exact .inl hempty
  · have hrows : first * stride + (part - 1) * stride ≤ (rows - 1) * stride := by
      rw [← Nat.add_mul]
      exact Nat.mul_le_mul_right _ (by omega)
    unfold Holds at h ⊢
    omega

/-- A buffer that holds a matrix holds its columns from a given one on, from where that column
starts. -/
theorem Holds.columns_from (h : Holds size rows columns stride) {first part : Nat}
    (hpart : first + part ≤ columns) : Holds (size - first) rows part stride := by
  unfold Holds at h ⊢
  omega

end Storage

namespace Orientation

/-- An operand has as many elements as it is stored. -/
theorem storedRows_mul_storedColumns (orientation : Orientation) (rows columns : Nat) :
    orientation.storedRows rows columns * orientation.storedColumns rows columns =
      rows * columns := by
  cases orientation with
  | plain => rfl
  | transposed => exact Nat.mul_comm _ _

variable (orientation : Orientation) (stride first : Nat)

/-- The rows from a given one on lie in the buffer from its first element on. -/
theorem offset_row_add (row column : Nat) :
    orientation.offset stride first 0 + orientation.offset stride row column =
      orientation.offset stride (first + row) column := by
  cases orientation with
  | plain =>
    simp only [offset, Nat.add_mul]
    omega
  | transposed =>
    simp only [offset, Nat.zero_mul]
    omega

/-- The columns from a given one on lie in the buffer from its first element on. -/
theorem offset_column_add (row column : Nat) :
    orientation.offset stride 0 first + orientation.offset stride row column =
      orientation.offset stride row (first + column) := by
  cases orientation with
  | plain =>
    simp only [offset, Nat.zero_mul]
    omega
  | transposed =>
    simp only [offset, Nat.add_mul]
    omega

variable {orientation stride first} {size rows columns : Nat}

/-- A buffer that holds an operand holds its rows from a given one on. -/
theorem holds_rows_from (h : Storage.Holds size (orientation.storedRows rows columns)
    (orientation.storedColumns rows columns) stride) {part : Nat} (hpart : first + part ≤ rows) :
    Storage.Holds (size - orientation.offset stride first 0)
      (orientation.storedRows part columns) (orientation.storedColumns part columns) stride := by
  cases orientation with
  | plain => exact h.rows_from hpart
  | transposed =>
    have hpart := h.columns_from hpart
    simpa only [offset, storedRows, storedColumns, Nat.zero_mul, Nat.zero_add] using hpart

/-- A buffer that holds an operand holds its columns from a given one on. -/
theorem holds_columns_from (h : Storage.Holds size (orientation.storedRows rows columns)
    (orientation.storedColumns rows columns) stride) {part : Nat}
    (hpart : first + part ≤ columns) :
    Storage.Holds (size - orientation.offset stride 0 first)
      (orientation.storedRows rows part) (orientation.storedColumns rows part) stride := by
  cases orientation with
  | plain =>
    have hpart := h.columns_from hpart
    simpa only [offset, storedRows, storedColumns, Nat.zero_mul, Nat.zero_add] using hpart
  | transposed => exact h.rows_from hpart

/-- A dense operand ends before the last element that a row behind its last one would have. -/
theorem dense_le_offset (orientation : Orientation) {rows row : Nat} (columns : Nat)
    (hrow : rows ≤ row) :
    rows * columns ≤ orientation.offset (orientation.storedColumns rows columns) row
      (columns - 1) := by
  cases orientation with
  | plain => exact Nat.le_trans (Nat.mul_le_mul_right columns hrow) (Nat.le_add_right _ _)
  | transposed =>
    change rows * columns ≤ (columns - 1) * rows + row
    cases columns with
    | zero => omega
    | succ columns =>
      rw [Nat.mul_comm, Nat.succ_mul, Nat.add_sub_cancel]
      exact Nat.add_le_add_left hrow _

/-- The element of an operand at a row and a column lies in a buffer that holds the operand. -/
theorem offset_lt_size (orientation : Orientation)
    (h : Storage.Holds size (orientation.storedRows rows columns)
      (orientation.storedColumns rows columns) stride) {i p : Nat} (hi : i < rows)
    (hp : p < columns) : orientation.offset stride i p < size := by
  cases orientation with
  | plain =>
    have hrow : i * stride + columns ≤ size := h.row_le (Nat.zero_lt_of_lt hp) hi
    change i * stride + p < size
    omega
  | transposed =>
    have hrow : p * stride + rows ≤ size := h.row_le (Nat.zero_lt_of_lt hi) hp
    change p * stride + i < size
    omega

end Orientation

end PanelGemm
