import PanelGemm.Proofs.Failure
import PanelGemm.Proofs.Matrix.Naive
import PanelGemm.Proofs.Matrix.Storage

/-!
# When the naive product panics

The naive product checks nothing beforehand: it reads the rows and elements that it needs and panics
at the first one that its buffer does not hold. Whatever it comes to before, it panics if one row or
element is missing, since no round of its loops fails in any other way (`MayPanic`). It therefore
panics exactly if a buffer is shorter than its matrix, where the operands count only if there are
products to add, and computes every element of the output otherwise (`naiveGemm_settles`).
-/

set_option autoImplicit false
set_option relaxedAutoImplicit false

namespace PanelGemm

/-- The last element of a dense operand has the last place of its buffer. -/
theorem Orientation.offset_last (orientation : Orientation) (rows columns : Nat) :
    orientation.offset (orientation.storedColumns (rows + 1) (columns + 1)) rows columns + 1 =
      (rows + 1) * (columns + 1) := by
  cases orientation with
  | plain =>
    change rows * (columns + 1) + columns + 1 = _
    rw [Nat.succ_mul, Nat.add_assoc]
  | transposed =>
    change columns * (rows + 1) + rows + 1 = _
    rw [Nat.mul_comm (rows + 1), Nat.succ_mul, Nat.add_assoc]

theorem Orientation.offset_lt_dense (orientation : Orientation) {rows columns i p : Nat}
    (hi : i < rows) (hp : p < columns) :
    orientation.offset (orientation.storedColumns rows columns) i p < rows * columns := by
  have hlt := orientation.offset_lt_size (Storage.holds_dense _ _) hi hp
  cases orientation with
  | plain => exact hlt
  | transposed => exact Nat.mul_comm rows columns ▸ hlt

namespace Naive

variable {problem : Problem} {a b c row : Array Single} {i p : Nat}

/-! ### Rows -/

theorem row?_of_short {matrix : Array Single} {width index : Nat}
    (h : matrix.size < (index + 1) * width) : row? matrix width index = .error .panicked :=
  if_neg (Nat.not_le_of_lt h)

theorem row?_mayPanic (matrix : Array Single) (width index : Nat) :
    MayPanic (row? matrix width index) fun row ↦
      row.size = width ∧ (index + 1) * width ≤ matrix.size := by
  by_cases h : (index + 1) * width ≤ matrix.size
  · have hrow := row?_eq_ok h (Nat.lt_succ_self index)
    rw [hrow]
    exact mayPanic_ok ⟨size_extract_row h (Nat.lt_succ_self index), h⟩
  · exact .inl (row?_of_short (Nat.lt_of_not_le h))

/-! ### The products of a row -/

/-- One round of the loop that computes a row: the product at a depth is added to it. -/
def addProduct (problem : Problem) (a b : Array Single) (i : Nat) (row : Array Single) (p : Nat) :
    Except Failure (Array Single) := do
  let x ← orPanic a[problem.orientation.offset problem.leftStride i p]?
  let right ← row? b problem.n p
  return addMultiple (problem.alpha.mul x) row right

theorem computeRow_eq_foldlM (problem : Problem) (a b : Array Single) (i : Nat)
    (row : Array Single) : computeRow problem a b i row =
      (List.range problem.k).foldlM (addProduct problem a b i) (scaledRow problem.beta row) :=
  rfl

theorem addProduct_mayPanic (hrow : row.size = problem.n) :
    MayPanic (addProduct problem a b i row p) fun row ↦ row.size = problem.n := by
  refine (mayPanic_orPanic _).bind fun x _ ↦ (row?_mayPanic b problem.n p).bind ?_
  rintro right ⟨hright, -⟩
  refine mayPanic_ok ?_
  rw [addMultiple, Array.size_zipWith, hrow, hright, Nat.min_self]

theorem addProduct_of_short_left
    (h : a.size ≤ problem.orientation.offset problem.leftStride i p) :
    addProduct problem a b i row p = .error .panicked := by
  rw [addProduct, Array.getElem?_eq_none h]
  rfl

theorem addProduct_of_short_right (h : b.size < (p + 1) * problem.n) :
    addProduct problem a b i row p = .error .panicked := by
  refine (mayPanic_orPanic _).bind_panics fun x _ ↦ ?_
  rw [row?_of_short h]
  rfl

theorem size_scaledRow (beta : Single) (row : Array Single) :
    (scaledRow beta row).size = row.size := by
  rw [scaledRow_eq, Array.size_mapIdx]

theorem computeRow_mayPanic (hrow : row.size = problem.n) :
    MayPanic (computeRow problem a b i row) fun row ↦ row.size = problem.n :=
  .foldlM (fun _ _ _ hrow ↦ addProduct_mayPanic hrow) ((size_scaledRow _ row).trans hrow)

/-- A row is not computed if one of its products panics. -/
theorem computeRow_panics (hp : p < problem.k)
    (h : ∀ row, addProduct problem a b i row p = .error .panicked) (hrow : row.size = problem.n) :
    computeRow problem a b i row = .error .panicked := by
  have hrounds : ∀ other ∈ List.range problem.k, ∀ row : Array Single, row.size = problem.n →
      MayPanic (addProduct problem a b i row other) fun row ↦ row.size = problem.n :=
    fun _ _ _ hrow ↦ addProduct_mayPanic hrow
  rw [computeRow_eq_foldlM]
  exact foldlM_panics hrounds (List.mem_range.mpr hp) (fun row _ ↦ h row)
    ((size_scaledRow _ row).trans hrow)

/-! ### The rows of the output -/

theorem updateRow_mayPanic (problem : Problem) (a b c : Array Single) (i : Nat) :
    MayPanic (updateRow problem a b c i) fun next ↦ next.size = c.size := by
  refine (row?_mayPanic c problem.n i).bind ?_
  rintro row ⟨hrow, hstop⟩
  refine (computeRow_mayPanic hrow).bind fun row hrow ↦ mayPanic_ok ?_
  rw [Nat.succ_mul] at hstop ⊢
  simp only [Array.size_append, Array.size_extract, hrow]
  omega

theorem updateRow_of_short_output (h : c.size < (i + 1) * problem.n) :
    updateRow problem a b c i = .error .panicked := by
  rw [updateRow, row?_of_short h]
  rfl

theorem updateRow_of_computeRow
    (h : ∀ row, row.size = problem.n → computeRow problem a b i row = .error .panicked) :
    updateRow problem a b c i = .error .panicked := by
  refine (row?_mayPanic c problem.n i).bind_panics fun row hrow ↦ ?_
  rw [h row hrow.1]
  rfl

/-- The product panics if one of its rows does. -/
theorem naiveGemm_panics (hi : i < problem.m)
    (h : ∀ buffer : Array Single, buffer.size = c.size →
      updateRow problem a b buffer i = .error .panicked) :
    naiveGemm problem a b c = .error .panicked := by
  have hrows : ∀ other ∈ List.range problem.m, ∀ buffer : Array Single, buffer.size = c.size →
      MayPanic (updateRow problem a b buffer other) fun next ↦ next.size = c.size :=
    fun other _ buffer hbuffer ↦ hbuffer ▸ updateRow_mayPanic problem a b buffer other
  exact foldlM_panics hrows (List.mem_range.mpr hi) h rfl

/-- A buffer of a problem that has rows is too short. The operands are only looked at if there are
products to add. -/
def Problem.RunsShort (problem : Problem) (a b c : Array Single) : Prop :=
  0 < problem.m ∧ (c.size < problem.m * problem.n ∨
    0 < problem.k ∧ (a.size < problem.m * problem.k ∨ b.size < problem.k * problem.n))

/-- A problem that runs short panics at the end of the matrix that is cut off, if not before. -/
theorem naiveGemm_of_runsShort (h : problem.RunsShort a b c) :
    naiveGemm problem a b c = .error .panicked := by
  obtain ⟨hrows, houtput | ⟨hproducts, hleft | hright⟩⟩ := h
  · refine naiveGemm_panics (Nat.sub_lt hrows Nat.one_pos) fun buffer hbuffer ↦ ?_
    refine updateRow_of_short_output ?_
    rwa [Nat.sub_add_cancel hrows, hbuffer]
  · refine naiveGemm_panics (Nat.sub_lt hrows Nat.one_pos) fun buffer _ ↦ ?_
    refine updateRow_of_computeRow fun row ↦ ?_
    refine computeRow_panics (Nat.sub_lt hproducts Nat.one_pos) fun row ↦ ?_
    refine addProduct_of_short_left ?_
    have hlast := problem.orientation.offset_last (problem.m - 1) (problem.k - 1)
    rw [Nat.sub_add_cancel hrows, Nat.sub_add_cancel hproducts] at hlast
    change _ ≤ problem.orientation.offset
      (problem.orientation.storedColumns problem.m problem.k) _ _
    omega
  · refine naiveGemm_panics hrows fun buffer _ ↦ ?_
    refine updateRow_of_computeRow fun row ↦ ?_
    refine computeRow_panics (Nat.sub_lt hproducts Nat.one_pos) fun row ↦ ?_
    refine addProduct_of_short_right ?_
    rwa [Nat.sub_add_cancel hproducts]

/-- A problem that has rows and does not run short has its matrices. -/
theorem fits_of_not_runsShort (hrows : 0 < problem.m) (h : ¬ problem.RunsShort a b c) :
    problem.Fits a b c := by
  unfold Problem.RunsShort at h
  refine ⟨fun i hi p hp ↦ ?_, ?_, by omega⟩
  · refine Nat.lt_of_lt_of_le (problem.orientation.offset_lt_dense hi hp) ?_
    omega
  · by_cases hproducts : 0 < problem.k
    · omega
    · rw [Nat.eq_zero_of_not_pos hproducts, Nat.zero_mul]
      exact Nat.zero_le _

end Naive

open Naive

/-- The naive product panics exactly if the problem has rows and the output is shorter than its
matrix, or there are products to add and an operand is. Otherwise it succeeds: every element of the
output is the chain of its products, each rounded and then added with a rounding of its own, from
the scaled old element on, or from zero if the factor of the old output is zero. Everything behind
the matrix is as before. -/
theorem naiveGemm_settles (problem : Problem) (a b output : Array Single) :
    (naiveGemm problem a b output = .error .panicked ↔
      0 < problem.m ∧ (output.size < problem.m * problem.n ∨
        0 < problem.k ∧ (a.size < problem.m * problem.k ∨ b.size < problem.k * problem.n))) ∧
    (naiveGemm problem a b output ≠ .error .panicked →
      ∃ final, naiveGemm problem a b output = .ok final ∧ final.size = output.size ∧
        (∀ i < problem.m, ∀ j < problem.n, ∃ old, output[i * problem.n + j]? = some old ∧
          final[i * problem.n + j]? = some
            (element problem.beta problem.k (problem.factor a i) (problem.weight b j) old)) ∧
        ∀ q, problem.m * problem.n ≤ q → final[q]? = output[q]?) := by
  change (_ ↔ problem.RunsShort a b output) ∧ _
  by_cases hshort : problem.RunsShort a b output
  · have hpanics := naiveGemm_of_runsShort hshort
    exact ⟨iff_of_true hpanics hshort, fun h ↦ absurd hpanics h⟩
  · by_cases hrows : 0 < problem.m
    · have hfits := fits_of_not_runsShort hrows hshort
      have hproduct := naiveGemm_eq hfits
      refine ⟨iff_of_false (hproduct ▸ nofun) hshort, fun _ ↦
        ⟨_, hproduct, Array.size_mapIdx, fun i hi j hj ↦ ?_, fun q hq ↦ ?_⟩⟩
      · have hposition : i * problem.n + j < output.size :=
          Nat.lt_of_lt_of_le (offset_lt hi hj) hfits.output
        obtain ⟨old, hold⟩ : ∃ old, output[i * problem.n + j]? = some old :=
          ⟨_, Array.getElem?_eq_getElem hposition⟩
        refine ⟨old, hold, ?_⟩
        rw [Array.getElem?_mapIdx, hold, Option.map_some, ← Nat.zero_add (i * problem.n + j),
          Window.rewrite_at hj (Nat.le_refl problem.n), if_pos hi]
      · rw [Array.getElem?_mapIdx]
        cases output[q]? with
        | none => rfl
        | some x =>
          refine congrArg some (Window.rewrite_of_forall_ne (fun i hi j hj hat ↦ ?_) x)
          have hinside := offset_lt hi hj
          omega
    · have hnone : problem.m = 0 := Nat.eq_zero_of_not_pos hrows
      have hidle : naiveGemm problem a b output = .ok output := by
        rw [naiveGemm, hnone]
        rfl
      rw [hidle, hnone]
      exact ⟨iff_of_false nofun hshort, fun _ ↦ ⟨output, rfl, rfl, nofun, fun _ _ ↦ rfl⟩⟩

/-- A transposed problem with its matrices, whose old output, here without a value, is left out: the
element is the sum of two products. -/
theorem naiveGemm_settles_transposed :
    ∃ final, naiveGemm ⟨.transposed, 1, 1, 2, .one, .zero⟩ #[.one, .one] #[.one, .one] #[.nan] =
      .ok final ∧ final[0]? = some (.ofNat 2) := by
  have hcomputed := (naiveGemm_settles ⟨.transposed, 1, 1, 2, .one, .zero⟩ #[.one, .one]
    #[.one, .one] #[.nan]).2 (by decide)
  obtain ⟨final, hfinal, -, hvalues, -⟩ := hcomputed
  obtain ⟨old, hold, hvalue⟩ := hvalues 0 Nat.one_pos 0 Nat.one_pos
  cases hold
  exact ⟨final, hfinal, hvalue.trans (by decide)⟩

/-- Without columns the left operand is read all the same: it is too short here for the one product
there is. -/
example : naiveGemm ⟨.plain, 1, 0, 1, .one, .one⟩ #[] #[] #[] = .error .panicked := by rfl

end PanelGemm
