import PanelGemm.Matrix.Transposition
import PanelGemm.Proofs.Failure
import PanelGemm.Proofs.Matrix.Storage
import PanelGemm.Proofs.Window

/-!
# What transposition leaves

A source that holds its matrix, written into a destination with as many elements, leaves the
transpose: the rows of the destination are the columns of the source, and what lies behind them is
kept (`transpose_eq`). Each source row fills a column of the destination, and the columns stand side
by side.

The last element of the matrix goes to the last position of all. A destination that is too short
lacks this one, so the transposition panics there if not before. Two transpositions, the second one
with the extents exchanged, restore the matrix (`transpose_rearranges`).
-/

set_option autoImplicit false
set_option relaxedAutoImplicit false

namespace PanelGemm

namespace Transposition

variable {source destination : Array Single} {rows columns i : Nat}

/-- A value that is put at a position replaces what is there. -/
theorem put_eq {position : Nat} (h : position < destination.size) (value : Single) :
    put destination position value =
      .ok (destination.mapIdx fun q x ↦ if q = position then value else x) := by
  have hwrite := write?_eq h fun _ ↦ value
  rw [Buffer.write?, dif_pos h] at hwrite
  rw [put, dif_pos h, Option.some_inj.mp hwrite]

/-- A source row fills a column of the destination. -/
theorem scatterRow_eq (hsource : rows * columns ≤ source.size)
    (hdestination : rows * columns ≤ destination.size) (hi : i < rows) :
    scatterRow source rows columns i destination = .ok (destination.mapIdx
      ((⟨i, rows, columns, 1⟩ : Window).rewrite fun j _ _ ↦
        source.getD (i * columns + j) .zero)) := by
  have hstep : ∀ j ∈ List.range columns, ∀ buffer : Array Single,
      buffer.size = destination.size →
      (do
        let value ← orPanic source[i * columns + j]?
        put buffer (j * rows + i) value : Except Failure (Array Single)) =
      pure (buffer.mapIdx ((⟨i + j * rows, rows, 1, 1⟩ : Window).rewrite fun _ _ _ ↦
        source.getD (i * columns + j) .zero)) := by
    intro j hj buffer hbuffer
    have hj := List.mem_range.mp hj
    have hread : source[i * columns + j]? = some (source.getD (i * columns + j) .zero) := by
      have hposition : i * columns + j < source.size :=
        Nat.lt_of_lt_of_le (offset_lt hi hj) hsource
      simp [hposition]
    have hwrite : j * rows + i < buffer.size := by
      have hposition := offset_lt hj hi
      rw [Nat.mul_comm columns] at hposition
      exact hbuffer ▸ Nat.lt_of_lt_of_le hposition hdestination
    have hwindow : (⟨i + j * rows, rows, 1, 1⟩ : Window).rewrite
        (fun _ _ _ ↦ source.getD (i * columns + j) .zero) =
        fun q x ↦ if q = j * rows + i then source.getD (i * columns + j) .zero else x := by
      funext q x
      rw [Window.rewrite_single (Nat.zero_lt_of_lt hi), Nat.add_comm]
    rw [hread, hwindow]
    exact put_eq hwrite _
  have hfold : scatterRow source rows columns i destination = pure _ :=
    foldlM_pure_mapIdx hstep rfl
  rw [hfold]
  refine congrArg Except.ok (Array.mapIdx_eq_mapIdx_iff.mpr fun q hq ↦ ?_)
  exact Window.foldl_rows (Nat.succ_le_of_lt (Nat.zero_lt_of_lt hi))
    (fun j _ _ ↦ source.getD (i * columns + j) .zero) columns q _

/-- A source that holds all of its rows has them all complete, unless they are empty. -/
theorem completeRows_eq (hcolumns : 0 < columns) (hsource : rows * columns ≤ source.size) :
    completeRows source rows columns = rows := by
  rw [completeRows, if_neg (Nat.ne_of_gt hcolumns)]
  exact Nat.min_eq_left ((Nat.le_div_iff_mul_le hcolumns).mpr hsource)

end Transposition

open Transposition

variable {source destination : Array Single} {rows columns : Nat}

/-- Transposition of a matrix that both buffers have room for. -/
theorem transpose_eq (hsource : rows * columns ≤ source.size)
    (hdestination : rows * columns ≤ destination.size) :
    transpose source destination rows columns = .ok (destination.mapIdx
      ((⟨0, rows, columns, rows⟩ : Window).rewrite fun j i _ ↦
        source.getD (i * columns + j) .zero)) := by
  rcases Nat.eq_zero_or_pos columns with rfl | hcolumns
  · have hkept : destination.mapIdx ((⟨0, rows, 0, rows⟩ : Window).rewrite fun j i _ ↦
        source.getD (i * 0 + j) .zero) = destination :=
      mapIdx_eq_self fun q _ ↦ Window.rewrite_of_forall_ne
        (fun j hj ↦ absurd hj (Nat.not_lt_zero j)) _
    rw [hkept]
    rfl
  · have hstep : ∀ i ∈ List.range rows, ∀ buffer : Array Single,
        buffer.size = destination.size → scatterRow source rows columns i buffer =
          pure (buffer.mapIdx ((⟨0 + i * 1, rows, columns, 1⟩ : Window).rewrite fun j _ _ ↦
            source.getD (i * columns + j) .zero)) := by
      intro i hi buffer hbuffer
      rw [Nat.mul_one, Nat.zero_add]
      exact scatterRow_eq hsource (hbuffer ▸ hdestination) (List.mem_range.mp hi)
    rw [transpose, completeRows_eq hcolumns hsource]
    refine (foldlM_pure_mapIdx hstep rfl).trans ?_
    refine congrArg Except.ok (Array.mapIdx_eq_mapIdx_iff.mpr fun q hq ↦ ?_)
    have hblocks : (List.range rows).foldl (fun x i ↦
        (⟨0 + i * 1, rows, columns, 1⟩ : Window).rewrite (fun j _ _ ↦
          source.getD (i * columns + j) .zero) q x) destination[q] = _ :=
      Window.foldl_blocks (fun i j _ _ ↦ source.getD (i * columns + j) .zero)
        (Nat.le_of_eq (Nat.mul_one rows)) q destination[q]
    simpa only [Nat.div_one, Nat.mul_one] using hblocks

/-- A buffer starts with the transpose of the matrix that another one starts with, and behind it
there is what lies there in a given destination. -/
structure Transposed (source destination final : Array Single) (rows columns : Nat) : Prop where
  size : final.size = destination.size
  room : rows * columns ≤ final.size
  element : ∀ i < rows, ∀ j < columns, final[j * rows + i]? = source[i * columns + j]?
  behind : ∀ q, rows * columns ≤ q → final[q]? = destination[q]?

/-- What is written if both buffers have room for the matrix. -/
theorem exists_transposed (hsource : rows * columns ≤ source.size)
    (hdestination : rows * columns ≤ destination.size) :
    ∃ final, transpose source destination rows columns = .ok final ∧
      Transposed source destination final rows columns := by
  refine ⟨_, transpose_eq hsource hdestination, Array.size_mapIdx, ?_, ?_, ?_⟩
  · simpa using hdestination
  · intro i hi j hj
    have hto : 0 + (j * rows + i) < destination.size := by
      have hposition := offset_lt hj hi
      rw [Nat.mul_comm columns] at hposition
      omega
    have hfrom : i * columns + j < source.size := Nat.lt_of_lt_of_le (offset_lt hi hj) hsource
    rw [← Nat.zero_add (j * rows + i), Array.getElem?_mapIdx, Array.getElem?_eq_getElem hto,
      Option.map_some, Window.rewrite_at hi (Nat.le_refl rows), if_pos hj]
    simp [hfrom]
  · intro q hq
    have hkept : (⟨0, rows, columns, rows⟩ : Window).rewrite
        (fun j i _ ↦ source.getD (i * columns + j) .zero) q = id := by
      funext x
      apply Window.rewrite_of_forall_ne
      intro j hj i hi hposition
      have hinside := offset_lt hj hi
      rw [Nat.mul_comm columns] at hinside
      omega
    rw [Array.getElem?_mapIdx, hkept, Option.map_id_apply]

/-- The transpose of a dense matrix has the same elements as the matrix. -/
theorem transpose_dense (hsource : source.size = rows * columns)
    (hdestination : destination.size = rows * columns) :
    ∃ transposed, transpose source destination rows columns = .ok transposed ∧
      transposed.size = rows * columns ∧
      ∀ i < rows, ∀ j < columns, transposed[j * rows + i]? = source[i * columns + j]? := by
  obtain ⟨final, hfinal, htransposed⟩ :=
    exists_transposed (Nat.le_of_eq hsource.symm) (Nat.le_of_eq hdestination.symm)
  exact ⟨final, hfinal, htransposed.size.trans hdestination, htransposed.element⟩

/-- The transpose of a transpose has the elements of the matrix where the matrix has them. -/
theorem Transposed.restored {final back restored : Array Single}
    (h : Transposed source destination final rows columns)
    (hback : Transposed final back restored columns rows) :
    ∀ q < rows * columns, restored[q]? = source[q]? := by
  intro q hq
  have hcolumns : 0 < columns := Nat.pos_of_mul_pos_left (Nat.zero_lt_of_lt hq)
  have hrow : q / columns < rows := (Nat.div_lt_iff_lt_mul hcolumns).mpr hq
  have hcolumn : q % columns < columns := Nat.mod_lt q hcolumns
  calc restored[q]? = restored[q / columns * columns + q % columns]? := by
        rw [Nat.div_add_mod']
    _ = final[q % columns * rows + q / columns]? :=
        hback.element (q % columns) hcolumn (q / columns) hrow
    _ = source[q / columns * columns + q % columns]? :=
        h.element (q / columns) hrow (q % columns) hcolumn
    _ = source[q]? := by rw [Nat.div_add_mod']

/-! ### Destinations that are too short -/

namespace Transposition

variable {i j : Nat}

/-- One round of the loop that scatters a row: an element of the source is put in its place. -/
def moveElement (source : Array Single) (rows columns i : Nat) (destination : Array Single)
    (j : Nat) : Except Failure (Array Single) := do
  let value ← orPanic source[i * columns + j]?
  put destination (j * rows + i) value

theorem scatterRow_eq_foldlM (source : Array Single) (rows columns i : Nat)
    (destination : Array Single) : scatterRow source rows columns i destination =
      (List.range columns).foldlM (moveElement source rows columns i) destination :=
  rfl

theorem put_mayPanic (destination : Array Single) (position : Nat) (value : Single) :
    MayPanic (put destination position value) fun next ↦ next.size = destination.size := by
  unfold put
  split_ifs
  · apply mayPanic_ok
    simp
  · exact .inl rfl

theorem moveElement_mayPanic (source : Array Single) (rows columns i : Nat)
    (destination : Array Single) (j : Nat) :
    MayPanic (moveElement source rows columns i destination j)
      fun next ↦ next.size = destination.size :=
  (mayPanic_orPanic _).bind fun value _ ↦ put_mayPanic destination _ value

/-- An element whose place is missing is not moved. -/
theorem moveElement_of_short (h : destination.size ≤ j * rows + i) :
    moveElement source rows columns i destination j = .error .panicked := by
  apply (mayPanic_orPanic _).bind_panics
  intro value _
  exact dif_neg (Nat.not_lt_of_le h)

theorem scatterRow_mayPanic (source : Array Single) (rows columns i : Nat)
    (destination : Array Single) :
    MayPanic (scatterRow source rows columns i destination)
      fun next ↦ next.size = destination.size :=
  .foldlM (fun j _ buffer hbuffer ↦ hbuffer ▸ moveElement_mayPanic source rows columns i buffer j)
    rfl

/-- A row is not scattered if the place of one of its elements is missing. -/
theorem scatterRow_of_short (hj : j < columns) (h : destination.size ≤ j * rows + i) :
    scatterRow source rows columns i destination = .error .panicked := by
  have hrounds : ∀ other ∈ List.range columns, ∀ buffer : Array Single,
      buffer.size = destination.size → MayPanic (moveElement source rows columns i buffer other)
        fun next ↦ next.size = destination.size :=
    fun other _ buffer hbuffer ↦ hbuffer ▸ moveElement_mayPanic source rows columns i buffer other
  rw [scatterRow_eq_foldlM]
  apply foldlM_panics hrounds (List.mem_range.mpr hj) _ rfl
  intro buffer hbuffer
  apply moveElement_of_short
  rwa [hbuffer]

end Transposition

/-- A destination without a place for the last element of the matrix makes a transposition panic. -/
theorem transpose_of_short (hsource : rows * columns ≤ source.size)
    (hdestination : destination.size < rows * columns) :
    transpose source destination rows columns = .error .panicked := by
  have hpositive : 0 < rows * columns := Nat.zero_lt_of_lt hdestination
  have hrows : 0 < rows := Nat.pos_of_mul_pos_right hpositive
  have hcolumns : 0 < columns := Nat.pos_of_mul_pos_left hpositive
  have hlast : (columns - 1) * rows + (rows - 1) + 1 = rows * columns := by
    rw [Nat.add_assoc, Nat.sub_add_cancel hrows, ← Nat.succ_mul, Nat.succ_eq_add_one,
      Nat.sub_add_cancel hcolumns, Nat.mul_comm]
  have hrounds : ∀ i ∈ List.range rows, ∀ buffer : Array Single,
      buffer.size = destination.size → MayPanic (scatterRow source rows columns i buffer)
        fun next ↦ next.size = destination.size :=
    fun i _ buffer hbuffer ↦ hbuffer ▸ scatterRow_mayPanic source rows columns i buffer
  rw [transpose, completeRows_eq hcolumns hsource]
  apply foldlM_panics hrounds (List.mem_range.mpr (Nat.sub_lt hrows Nat.one_pos)) _ rfl
  intro buffer hbuffer
  apply scatterRow_of_short (Nat.sub_lt hcolumns Nat.one_pos)
  omega

/-- A matrix without elements leaves the destination alone. -/
theorem transpose_of_empty (hempty : rows * columns = 0) :
    transpose source destination rows columns = .ok destination := by
  have hnone : completeRows source rows columns = 0 := by
    unfold completeRows
    split_ifs with hcolumns
    · rfl
    · simp [(Nat.mul_eq_zero.mp hempty).resolve_right hcolumns]
  rw [transpose, hnone]
  rfl

/-- Transposition of a matrix that the source holds. Without elements it leaves the destination
alone, and otherwise it panics exactly if the destination is shorter than the matrix. Unless it
panics the destination starts with the transpose and is as before behind it, and a second
transposition, with the extents exchanged, restores the elements of the matrix in any buffer that
has room for them. -/
theorem transpose_rearranges (source destination : Array Single) (rows columns : Nat)
    (hsource : rows * columns ≤ source.size) :
    (rows * columns = 0 → transpose source destination rows columns = .ok destination) ∧
    (0 < rows * columns → (transpose source destination rows columns = .error .panicked ↔
      destination.size < rows * columns)) ∧
    (transpose source destination rows columns ≠ .error .panicked →
      ∃ final, transpose source destination rows columns = .ok final ∧
        Transposed source destination final rows columns ∧
        ∀ back : Array Single, rows * columns ≤ back.size →
          ∃ restored, transpose final back columns rows = .ok restored ∧
            restored.size = back.size ∧ ∀ q < rows * columns, restored[q]? = source[q]?) := by
  have hpanics : transpose source destination rows columns = .error .panicked →
      destination.size < rows * columns := by
    intro h
    by_contra hroom
    obtain ⟨final, hfinal, -⟩ := exists_transposed hsource (Nat.le_of_not_lt hroom)
    rw [hfinal] at h
    exact nomatch h
  refine ⟨transpose_of_empty, fun _ ↦ ⟨hpanics, transpose_of_short hsource⟩, ?_⟩
  intro hreturns
  have hdestination : rows * columns ≤ destination.size := by
    by_contra hshort
    exact hreturns (transpose_of_short hsource (Nat.lt_of_not_le hshort))
  obtain ⟨final, hfinal, htransposed⟩ := exists_transposed hsource hdestination
  refine ⟨final, hfinal, htransposed, ?_⟩
  intro back hroom
  have hagain : columns * rows ≤ final.size := Nat.mul_comm rows columns ▸ htransposed.room
  obtain ⟨restored, hrestored, hback⟩ :=
    exists_transposed hagain (Nat.mul_comm rows columns ▸ hroom)
  exact ⟨restored, hrestored, hback.size, htransposed.restored hback⟩

/-- Two rows of three elements, with an element behind the matrix in the source as well as in the
destination. -/
theorem transpose_rearranges_overlong :
    ∃ final, transpose #[.ofNat 1, .ofNat 2, .ofNat 3, .ofNat 4, .ofNat 5, .ofNat 6, .nan]
        (Array.replicate 7 .zero) 2 3 = .ok final ∧ final[1]? = some (.ofNat 4) ∧
      final[6]? = some .zero ∧
      ∃ restored, transpose final (Array.replicate 6 .nan) 3 2 = .ok restored ∧
        restored[4]? = some (.ofNat 5) := by
  obtain ⟨-, hpanics, hreturns⟩ := transpose_rearranges
    #[.ofNat 1, .ofNat 2, .ofNat 3, .ofNat 4, .ofNat 5, .ofNat 6, .nan]
    (Array.replicate 7 .zero) 2 3 (by decide)
  have hroom : ¬ (Array.replicate 7 (.zero : Single)).size < 2 * 3 := by decide
  obtain ⟨final, hfinal, htransposed, hback⟩ := hreturns ((hpanics (by decide)).not.mpr hroom)
  obtain ⟨restored, hrestored, -, helements⟩ := hback (Array.replicate 6 .nan) (by decide)
  exact ⟨final, hfinal, htransposed.element 1 (by decide) 0 (by decide),
    htransposed.behind 6 (by decide), restored, hrestored, helements 4 (by decide)⟩

end PanelGemm
