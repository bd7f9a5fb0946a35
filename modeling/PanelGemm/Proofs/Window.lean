import Mathlib.Data.List.FinRange
import PanelGemm.Kernel.Buffer

/-!
# Windows of a buffer

Everything that a product does to its output it does to one element after another, in place and
without looking at the others. What such a computation leaves is therefore the old buffer with a
function of the position and the old element applied to every element, which the standard library
calls `Array.mapIdx`. Computations that follow one another compose their functions
(`foldlM_pure_mapIdx`), and one on a part of a buffer is one on the whole (`splice_mapIdx`).
Consecutive slices of a buffer are put together by `foldl_extract`.

The functions of this development act on a `Window`, a rectangle of a row-major buffer, and leave
what lies outside of it alone (`Window.rewrite`). `Window.rewrite_below` and
`Window.rewrite_beside` put a window together from two that are stacked or that stand side by
side; `foldl_rows` and `foldl_blocks` do the same for any number of rows and of column blocks.
-/

set_option autoImplicit false
set_option relaxedAutoImplicit false

namespace PanelGemm

/-! ### Slices -/

/-- The elements of a buffer from a position on. -/
theorem getElem?_extract_from (buffer : Array Single) (start position : Nat) :
    (buffer.extract start)[position]? = buffer[start + position]? := by
  rw [Array.getElem?_extract, Nat.min_self]
  split_ifs with hposition
  · rfl
  · rw [Array.getElem?_eq_none (by omega)]

theorem getD_extract_from (buffer : Array Single) (start position : Nat) :
    (buffer.extract start).getD position .zero = buffer.getD (start + position) .zero := by
  rw [Array.getD_eq_getD_getElem?, Array.getD_eq_getD_getElem?, getElem?_extract_from]

/-- Consecutive slices make up what they are cut from. -/
theorem foldl_extract {buffer : Array Single} {bounds : Nat → Nat} {count : Nat}
    (hascending : ∀ i < count, bounds i ≤ bounds (i + 1)) :
    bounds 0 ≤ bounds count ∧
      ((List.range count).map fun i ↦ buffer.extract (bounds i) (bounds (i + 1))).foldl
        (· ++ ·) #[] = buffer.extract (bounds 0) (bounds count) := by
  induction count with
  | zero => simp
  | succ count ih =>
    obtain ⟨hle, hslices⟩ := ih fun i hi ↦ hascending i (Nat.lt_succ_of_lt hi)
    have hlast := hascending count (Nat.lt_succ_self count)
    refine ⟨Nat.le_trans hle hlast, ?_⟩
    rw [List.range_succ, List.map_append, List.foldl_append, hslices, List.map_singleton,
      List.foldl_cons, List.foldl_nil, Array.extract_append_extract, Nat.min_eq_left hle,
      Nat.max_eq_right hlast]

/-! ### Elementwise computations -/

/-- A function that keeps the elements of a buffer leaves the buffer as it is. -/
theorem mapIdx_eq_self {buffer : Array Single} {f : Nat → Single → Single}
    (h : ∀ q (hq : q < buffer.size), f q buffer[q] = buffer[q]) : buffer.mapIdx f = buffer := by
  rw [Array.mapIdx_eq_iff]
  intro q
  by_cases hq : q < buffer.size
  · rw [Array.getElem?_eq_getElem hq, Option.map_some, h q hq]
  · rw [Array.getElem?_eq_none (Nat.le_of_not_lt hq), Option.map_none]

/-- A value that is written where the old one was read is an elementwise computation. -/
theorem write?_eq {buffer : Array Single} {position : Nat} (h : position < buffer.size)
    (f : Single → Single) :
    Buffer.write? buffer position (f buffer[position]) =
      some (buffer.mapIdx fun q x ↦ if q = position then f x else x) := by
  rw [Buffer.write?, dif_pos h, Option.some_inj, eq_comm, Array.mapIdx_eq_iff]
  intro q
  by_cases hq : position = q
  · rw [← hq, Array.getElem?_set_self, Array.getElem?_eq_getElem h, Option.map_some, if_pos rfl]
  · simp only [Array.getElem?_set_ne h hq, Ne.symm hq, if_false, Option.map_id']

/-- Steps that each apply a function to every element apply the composed functions one after
another. The steps may rely on the size of the buffer, which none of them changes. -/
theorem foldlM_pure_mapIdx {m : Type → Type} [Monad m] [LawfulMonad m] {ι : Type} {items : List ι}
    {size : Nat} {step : Array Single → ι → m (Array Single)} {f : ι → Nat → Single → Single}
    (h : ∀ item ∈ items, ∀ buffer, buffer.size = size →
      step buffer item = pure (buffer.mapIdx (f item)))
    {buffer : Array Single} (hsize : buffer.size = size) :
    items.foldlM step buffer =
      pure (buffer.mapIdx fun q x ↦ items.foldl (fun x item ↦ f item q x) x) := by
  induction items generalizing buffer with
  | nil => simp [mapIdx_eq_self]
  | cons item items ih =>
    rw [List.foldlM_cons, h item (by simp) buffer hsize, pure_bind,
      ih (fun other hother ↦ h other (by simp [hother])) (by rw [Array.size_mapIdx, hsize]),
      Array.mapIdx_mapIdx]
    rfl

/-- The same for steps that may give nothing. -/
theorem foldlM_mapIdx {ι : Type} {items : List ι} {size : Nat}
    {step : Array Single → ι → Option (Array Single)} {f : ι → Nat → Single → Single}
    (h : ∀ item ∈ items, ∀ buffer, buffer.size = size →
      step buffer item = some (buffer.mapIdx (f item)))
    {buffer : Array Single} (hsize : buffer.size = size) :
    items.foldlM step buffer =
      some (buffer.mapIdx fun q x ↦ items.foldl (fun x item ↦ f item q x) x) :=
  foldlM_pure_mapIdx h hsize

/-- The same for steps that cannot fail. -/
theorem foldl_mapIdx {ι : Type} (items : List ι) (f : ι → Nat → Single → Single)
    (buffer : Array Single) :
    items.foldl (fun buffer item ↦ buffer.mapIdx (f item)) buffer =
      buffer.mapIdx fun q x ↦ items.foldl (fun x item ↦ f item q x) x := by
  induction items generalizing buffer with
  | nil => exact (mapIdx_eq_self fun _ _ ↦ rfl).symm
  | cons item items ih =>
    rw [List.foldl_cons, ih, Array.mapIdx_mapIdx]
    rfl

/-- Modifying one element is an elementwise computation. -/
theorem modify_eq_mapIdx (buffer : Array Single) (position : Nat) (f : Single → Single) :
    buffer.modify position f = buffer.mapIdx fun q x ↦ if q = position then f x else x := by
  rw [eq_comm, Array.mapIdx_eq_iff]
  intro q
  rw [Array.getElem?_modify]
  by_cases hq : position = q
  · simp only [hq, if_true]
  · simp only [hq, Ne.symm hq, if_false, Option.map_id']

/-- An elementwise computation on a part of a buffer that keeps everything outside of it is one on
the whole buffer. -/
theorem splice_mapIdx {buffer : Array Single} {start stop : Nat} {f : Nat → Single → Single}
    (hstart : start ≤ stop) (hstop : stop ≤ buffer.size) (hbefore : ∀ q < start, ∀ x, f q x = x)
    (hbehind : ∀ q, stop ≤ q → ∀ x, f q x = x) :
    buffer.extract 0 start ++ (buffer.extract start stop).mapIdx (fun q ↦ f (start + q)) ++
      buffer.extract stop = buffer.mapIdx f := by
  have hwhole : buffer =
      buffer.extract 0 start ++ buffer.extract start stop ++ buffer.extract stop := by
    rw [Array.extract_append_extract, Nat.zero_min, Nat.max_eq_right hstart,
      Array.extract_append_extract, Nat.zero_min, Nat.max_eq_right hstop, Array.extract_size]
  have hhead : (buffer.extract 0 start).size = start := by
    rw [Array.size_extract, Nat.min_eq_left (Nat.le_trans hstart hstop), Nat.sub_zero]
  have hfront : (buffer.extract 0 start ++ buffer.extract start stop).size = stop := by
    rw [Array.size_append, hhead, Array.size_extract, Nat.min_eq_left hstop,
      Nat.add_sub_of_le hstart]
  have hkept : (buffer.extract 0 start).mapIdx f = buffer.extract 0 start :=
    mapIdx_eq_self fun q hq ↦ hbefore q (hhead ▸ hq) _
  have hkept' : (buffer.extract stop).mapIdx (fun q ↦ f (q + stop)) = buffer.extract stop :=
    mapIdx_eq_self fun q _ ↦ hbehind _ (Nat.le_add_left _ _) _
  conv_rhs => rw [hwhole, Array.mapIdx_append, Array.mapIdx_append, hhead, hfront,
    hkept, hkept']
  simp only [Nat.add_comm]

/-- A loop over the indices of a vector is a loop over naturals. -/
theorem foldl_finRange {count : Nat} (f : Single → Nat → Single) (x : Single) :
    (List.finRange count).foldl (fun x (lane : Fin count) ↦ f x lane) x =
      (List.range count).foldl f x := by
  have hrange : (List.finRange count).map Fin.val = List.range count :=
    List.map_coe_finRange_eq_range
  rw [← hrange, List.foldl_map]

/-- A function that is the same as the identity for every item does nothing when it is iterated. -/
theorem foldl_eq_self {ι : Type} {items : List ι} {f : Single → ι → Single}
    (h : ∀ item ∈ items, ∀ x, f x item = x) (x : Single) : items.foldl f x = x := by
  induction items with
  | nil => rfl
  | cons item items ih =>
    rw [List.foldl_cons, h item (by simp), ih fun other hother ↦ h other (by simp [hother])]

/-! ### Windows -/

/-- A row ends where the next one starts. -/
theorem row_end_le {i rows : Nat} (hi : i < rows) (stride : Nat) :
    i * stride + stride ≤ rows * stride := by
  rw [← Nat.succ_mul]
  exact Nat.mul_le_mul_right stride hi

theorem offset_lt {i j rows stride : Nat} (hi : i < rows) (hj : j < stride) :
    i * stride + j < rows * stride :=
  Nat.lt_of_lt_of_le (Nat.add_lt_add_left hj _) (row_end_le hi stride)

/-- An offset determines its row and its column. -/
theorem offset_div_mod {stride j : Nat} (hj : j < stride) (i : Nat) :
    (i * stride + j) / stride = i ∧ (i * stride + j) % stride = j := by
  have hstride : 0 < stride := Nat.zero_lt_of_lt hj
  rw [Nat.add_comm]
  constructor
  · rw [Nat.add_mul_div_right _ _ hstride, Nat.div_eq_of_lt hj, Nat.zero_add]
  · rw [Nat.add_mul_mod_self_right, Nat.mod_eq_of_lt hj]

/-- A rectangle of a row-major buffer: the position of its first element, the distance between its
rows, and its extents. -/
structure Window where
  origin : Nat
  stride : Nat
  rows : Nat
  columns : Nat

namespace Window

/-- The position of the element at row `i` and column `j`. -/
def position (window : Window) (i j : Nat) : Nat := window.origin + (i * window.stride + j)

/-- The row that a position lies in. -/
def row (window : Window) (q : Nat) : Nat := (q - window.origin) / window.stride

/-- The column that a position lies in. -/
def column (window : Window) (q : Nat) : Nat := (q - window.origin) % window.stride

/-- Whether a position lies in the window. -/
def Holds (window : Window) (q : Nat) : Prop :=
  window.origin ≤ q ∧ window.row q < window.rows ∧ window.column q < window.columns

instance (window : Window) (q : Nat) : Decidable (window.Holds q) :=
  inferInstanceAs (Decidable (_ ∧ _ ∧ _))

/-- The function that applies `f` to the elements in the window, given their rows and columns, and
keeps all others. -/
def rewrite (window : Window) (f : Nat → Nat → Single → Single) (q : Nat) (x : Single) : Single :=
  if window.Holds q then f (window.row q) (window.column q) x else x

section Positions

variable {i j q : Nat} (window : Window)

theorem row_position (hj : j < window.stride) : window.row (window.position i j) = i := by
  unfold row position
  rw [Nat.add_sub_cancel_left]
  exact (offset_div_mod hj i).1

theorem column_position (hj : j < window.stride) : window.column (window.position i j) = j := by
  unfold column position
  rw [Nat.add_sub_cancel_left]
  exact (offset_div_mod hj i).2

/-- Every position from the origin on is the position of its row and its column. -/
theorem position_row_column (hq : window.origin ≤ q) :
    window.position (window.row q) (window.column q) = q := by
  have hdiv := Nat.div_add_mod (q - window.origin) window.stride
  unfold position row column
  rw [Nat.mul_comm, hdiv]
  omega

theorem holds_position_iff (hj : j < window.stride) :
    window.Holds (window.position i j) ↔ i < window.rows ∧ j < window.columns := by
  unfold Holds
  rw [row_position window hj, column_position window hj]
  exact and_iff_right (Nat.le_add_right _ _)

variable {window}

/-- A position in a window has a row and a column there. -/
theorem exists_position (h : window.Holds q) :
    ∃ i < window.rows, ∃ j < window.columns, q = window.position i j :=
  ⟨_, h.2.1, _, h.2.2, (position_row_column window h.1).symm⟩

theorem rewrite_of_not_holds {f : Nat → Nat → Single → Single} (h : ¬ window.Holds q)
    (x : Single) : window.rewrite f q x = x :=
  if_neg h

theorem rewrite_position (hi : i < window.rows) (hj : j < window.columns)
    (hle : window.columns ≤ window.stride) (f : Nat → Nat → Single → Single) (x : Single) :
    window.rewrite f (window.position i j) x = f i j x := by
  have hstride : j < window.stride := by omega
  rw [rewrite, if_pos ((holds_position_iff window hstride).mpr ⟨hi, hj⟩),
    row_position window hstride, column_position window hstride]

/-- Values that are computed from the elements before any of them is replaced are the values
computed in place. -/
theorem mapIdx_rewrite_getD (window : Window) (f : Nat → Nat → Single → Single)
    (buffer : Array Single) :
    buffer.mapIdx (window.rewrite fun i j _ ↦ f i j (buffer.getD (window.position i j) .zero)) =
      buffer.mapIdx (window.rewrite f) := by
  refine Array.mapIdx_eq_mapIdx_iff.mpr fun q hq ↦ ?_
  unfold rewrite
  split_ifs with hholds
  · simp only [position_row_column window hholds.1, Array.getD, dif_pos hq]
    rfl
  · rfl

/-- Only the elements of the window matter. -/
theorem rewrite_congr {f g : Nat → Nat → Single → Single}
    (h : ∀ i < window.rows, ∀ j < window.columns, ∀ x, f i j x = g i j x) (q : Nat)
    (x : Single) : window.rewrite f q x = window.rewrite g q x := by
  unfold rewrite
  split_ifs with hholds
  · exact h _ hholds.2.1 _ hholds.2.2 x
  · rfl

/-- The elements of one window, computed again and again, are computed independently. -/
theorem foldl_rewrite {ι : Type} (items : List ι) (f : ι → Nat → Nat → Single → Single)
    (q : Nat) (x : Single) :
    items.foldl (fun x item ↦ window.rewrite (f item) q x) x =
      window.rewrite (fun i j x ↦ items.foldl (fun x item ↦ f item i j x) x) q x := by
  unfold rewrite
  split_ifs
  · rfl
  · exact foldl_eq_self (fun _ _ _ ↦ rfl) x

end Positions

/-! ### Windows put together -/

section Composition

variable {origin stride rows columns : Nat}

/-- A window at a position that is given by any row and by one of its columns. -/
theorem rewrite_at {j : Nat} (hj : j < columns) (hle : columns ≤ stride)
    (f : Nat → Nat → Single → Single) (i : Nat) (x : Single) :
    (⟨origin, stride, rows, columns⟩ : Window).rewrite f (origin + (i * stride + j)) x =
      if i < rows then f i j x else x := by
  let window : Window := ⟨origin, stride, rows, columns⟩
  change window.rewrite f (window.position i j) x = _
  split_ifs with hi
  · exact rewrite_position hi hj hle f x
  · refine rewrite_of_not_holds (fun hholds ↦ hi ?_) x
    exact ((holds_position_iff window (Nat.lt_of_lt_of_le hj hle)).mp hholds).1

/-- A row and a column below the stride are determined by their offset. -/
theorem eq_of_offset_eq {i j i' j' : Nat} (hj : j < stride) (hj' : j' < stride)
    (h : i * stride + j = i' * stride + j') : i = i' ∧ j = j' := by
  have hrow := row_position ⟨0, stride, 0, 0⟩ (i := i) hj
  have hrow' := row_position ⟨0, stride, 0, 0⟩ (i := i') hj'
  have hcolumn := column_position ⟨0, stride, 0, 0⟩ (i := i) hj
  have hcolumn' := column_position ⟨0, stride, 0, 0⟩ (i := i') hj'
  simp only [position, h] at hrow hrow' hcolumn hcolumn'
  exact ⟨hrow.symm.trans hrow', hcolumn.symm.trans hcolumn'⟩

/-- A window keeps what lies before its origin. -/
theorem rewrite_of_lt {f : Nat → Nat → Single → Single} {q : Nat} (hq : q < origin)
    (x : Single) : (⟨origin, stride, rows, columns⟩ : Window).rewrite f q x = x :=
  rewrite_of_not_holds (fun hholds ↦ Nat.not_le_of_lt hq hholds.1) x

/-- A window keeps the positions that are none of its own. -/
theorem rewrite_of_forall_ne {f : Nat → Nat → Single → Single} {q : Nat}
    (hq : ∀ i < rows, ∀ j < columns, q ≠ origin + (i * stride + j)) (x : Single) :
    (⟨origin, stride, rows, columns⟩ : Window).rewrite f q x = x := by
  refine rewrite_of_not_holds (fun hholds ↦ ?_) x
  obtain ⟨i, hi, j, hj, hposition⟩ := exists_position hholds
  exact hq i hi j hj hposition

/-- A window of a part of a buffer is a window of the buffer. -/
theorem rewrite_shift (base : Nat) (f : Nat → Nat → Single → Single) (q : Nat) (x : Single) :
    (⟨base + origin, stride, rows, columns⟩ : Window).rewrite f (base + q) x =
      (⟨origin, stride, rows, columns⟩ : Window).rewrite f q x := by
  have hholds : (⟨base + origin, stride, rows, columns⟩ : Window).Holds (base + q) ↔
      (⟨origin, stride, rows, columns⟩ : Window).Holds q := by
    simp only [Holds, row, column, Nat.add_sub_add_left, Nat.add_le_add_iff_left]
  unfold rewrite
  refine if_congr hholds ?_ rfl
  simp only [row, column, Nat.add_sub_add_left]

/-- A window without columns keeps everything. -/
theorem rewrite_no_columns (f : Nat → Nat → Single → Single) (q : Nat) (x : Single) :
    (⟨origin, stride, rows, 0⟩ : Window).rewrite f q x = x :=
  rewrite_of_forall_ne (fun _ _ j hj ↦ absurd hj (Nat.not_lt_zero j)) x

/-- Two windows of the same columns, the second one directly below the first. -/
theorem rewrite_below {above below : Nat} (hle : columns ≤ stride)
    (f g : Nat → Nat → Single → Single) (q : Nat) (x : Single) :
    (⟨origin + above * stride, stride, below, columns⟩ : Window).rewrite g q
        ((⟨origin, stride, above, columns⟩ : Window).rewrite f q x) =
      (⟨origin, stride, above + below, columns⟩ : Window).rewrite
        (fun i j ↦ if i < above then f i j else g (i - above) j) q x := by
  by_cases hwhole : ∃ i < above + below, ∃ j < columns, q = origin + (i * stride + j)
  · obtain ⟨i, hi, j, hj, rfl⟩ := hwhole
    rw [rewrite_at hj hle, rewrite_at hj hle, if_pos hi]
    by_cases hrow : i < above
    · have hbefore : (i + 1) * stride ≤ above * stride := Nat.mul_le_mul_right stride hrow
      rw [Nat.succ_mul] at hbefore
      rw [if_pos hrow, if_pos hrow, rewrite_of_lt (by omega)]
    · have hq : origin + (i * stride + j) =
          origin + above * stride + ((i - above) * stride + j) := by
        conv_lhs => rw [← Nat.add_sub_of_le (Nat.le_of_not_lt hrow), Nat.add_mul]
        omega
      rw [if_neg hrow, if_neg hrow, hq, rewrite_at hj hle, if_pos (by omega)]
  · push Not at hwhole
    rw [rewrite_of_forall_ne hwhole, rewrite_of_forall_ne fun i hi j hj ↦
      hwhole i (Nat.lt_add_right below hi) j hj]
    refine rewrite_of_forall_ne (fun i hi j hj hq ↦ ?_) x
    refine hwhole (above + i) (Nat.add_lt_add_left hi above) j hj ?_
    rw [hq, Nat.add_mul]
    omega

/-- Two windows of the same rows, the second one directly to the right of the first. -/
theorem rewrite_beside {left right : Nat} (hle : left + right ≤ stride)
    (f g : Nat → Nat → Single → Single) (q : Nat) (x : Single) :
    (⟨origin + left, stride, rows, right⟩ : Window).rewrite g q
        ((⟨origin, stride, rows, left⟩ : Window).rewrite f q x) =
      (⟨origin, stride, rows, left + right⟩ : Window).rewrite
        (fun i j ↦ if j < left then f i j else g i (j - left)) q x := by
  by_cases hwhole : ∃ i < rows, ∃ j < left + right, q = origin + (i * stride + j)
  · obtain ⟨i, hi, j, hj, rfl⟩ := hwhole
    rw [rewrite_at hj hle, if_pos hi]
    by_cases hcolumn : j < left
    · rw [if_pos hcolumn, rewrite_at hcolumn (by omega), if_pos hi]
      refine rewrite_of_forall_ne (fun i' _ j' hj' hq ↦ ?_) _
      have hsame := eq_of_offset_eq (show j < stride by omega) (show left + j' < stride by omega)
        (show i * stride + j = i' * stride + (left + j') by omega)
      omega
    · have hleft : (⟨origin, stride, rows, left⟩ : Window).rewrite f (origin + (i * stride + j)) x =
          x := by
        refine rewrite_of_forall_ne (fun i' _ j' hj' hq ↦ ?_) x
        have hsame := eq_of_offset_eq (show j < stride by omega) (show j' < stride by omega)
          (show i * stride + j = i' * stride + j' by omega)
        omega
      have hq : origin + (i * stride + j) = origin + left + (i * stride + (j - left)) := by omega
      rw [if_neg hcolumn, hleft, hq, rewrite_at (by omega) (by omega), if_pos hi]
  · push Not at hwhole
    rw [rewrite_of_forall_ne hwhole, rewrite_of_forall_ne fun i hi j hj ↦
      hwhole i hi j (Nat.lt_add_right right hj)]
    refine rewrite_of_forall_ne (fun i hi j hj hq ↦ ?_) x
    exact hwhole i hi (left + j) (Nat.add_lt_add_left hj left) (by omega)

/-- Rows that are computed one below the other make a window. -/
theorem foldl_rows (hle : columns ≤ stride) (f : Nat → Nat → Single → Single) (rows q : Nat)
    (x : Single) :
    (List.range rows).foldl (fun x i ↦
        (⟨origin + i * stride, stride, 1, columns⟩ : Window).rewrite (fun _ ↦ f i) q x) x =
      (⟨origin, stride, rows, columns⟩ : Window).rewrite f q x := by
  induction rows with
  | zero => exact (rewrite_of_forall_ne (fun i hi ↦ absurd hi (Nat.not_lt_zero i)) x).symm
  | succ rows ih =>
    rw [List.range_succ, List.foldl_append, ih, List.foldl_cons, List.foldl_nil,
      rewrite_below hle]
    refine rewrite_congr (fun i hi j _ x ↦ ?_) q x
    dsimp only at hi ⊢
    split_ifs with hrow
    · rfl
    · rw [show i = rows by omega]

/-- Blocks of columns that are computed side by side make a window. -/
theorem foldl_blocks {width : Nat} (f : Nat → Nat → Nat → Single → Single) {blocks : Nat}
    (hle : blocks * width ≤ stride) (q : Nat) (x : Single) :
    (List.range blocks).foldl (fun x block ↦
        (⟨origin + block * width, stride, rows, width⟩ : Window).rewrite (f block) q x) x =
      (⟨origin, stride, rows, blocks * width⟩ : Window).rewrite
        (fun i j ↦ f (j / width) i (j % width)) q x := by
  induction blocks with
  | zero =>
    rw [Nat.zero_mul, rewrite_no_columns]
    rfl
  | succ blocks ih =>
    rw [Nat.succ_mul] at hle
    rw [List.range_succ, List.foldl_append, ih (by omega), List.foldl_cons, List.foldl_nil,
      rewrite_beside (by omega), Nat.succ_mul]
    refine rewrite_congr (fun i _ j hj x ↦ ?_) q x
    dsimp only at hj ⊢
    split_ifs with hcolumn
    · rfl
    · obtain ⟨rest, rfl⟩ := Nat.exists_eq_add_of_le (Nat.le_of_not_lt hcolumn)
      have hrest : rest < width := by omega
      obtain ⟨hdiv, hmod⟩ := offset_div_mod hrest blocks
      rw [Nat.add_sub_cancel_left, hdiv, hmod]

/-- A window of one element. -/
theorem rewrite_single (hstride : 0 < stride) (f : Nat → Nat → Single → Single) (q : Nat)
    (x : Single) :
    (⟨origin, stride, 1, 1⟩ : Window).rewrite f q x = if q = origin then f 0 0 x else x := by
  split_ifs with hq
  · have hat : (⟨origin, stride, 1, 1⟩ : Window).rewrite f (origin + (0 * stride + 0)) x = _ :=
      rewrite_at Nat.one_pos hstride f 0 x
    rw [Nat.zero_mul, Nat.add_zero, if_pos Nat.one_pos] at hat
    rw [hq]
    exact hat
  · refine rewrite_of_forall_ne (fun i hi j hj hposition ↦ hq ?_) x
    rw [hposition, Nat.lt_one_iff.mp hi, Nat.lt_one_iff.mp hj, Nat.zero_mul]
    rfl

/-- Elements that are computed one after another make a row. -/
theorem foldl_elements (hle : columns ≤ stride) (f : Nat → Single → Single) (q : Nat)
    (x : Single) :
    (List.range columns).foldl (fun x j ↦ if q = origin + j then f j x else x) x =
      (⟨origin, stride, 1, columns⟩ : Window).rewrite (fun _ ↦ f) q x := by
  rcases Nat.eq_zero_or_pos stride with rfl | hstride
  · rw [Nat.le_zero.mp hle]
    exact (rewrite_no_columns _ q x).symm
  · have hblocks : (List.range columns).foldl (fun x j ↦
        (⟨origin + j * 1, stride, 1, 1⟩ : Window).rewrite (fun _ _ ↦ f j) q x) x = _ :=
      foldl_blocks (fun j _ _ ↦ f j) (by omega) q x
    simp only [rewrite_single hstride, Nat.mul_one, Nat.div_one] at hblocks
    exact hblocks

end Composition

end Window

end PanelGemm
