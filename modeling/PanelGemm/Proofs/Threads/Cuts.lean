import PanelGemm.Proofs.Threads.Spans

/-!
# Cuts and counts

Where the output is cut for the workers, and what their results come to. As long as words count the
elements in front of the rows where it is cut, the bands are the slices of the output between these
rows (`Workers.bands_eq`), whatever the arithmetic.

The counts of the workers are added up one after another as words, which comes to the word of their
sum (`Workers.calls_join`). Only if there is such a word the first failure is reported, and if there
is none the sum (`Workers.result_join`).
-/

set_option autoImplicit false
set_option relaxedAutoImplicit false

namespace PanelGemm

namespace Workers

variable {arithmetic : Arithmetic} {output : Array Single} {size stride row : Nat}
  {rows : List Nat} {spans : List (List Tile)}

/-! ### Where the output is cut -/

/-- The parts of the output from an offset on that end in front of the given rows or with the
output, and what is left behind them. -/
def slices (output : Array Single) (stride offset : Nat) : List Nat → List (Array Single)
  | [] => [output.extract offset]
  | row :: rows => output.extract offset (min (row * stride) output.size) ::
      slices output stride (min (row * stride) output.size) rows

theorem cut_eq_slices (output : Array Single) (stride offset : Nat) (rows : List Nat) :
    cut output offset (rows.map fun row ↦ min (row * stride) output.size) =
      slices output stride offset rows := by
  induction rows generalizing offset with
  | nil => rfl
  | cons row rows ih => rw [List.map_cons, cut, slices, ih]

/-- Ascending rows that words count the elements in front of are cut where they start. -/
theorem splits_eq (arithmetic : Arithmetic) (size : Nat)
    (hascending : (row :: rows).Pairwise (· ≤ ·))
    (hwords : ∀ row ∈ rows, row * stride < Word.limit) :
    splits arithmetic size stride (min (row * stride) size) rows =
      .ok (rows.map fun row ↦ min (row * stride) size) := by
  induction rows generalizing row with
  | nil => rfl
  | cons next rows ih =>
    obtain ⟨hword, hwords⟩ := List.forall_mem_cons.mp hwords
    obtain ⟨hle, hrest⟩ := List.pairwise_cons.mp hascending
    have hstart := Nat.mul_le_mul_right stride (hle next List.mem_cons_self)
    have hforward : panicUnless (min (row * stride) size ≤ min (next * stride) size) = .ok () :=
      if_pos (by omega)
    rw [splits, Arithmetic.word_of_lt hword, ok_bind]
    refine bind_eq_ok.mpr ⟨(), hforward, bind_eq_ok.mpr ⟨_, ih hrest hwords, rfl⟩⟩

/-- The places in front of the spans but the first, no farther than the end. -/
def starts (size stride : Nat) (spans : List (List Tile)) : List Nat :=
  ((spans.drop 1).map firstRow).map fun row ↦ min (row * stride) size

/-- Ascending spans that words count the elements in front of are cut apart where they start. -/
theorem splits_spans (arithmetic : Arithmetic) (size : Nat)
    (hascending : (spans.map firstRow).Pairwise (· ≤ ·))
    (hwords : ∀ span ∈ spans, firstRow span * stride < Word.limit) :
    splits arithmetic size stride 0 ((spans.drop 1).map firstRow) =
      .ok (starts size stride spans) := by
  have hrows : (0 :: (spans.drop 1).map firstRow).Pairwise (· ≤ ·) := by
    refine List.pairwise_cons.mpr ⟨fun _ _ ↦ Nat.zero_le _, ?_⟩
    rw [List.map_drop]
    exact hascending.sublist (List.drop_sublist _ _)
  have hstarts : ∀ row ∈ (spans.drop 1).map firstRow, row * stride < Word.limit := by
    intro row hrow
    obtain ⟨span, hspan, rfl⟩ := List.mem_map.mp hrow
    exact hwords span (List.mem_of_mem_drop hspan)
  have hsplits := splits_eq arithmetic size hrows hstarts
  rwa [Nat.zero_mul, Nat.zero_min] at hsplits

/-- The bands of the workers are the slices between the rows where their spans start. -/
theorem bands_eq (arithmetic : Arithmetic) (output : Array Single)
    (hascending : (spans.map firstRow).Pairwise (· ≤ ·))
    (hwords : ∀ span ∈ spans, firstRow span * stride < Word.limit) :
    bands arithmetic output stride spans =
      .ok (slices output stride 0 ((spans.drop 1).map firstRow)) := by
  rw [bands, splits_spans arithmetic output.size hascending hwords, ← cut_eq_slices]
  rfl

/-- A stack that is not empty starts with its first tile. -/
theorem firstRow_of_stacked {row stop : Nat} {span rest : List Tile} (hspan : span ≠ [])
    (hstacked : Stacked row (span ++ rest) stop) : firstRow span = row := by
  cases span with
  | nil => exact absurd rfl hspan
  | cons tile span => exact hstacked.1

/-- A span that is not empty starts with one of its tiles. -/
theorem exists_firstRow {span : List Tile} (hspan : span ≠ []) :
    ∃ tile ∈ span, firstRow span = tile.row := by
  cases span with
  | nil => exact absurd rfl hspan
  | cons tile span => exact ⟨tile, List.mem_cons_self, rfl⟩

/-- Words count the elements in front of spans if they count those in front of the tiles. -/
theorem firstRow_mul_lt (hnonempty : ∀ span ∈ spans, span ≠ [])
    (hwords : ∀ tile ∈ spans.flatten, tile.row * stride < Word.limit) :
    ∀ span ∈ spans, firstRow span * stride < Word.limit := by
  intro span hspan
  obtain ⟨tile, htile, hrow⟩ := exists_firstRow (hnonempty span hspan)
  rw [hrow]
  exact hwords tile (List.mem_flatten.mpr ⟨span, hspan, htile⟩)

/-- Spans that make up a stack start one below the other. -/
theorem pairwise_firstRow {stop : Nat} (hnonempty : ∀ span ∈ spans, span ≠ [])
    (hstacked : Stacked row spans.flatten stop) : (spans.map firstRow).Pairwise (· ≤ ·) := by
  induction spans generalizing row with
  | nil => exact List.Pairwise.nil
  | cons span spans ih =>
    have hfirst := firstRow_of_stacked (hnonempty span List.mem_cons_self) hstacked
    rw [List.flatten_cons] at hstacked
    obtain ⟨middle, hspan, hrest⟩ := Stacked.append_iff.mp hstacked
    have hothers := fun other hother ↦ hnonempty other (List.mem_cons_of_mem span hother)
    refine List.pairwise_cons.mpr ⟨fun other hother ↦ ?_, ih hothers hrest⟩
    obtain ⟨next, hnext, rfl⟩ := List.mem_map.mp hother
    obtain ⟨tile, htile, hrow⟩ := exists_firstRow (hothers next hnext)
    have hbelow := (hrest.bounds.2 tile (List.mem_flatten.mpr ⟨next, hnext, htile⟩)).1
    rw [hfirst, hrow]
    exact Nat.le_trans hspan.bounds.1 hbelow

/-! ### What the results come to -/

/-- The sum of the counts of the workers that succeed. -/
def total (results : List (Except Failure Nat)) : Nat := (results.filterMap Except.toOption).sum

/-- The failure of the first worker that fails, from a given number on, as it is reported. -/
def firstFailure (worker : Nat) : List (Except Failure Nat) → Option Failure
  | [] => none
  | .ok _ :: results => firstFailure (worker + 1) results
  | .error failure :: _ => some (report worker failure)

/-- The sum of the counts of all workers from a given number on, or the first failure. -/
def joined (worker : Nat) (results : List (Except Failure Nat)) : Except Failure Nat :=
  match firstFailure worker results with
  | some failure => .error failure
  | none => .ok (total results)

theorem total_cons_ok (calls : Nat) (results : List (Except Failure Nat)) :
    total (.ok calls :: results) = calls + total results :=
  List.sum_cons

theorem total_cons_error (failure : Failure) (results : List (Except Failure Nat)) :
    total (.error failure :: results) = total results :=
  rfl

theorem total_map_ok (counts : List Nat) : total (counts.map .ok) = counts.sum := by
  induction counts with
  | nil => rfl
  | cons calls counts ih => rw [List.map_cons, total_cons_ok, ih, List.sum_cons]

/-- The counts are added up to the word of their sum. -/
theorem calls_join {tally : Tally} {before : Nat} (worker : Nat)
    (results : List (Except Failure Nat)) (h : tally.calls = arithmetic.word before) :
    (join arithmetic tally worker results).calls = arithmetic.word (before + total results) := by
  induction results generalizing tally before worker with
  | nil => exact h
  | cons result results ih =>
    rw [join]
    cases result with
    | ok calls =>
      rw [total_cons_ok, ← Nat.add_assoc]
      refine ih (worker + 1) ?_
      change (do arithmetic.word ((← tally.calls) + calls)) = _
      rw [h, Arithmetic.word_add]
    | error failure =>
      rw [total_cons_error]
      exact ih (worker + 1) h

/-- The first failure is kept. -/
theorem failure_join (arithmetic : Arithmetic) (tally : Tally) (worker : Nat)
    (results : List (Except Failure Nat)) :
    (join arithmetic tally worker results).failure? =
      tally.failure?.or (firstFailure worker results) := by
  induction results generalizing tally worker with
  | nil => exact Option.or_none.symm
  | cons result results ih =>
    rw [join, ih]
    cases result with
    | ok calls => rfl
    | error failure =>
      have hkept : (tally.failure? <|> some (report worker failure)) =
          tally.failure?.or (some (report worker failure)) := by
        rw [Option.orElse_eq_orElse, Option.orElse_eq_or]
      change Option.or (tally.failure? <|> some (report worker failure)) _ = _
      rw [hkept, Option.or_assoc]
      rfl

/-- The result of joining all workers: the word of the sum has to be had, whether or not a worker
fails, and then it or the first failure is the result. -/
theorem result_join (arithmetic : Arithmetic) (results : List (Except Failure Nat)) :
    (join arithmetic .start 0 results).result = arithmetic.word (total results) >>= fun calls ↦
      match firstFailure 0 results with
      | some failure => .error failure
      | none => .ok calls := by
  have hzero : Tally.start.calls = arithmetic.word 0 :=
    (Arithmetic.word_of_lt Word.limit_pos).symm
  rw [Tally.result, calls_join 0 results hzero, failure_join, Nat.zero_add]
  rfl

/-- With a word for the sum of the counts, the result is this sum or the first failure. -/
theorem result_join_of_lt (arithmetic : Arithmetic) {results : List (Except Failure Nat)}
    (h : total results < Word.limit) :
    (join arithmetic .start 0 results).result = joined 0 results := by
  rw [result_join, Arithmetic.word_of_lt h]
  rfl

theorem joined_cons_ok (calls worker : Nat) (results : List (Except Failure Nat)) :
    joined worker (.ok calls :: results) = (calls + ·) <$> joined (worker + 1) results := by
  rw [joined, joined, total_cons_ok, firstFailure]
  cases firstFailure (worker + 1) results <;> rfl

/-- The counts of workers that all succeed add up. -/
theorem joined_map_ok (counts : List Nat) (worker : Nat) :
    joined worker (counts.map .ok) = .ok counts.sum := by
  induction counts generalizing worker with
  | nil => rfl
  | cons calls counts ih =>
    rw [List.map_cons, joined_cons_ok, ih, List.sum_cons]
    rfl

/-- What is said of a failure does not change the sum of the counts. -/
theorem total_mapError (f : Failure → Failure) (results : List (Except Failure Nat)) :
    total (results.map fun result ↦ result.mapError f) = total results := by
  induction results with
  | nil => rfl
  | cons result results ih =>
    rw [List.map_cons]
    cases result with
    | ok calls => exact (total_cons_ok _ _).trans (ih ▸ (total_cons_ok calls results).symm)
    | error failure => exact ih

end Workers

end PanelGemm
