import Mathlib.Order.Monotone.Basic
import PanelGemm.Proofs.Arithmetic
import PanelGemm.Proofs.Tiling.Cover
import PanelGemm.Threads.Workers

/-!
# The spans of the workers

Consecutive workers get consecutive spans (`Span.stop_share`), the first of which starts with the
first item and the last of which ends with the last one. Their lengths differ by at most one, and
every worker gets an item exactly if there are enough of them (`Span.share_splits_evenly`). No span
goes beyond the items, so words that count the items count the bounds of all spans
(`Span.share?_eq`). The spans of the workers are therefore the list of tiles cut into pieces
(`tileSpans_flatten`), and no piece is empty as long as there are no more workers than tiles.
-/

set_option autoImplicit false
set_option relaxedAutoImplicit false

namespace PanelGemm

namespace Span

variable {worker workers total : Nat}

theorem start_share_zero : (share 0 workers total).start = 0 := by
  simp [share]

/-- The span of a worker ends where that of the next worker starts. -/
theorem stop_share :
    (share worker workers total).stop = (share (worker + 1) workers total).start := by
  unfold share
  dsimp only
  rw [Nat.succ_mul]
  split_ifs with hextra <;> omega

theorem start_le_stop : (share worker workers total).start ≤ (share worker workers total).stop :=
  Nat.le_add_right _ _

/-- The span after the last worker's would start behind the last item. -/
theorem start_share_self (hworkers : 0 < workers) :
    (share workers workers total).start = total := by
  have hdiv := Nat.div_add_mod total workers
  have hmod := Nat.mod_lt total hworkers
  unfold share
  dsimp only
  rw [Nat.min_eq_right (Nat.le_of_lt hmod)]
  exact hdiv

theorem monotone_start (workers total : Nat) :
    Monotone fun worker ↦ (share worker workers total).start :=
  monotone_nat_of_le_succ fun worker ↦ by
    rw [← stop_share]
    exact start_le_stop

/-- The span of a worker ends within the items. -/
theorem stop_le (hworker : worker < workers) : (share worker workers total).stop ≤ total := by
  calc (share worker workers total).stop = (share (worker + 1) workers total).start := stop_share
    _ ≤ (share workers workers total).start :=
      monotone_start workers total (Nat.succ_le_of_lt hworker)
    _ = total := start_share_self (Nat.zero_lt_of_lt hworker)

/-- With enough items every worker gets one. -/
theorem start_lt_stop (hworkers : 0 < workers) (hle : workers ≤ total) :
    (share worker workers total).start < (share worker workers total).stop :=
  Nat.lt_add_of_pos_right (Nat.add_pos_left (Nat.div_pos hle hworkers) _)

/-- The spans of the first workers are the items before the span of the next one. -/
theorem flatten_slices {α : Type} (items : List α) (workers count : Nat) :
    ((List.range count).map fun worker ↦
      (share worker workers items.length).slice items).flatten =
        items.take (share count workers items.length).start := by
  induction count with
  | zero => rw [start_share_zero, List.take_zero, List.range_zero, List.map_nil, List.flatten_nil]
  | succ count ih =>
    rw [List.range_succ, List.map_append, List.flatten_append, ih, ← stop_share, List.map_singleton,
      List.flatten_singleton, slice, ← List.take_add, Nat.add_sub_of_le start_le_stop]

/-! ### An even split -/

/-- The number of items in a span. -/
def length (span : Span) : Nat := span.stop - span.start

/-- The first workers, as many as items are left over, get one item more than the others. -/
theorem length_share : (share worker workers total).length =
    total / workers + if worker < total % workers then 1 else 0 := by
  unfold length share
  exact Nat.add_sub_cancel_left _ _

theorem antitone_length (workers total : Nat) :
    Antitone fun worker ↦ (share worker workers total).length := by
  intro worker other hle
  simp only [length_share]
  split_ifs <;> omega

theorem length_le_length_add_one (worker other : Nat) :
    (share worker workers total).length ≤ (share other workers total).length + 1 := by
  rw [length_share, length_share]
  split_ifs <;> omega

/-- The last worker gets none of the items that are left over, so it has an item only if there is
one for every worker. -/
theorem le_of_length_pos (hworkers : 0 < workers)
    (h : 0 < (share (workers - 1) workers total).length) : workers ≤ total := by
  have hmod := Nat.mod_lt total hworkers
  rw [length_share, if_neg (by omega), Nat.add_zero] at h
  exact (Nat.div_pos_iff.mp h).2

/-- Consecutive spans of `0 .. total`, one for each worker. None is longer than one before it, and
the lengths of any two differ by at most one. -/
structure SplitEvenly (spans : Nat → Span) (workers total : Nat) : Prop where
  first : (spans 0).start = 0
  next : ∀ worker, worker + 1 < workers → (spans (worker + 1)).start = (spans worker).stop
  last : (spans (workers - 1)).stop = total
  forward : ∀ worker < workers, (spans worker).start ≤ (spans worker).stop
  descending : ∀ worker other, worker ≤ other → other < workers →
    (spans other).length ≤ (spans worker).length
  even : ∀ worker < workers, ∀ other < workers,
    (spans worker).length ≤ (spans other).length + 1

theorem splitEvenly_share (hworkers : 0 < workers) (total : Nat) :
    SplitEvenly (fun worker ↦ share worker workers total) workers total where
  first := start_share_zero
  next := fun _ _ ↦ stop_share.symm
  last := by
    rw [stop_share, Nat.sub_add_cancel hworkers]
    exact start_share_self hworkers
  forward := fun _ _ ↦ start_le_stop
  descending := fun _ _ hle _ ↦ antitone_length workers total hle
  even := fun worker _ other _ ↦ length_le_length_add_one worker other

/-- The span of a worker within the number of workers is computed as it is. -/
theorem share?_eq {arithmetic : Arithmetic} (htotal : total < Word.limit)
    (hworker : worker < workers) :
    share? arithmetic worker workers total = .ok (share worker workers total) := by
  have hworkers : panicUnless (workers ≠ 0) = .ok () :=
    if_pos (Nat.ne_of_gt (Nat.zero_lt_of_lt hworker))
  have hstop : (share worker workers total).start +
      (total / workers + if worker < total % workers then 1 else 0) ≤ total := stop_le hworker
  have hstart : worker * (total / workers) + min worker (total % workers) ≤ total :=
    Nat.le_trans (Nat.le_add_right _ _) hstop
  rw [share?, hworkers, ok_bind]
  refine bind_eq_ok.mpr ⟨_, Arithmetic.word_of_lt (Nat.lt_of_le_of_lt hstart htotal), ?_⟩
  exact bind_eq_ok.mpr ⟨_, Arithmetic.word_of_lt (Nat.lt_of_le_of_lt hstop htotal), rfl⟩

/-- The items of a span within a list are a part of it. -/
theorem slice?_share {α : Type} {items : List α} (hworker : worker < workers) :
    (share worker workers items.length).slice? items =
      .ok ((share worker workers items.length).slice items) := by
  have hinside : panicUnless ((share worker workers items.length).start ≤
      (share worker workers items.length).stop ∧
        (share worker workers items.length).stop ≤ items.length) = .ok () :=
    if_pos ⟨start_le_stop, stop_le hworker⟩
  rw [slice?, hinside]
  rfl

theorem mayPanic_share? (arithmetic : Arithmetic) (worker workers total : Nat) :
    MayPanic (share? arithmetic worker workers total) fun _ ↦ True :=
  (mayPanic_panicUnless _).bind fun _ _ ↦ (Arithmetic.mayPanic_word _ _).bind fun _ _ ↦
    (Arithmetic.mayPanic_word _ _).bind fun _ _ ↦ mayPanic_ok trivial

theorem mayPanic_slice? {α : Type} (span : Span) (items : List α) :
    MayPanic (span.slice? items) (· = span.slice items) :=
  (mayPanic_panicUnless _).bind fun _ _ ↦ mayPanic_ok rfl

/-- Any number of items is split evenly among any number of workers, as long as there is one. Every
worker gets an item exactly if there are enough of them. With a machine word for the number of items
the spans are those that are computed, and the span of a thread that has its place among the workers
is one of them, a range within the items. -/
theorem share_splits_evenly (arithmetic : Arithmetic) (total workers : Nat)
    (hworkers : 0 < workers) :
    ∃ spans : Nat → Span,
      SplitEvenly spans workers total ∧
      ((∀ worker < workers, (spans worker).start < (spans worker).stop) ↔ workers ≤ total) ∧
      (total < Word.limit →
        (∀ worker < workers, share? arithmetic worker workers total = .ok (spans worker)) ∧
        ∀ thread slot, ThreadSlot.make thread workers = .ok slot →
          slot.span arithmetic total = .ok (spans thread) ∧
            (spans thread).start ≤ (spans thread).stop ∧ (spans thread).stop ≤ total) := by
  refine ⟨fun worker ↦ share worker workers total, splitEvenly_share hworkers total,
    ⟨fun h ↦ ?_, fun hle worker _ ↦ ?_⟩,
    fun htotal ↦ ⟨fun worker hworker ↦ share?_eq htotal hworker, fun thread slot hslot ↦ ?_⟩⟩
  · have hlast := h (workers - 1) (Nat.sub_lt hworkers Nat.one_pos)
    exact le_of_length_pos hworkers (Nat.sub_pos_of_lt hlast)
  · exact start_lt_stop hworkers hle
  · unfold ThreadSlot.make at hslot
    split_ifs at hslot with hwithin
    cases hslot
    exact ⟨share?_eq htotal hwithin, start_le_stop, stop_le hwithin⟩

/-- Ten items among four workers: two of them get three items and two get two. -/
theorem share_splits_evenly_leftover : ∃ spans : Nat → Span, SplitEvenly spans 4 10 ∧
    (∀ worker < 4, (spans worker).start < (spans worker).stop) ∧
    ∀ slot, ThreadSlot.make 3 4 = .ok slot → slot.span .wrapping 10 = .ok (spans 3) := by
  obtain ⟨spans, hsplit, hitems, hcomputed⟩ :=
    share_splits_evenly .wrapping 10 4 (by decide)
  exact ⟨spans, hsplit, hitems.mpr (by decide),
    fun slot h ↦ ((hcomputed (by decide)).2 3 slot h).1⟩

example : (List.range 4).map (fun worker ↦ share worker 4 10) =
    [⟨0, 3⟩, ⟨3, 6⟩, ⟨6, 8⟩, ⟨8, 10⟩] := by
  decide

end Span

namespace Workers

variable {workers : Nat} {tiles : List Tile}

/-- The spans of the workers make up the list of tiles. -/
theorem tileSpans_flatten (hworkers : 0 < workers) (tiles : List Tile) :
    (tileSpans workers tiles).flatten = tiles := by
  have hflatten := Span.flatten_slices tiles workers workers
  rw [Span.start_share_self hworkers, List.take_length] at hflatten
  exact hflatten

/-- A single worker has all tiles. -/
theorem tileSpans_one (tiles : List Tile) : tileSpans 1 tiles = [tiles] := by
  have hflatten : [tilesOf 1 tiles 0].flatten = tiles := tileSpans_flatten Nat.one_pos tiles
  rw [List.flatten_singleton] at hflatten
  exact congrArg (fun span ↦ [span]) hflatten

/-- There are as many spans as workers. -/
theorem tileSpans_ne_nil (hworkers : 0 < workers) (tiles : List Tile) :
    tileSpans workers tiles ≠ [] := by
  rw [tileSpans, Ne, List.map_eq_nil_iff, List.range_eq_nil]
  exact Nat.ne_of_gt hworkers

/-- With enough tiles every worker gets one. -/
theorem ne_nil_of_mem_tileSpans (hworkers : 0 < workers) (hle : workers ≤ tiles.length)
    {span : List Tile} (h : span ∈ tileSpans workers tiles) : span ≠ [] := by
  obtain ⟨worker, hworker, rfl⟩ := List.mem_map.mp h
  have hlt : worker < workers := List.mem_range.mp hworker
  have hstart : (Span.share worker workers tiles.length).start <
      (Span.share worker workers tiles.length).stop := Span.start_lt_stop hworkers hle
  have hstop : (Span.share worker workers tiles.length).stop ≤ tiles.length := Span.stop_le hlt
  intro hnil
  have hlength := congrArg List.length hnil
  rw [tilesOf, Span.slice, List.length_take, List.length_drop, List.length_nil] at hlength
  omega

/-- There is a worker, and no more of them than tiles unless there is no tile. -/
theorem count_pos (threads : Nat) (tiles : List Tile) : 0 < count threads tiles :=
  Nat.le_max_right _ _

theorem count_le {threads : Nat} (h : count threads tiles ≠ 1) :
    count threads tiles ≤ tiles.length := by
  unfold count at h ⊢
  omega

end Workers

end PanelGemm
