import PanelGemm.Proofs.Dispatch.InTurn

/-!
# Which dense calls succeed

A dense call checks its arguments one after another and computes only what has passed all checks. A
`Condition` is what one of these checks is about, and `Accepts` how a call ends that makes a list of
conditions. A check in front of a call adds its condition to those of the call (`accepts_bind`), so
the conditions of a call are found by following its checks. Behind them nothing is left that could
fail: operands without gaps between their rows are well shaped in both orientations, also without
rows, products or columns, and the engine for the level of a panel takes the panel
(`Dense.calls_accept`).

The sizes of the operands are products of two extents, which have to be words to be told from the
sizes of the buffers. With checked arithmetic a product that is no word is a panic in front of
everything that writes; with wrapping arithmetic it may be taken for another size
(`Dense.calls_accept_past_words`).
-/

set_option autoImplicit false
set_option relaxedAutoImplicit false

namespace PanelGemm

/-! ### Conditions -/

/-- Something that a call demands of its arguments, and the refusal of a call that does not find
it. -/
structure Condition where
  met : Bool
  refusal : Refusal

/-- The refusal for the first condition that is not met. -/
def Condition.firstRefusal : List Condition → Option Refusal
  | [] => none
  | condition :: rest => if condition.met then firstRefusal rest else some condition.refusal

/-- There is no refusal if all conditions are met. -/
theorem Condition.firstRefusal_eq_none {conditions : List Condition} :
    firstRefusal conditions = none ↔ ∀ condition ∈ conditions, condition.met = true := by
  induction conditions with
  | nil => simp [firstRefusal]
  | cons condition conditions ih =>
    cases h : condition.met with
    | false => simp [firstRefusal, h]
    | true => simp [firstRefusal, h, ih]

/-- A check of a condition. It has a value of a certain kind for everything that meets the
condition, and it fails for everything else, with a refusal if words count what it is about. -/
structure Condition.CheckedBy {α : Type} (condition : Condition) (counted : Prop)
    (check : Except Failure α) (kind : α → Prop) : Prop where
  unmet : condition.met = false → ∃ failure, check = .error failure ∧
    (counted → failure = .refused condition.refusal)
  met : condition.met = true → ∃ value, check = .ok value ∧ kind value

/-- How a call ends that makes conditions. It succeeds if all of them are met. Otherwise the output
is as before, and if words count what the call is about it is refused for the first condition that
is not met. -/
structure Accepts (outcome : Outcome RunStats) (conditions : List Condition) (counted : Prop)
    (output : Array Single) : Prop where
  succeeds : (∃ stats, outcome.result = .ok stats) ↔
    ∀ condition ∈ conditions, condition.met = true
  kept : ∀ failure, outcome.result = .error failure → outcome.output = output
  refused : counted → ∀ failure, outcome.result = .error failure →
    ∃ refusal, Condition.firstRefusal conditions = some refusal ∧ failure = .refused refusal

section Conditions

variable {α β : Type} {condition : Condition} {conditions : List Condition} {counted : Prop}
  {outcome : Outcome RunStats} {output : Array Single}

theorem Condition.CheckedBy.mono {check : Except Failure α} {kind kind' : α → Prop}
    (h : condition.CheckedBy counted check kind) (hkind : ∀ value, kind value → kind' value) :
    condition.CheckedBy counted check kind' :=
  ⟨h.unmet, fun hmet ↦ (h.met hmet).imp fun value ↦ And.imp_right (hkind value)⟩

/-- A check that is made by a decision. -/
theorem Condition.checkedBy_ite (p : Prop) [Decidable p] (value : α) (refusal : Refusal) :
    CheckedBy ⟨p, refusal⟩ counted (if p then .ok value else .error (.refused refusal))
      fun other ↦ p ∧ other = value where
  unmet := fun h ↦ ⟨_, if_neg (of_decide_eq_false h), fun _ ↦ rfl⟩
  met := fun h ↦ ⟨value, if_pos (of_decide_eq_true h), of_decide_eq_true h, rfl⟩

/-- A call that succeeds makes no conditions. -/
theorem accepts_of_ok {stats : RunStats} (h : outcome.result = .ok stats) :
    Accepts outcome [] counted output where
  succeeds := iff_of_true ⟨stats, h⟩ nofun
  kept := fun _ hfailure ↦ nomatch h.symm.trans hfailure
  refused := fun _ _ hfailure ↦ nomatch h.symm.trans hfailure

/-- A call that does not meet its first condition. -/
theorem accepts_of_unmet (h : condition.met = false) {failure : Failure}
    (hrefused : counted → failure = .refused condition.refusal) :
    Accepts ⟨.error failure, output⟩ (condition :: conditions) counted output where
  succeeds := by
    refine iff_of_false nofun fun hall ↦ ?_
    exact absurd (hall condition List.mem_cons_self) (by simp [h])
  kept := fun _ _ ↦ rfl
  refused := by
    rintro hcounted _ ⟨⟩
    exact ⟨condition.refusal, by simp [Condition.firstRefusal, h], hrefused hcounted⟩

/-- One more condition, which is met, makes no difference. -/
theorem Accepts.cons (h : Accepts outcome conditions counted output)
    (hmet : condition.met = true) : Accepts outcome (condition :: conditions) counted output where
  succeeds := by
    rw [List.forall_mem_cons, and_iff_right hmet]
    exact h.succeeds
  kept := h.kept
  refused := by
    rw [Condition.firstRefusal, if_pos hmet]
    exact h.refused

/-- A call is refused for the first condition that it does not meet. -/
theorem Accepts.eq_refused (h : Accepts outcome conditions counted output) (hcounted : counted)
    {refusal : Refusal} (hrefusal : Condition.firstRefusal conditions = some refusal) :
    outcome = ⟨.error (.refused refusal), output⟩ := by
  obtain ⟨result, final⟩ := outcome
  cases result with
  | ok stats =>
    have hnone := Condition.firstRefusal_eq_none.mpr (h.succeeds.mp ⟨stats, rfl⟩)
    exact nomatch hnone.symm.trans hrefusal
  | error failure =>
    obtain rfl := h.kept failure rfl
    obtain ⟨other, hother, rfl⟩ := h.refused hcounted failure rfl
    rw [Option.some.inj (hother.symm.trans hrefusal)]

/-- A call with a check in front of it makes the condition of the check first. -/
theorem accepts_bind {check : Except Failure α} {kind : α → Prop} {next : α → Except Failure β}
    {call : β → Outcome RunStats} (h : condition.CheckedBy counted check kind)
    (hnext : ∀ value, kind value →
      Accepts (.afterwards (next value) output call) conditions counted output) :
    Accepts (.afterwards (check >>= next) output call) (condition :: conditions) counted
      output := by
  cases hmet : condition.met with
  | false =>
    obtain ⟨failure, hcheck, hrefused⟩ := h.unmet hmet
    rw [hcheck]
    exact accepts_of_unmet hmet hrefused
  | true =>
    obtain ⟨value, hvalue, hkind⟩ := h.met hmet
    rw [hvalue]
    exact (hnext value hkind).cons hmet

end Conditions

/-! ### What the dense calls check -/

namespace Condition

/-- An extent is not negative. -/
def extent (name : String) (value : Int) : Condition := ⟨0 ≤ value, .negativeExtent name value⟩

/-- A thread is one of several. -/
def thread (thread threads : Nat) : Condition :=
  ⟨thread < threads, .shapeMismatch (.threadRange thread threads)⟩

/-- A buffer has exactly the size of an operand. -/
def size (operand : Operand) (size rows columns : Nat) : Condition :=
  ⟨size = rows * columns,
    .shapeMismatch (.operandSize operand rows columns (rows * columns) size)⟩

/-- The host executes the kernels of a level. -/
def level (host : Host) (level : Level) : Condition :=
  ⟨host.supports level, .unsupportedLevel level⟩

/-- There is a thread. -/
def threads (threads : Nat) : Condition := ⟨0 < threads, .shapeMismatch .zeroThreads⟩

variable {counted : Prop}

theorem checkedBy_extent (name : String) (value : Int) :
    (extent name value).CheckedBy counted (Refusal.check (Dense.extent name value))
      fun rows ↦ rows = value.toNat := by
  rw [Dense.check_extent]
  exact (checkedBy_ite _ _ _).mono fun _ ↦ And.right

theorem checkedBy_thread (thread threads : Nat) :
    (Condition.thread thread threads).CheckedBy counted
      (Refusal.check (ThreadSlot.make thread threads)) fun slot ↦ slot.thread < slot.threads where
  unmet := by
    intro h
    rw [ThreadSlot.make, if_neg (of_decide_eq_false h)]
    exact ⟨_, rfl, fun _ ↦ rfl⟩
  met := by
    intro h
    rw [ThreadSlot.make, if_pos (of_decide_eq_true h)]
    exact ⟨_, rfl, of_decide_eq_true h⟩

/-- The size of a buffer of the machine is checked if the size that is demanded is counted
exactly. -/
theorem checkedBy_size {arithmetic : Arithmetic} {size rows columns : Nat} (operand : Operand)
    (hexact : arithmetic.Exact (rows * columns)) (hlimit : size < Word.limit)
    (hcounted : counted → rows * columns < Word.limit) :
    (Condition.size operand size rows columns).CheckedBy counted
      (Dense.checkSize arithmetic operand size rows columns) fun _ ↦ size = rows * columns where
  unmet := by
    intro h
    have hsize : size ≠ rows * columns := of_decide_eq_false h
    rw [Dense.checkSize]
    by_cases hword : rows * columns < Word.limit
    · rw [Arithmetic.word_of_lt hword, ok_bind, if_neg hsize]
      exact ⟨_, rfl, fun _ ↦ rfl⟩
    · obtain rfl : arithmetic = .checked := hexact.resolve_right hword
      rw [Arithmetic.checked_word_of_le (Nat.le_of_not_lt hword)]
      exact ⟨_, rfl, fun hcount ↦ absurd (hcounted hcount) hword⟩
  met := fun h ↦ ⟨(), Dense.checkSize_eq_ok hlimit (of_decide_eq_true h), of_decide_eq_true h⟩

theorem checkedBy_level (host : Host) (level : Level) :
    (Condition.level host level).CheckedBy counted (Engine.forLevel host level) fun engine ↦
      engine.family.BuiltIn ∧ engine.family.accepts level.blockWidth = true where
  unmet := by
    intro h
    have hunsupported : host.supports level ≠ true := Bool.eq_false_iff.mp h
    have hbaseline : level ≠ .baseline := fun hlevel ↦ hunsupported (hlevel ▸ rfl)
    rw [Engine.forLevel, if_neg hbaseline, if_neg hunsupported]
    exact ⟨_, rfl, fun _ ↦ rfl⟩
  met := Engine.forLevel_of_supports

end Condition

namespace Dense

variable {platform : Platform} {orientation : Orientation} {m : Int} {left : Array Single}
  {panel : Panel} {beta : Single} {output : Array Single} {engine : Engine}

/-- Words count the elements of the operands that have the extents of a product. -/
structure Countable (rows : Nat) (panel : Panel) : Prop where
  left : rows * panel.rows < Word.limit
  output : rows * panel.columns < Word.limit

/-- The conditions of the call for one thread, in the order in which they are checked. -/
def shareConditions (host : Host) (m : Int) (left : Array Single) (panel : Panel)
    (output : Array Single) (thread threads : Nat) : List Condition :=
  [.extent "m" m, .thread thread threads, .size .a left.size m.toNat panel.rows,
    .size .c output.size m.toNat panel.columns, .level host panel.level]

/-- The conditions of the call for all threads, in the order in which they are checked. -/
def productConditions (host : Host) (m : Int) (left : Array Single) (panel : Panel)
    (output : Array Single) (threads : Nat) : List Condition :=
  [.extent "m" m, .size .a left.size m.toNat panel.rows,
    .size .c output.size m.toNat panel.columns, .level host panel.level, .threads threads]

section Resident

variable {rows : Nat}
  (hresident : (request platform.arithmetic orientation rows left panel beta).Resident output.size)
include hresident

/-- What both calls check alike: the sizes of the two buffers, and that there is an engine, which is
built in and takes the panel. -/
theorem accepts_operands {α : Type} {next : Engine → Except Failure α}
    {call : α → Outcome RunStats} {conditions : List Condition}
    (hexact : platform.arithmetic = .checked ∨ Countable rows panel)
    (hnext : ∀ engine : Engine, left.size = rows * panel.rows → output.size = rows * panel.columns →
      engine.family.BuiltIn → engine.family.accepts panel.width = true →
      Accepts (.afterwards (next engine) output call) conditions (Countable rows panel) output) :
    Accepts (.afterwards (checkOperands platform.arithmetic rows left panel output >>= fun _ ↦
        Engine.forLevel platform.host panel.level >>= next) output call)
      (.size .a left.size rows panel.rows :: .size .c output.size rows panel.columns ::
        .level platform.host panel.level :: conditions) (Countable rows panel) output := by
  rw [checkOperands, bind_assoc]
  exact accepts_bind (Condition.checkedBy_size .a (hexact.imp_right Countable.left)
      hresident.left.size_lt Countable.left) fun _ hleft ↦
    accepts_bind (Condition.checkedBy_size .c (hexact.imp_right Countable.output)
      hresident.size_lt Countable.output) fun _ hsize ↦
    accepts_bind (Condition.checkedBy_level platform.host panel.level) fun engine hengine ↦
    hnext engine hleft hsize hengine.1 hengine.2

/-- A run on operands that fit succeeds, and so does the share of a thread. -/
theorem exists_stats (hleft : left.size = rows * panel.rows)
    (hsize : output.size = rows * panel.columns) (hbuiltIn : engine.family.BuiltIn)
    (haccepts : engine.family.accepts panel.width = true) :
    (∀ threads, 0 < threads → ∃ stats, (engine.run
      (request platform.arithmetic orientation rows left panel beta) output threads).result =
        .ok stats) ∧
    ∀ slot : ThreadSlot, slot.thread < slot.threads → ∃ stats, (engine.runShare
      (request platform.arithmetic orientation rows left panel beta) output slot).result =
        .ok stats := by
  obtain ⟨tiles, stop, -, -, hrun, hshare⟩ := Engine.exists_shares
    (.inr (.inr (countable hleft hsize hresident haccepts))) hresident
    (check_eq hleft hsize hresident haccepts) fun hadmits ↦
      Engine.prepared_of_builtIn hbuiltIn hadmits
  exact ⟨fun threads hthreads ↦ ⟨_, congrArg Outcome.result (hrun threads hthreads)⟩,
    fun slot hslot ↦ ⟨_, congrArg Outcome.result (hshare slot hslot output rfl)⟩⟩

end Resident

/-- The dense calls accept exactly the arguments that meet their conditions: operands that fit the
panel, a level that the host executes, and a thread. All other calls leave the output as it is, and
as long as words count the operands they are refused for the first condition that is not met and for
no other reason. -/
theorem calls_accept (platform : Platform) (orientation : Orientation) (m : Int)
    (left : Array Single) (panel : Panel) (beta : Single) (output : Array Single)
    (hexact : platform.arithmetic = .checked ∨ Countable m.toNat panel)
    (hresident : (request platform.arithmetic orientation m.toNat left panel beta).Resident
      output.size) :
    (∀ thread threads, ∃ outcome,
      Dispatch.Gives platform (gemm orientation m left panel beta output thread threads) outcome ∧
      Accepts outcome (shareConditions platform.host m left panel output thread threads)
        (Countable m.toNat panel) output) ∧
    ∀ threads, ∃ outcome,
      Dispatch.Gives platform (gemmParallel orientation m left panel beta output threads) outcome ∧
      Accepts outcome (productConditions platform.host m left panel output threads)
        (Countable m.toNat panel) output := by
  constructor
  · intro thread threads
    refine ⟨_, (performs_gemm orientation m left panel beta output thread threads).gives, ?_⟩
    refine accepts_bind (Condition.checkedBy_extent "m" m) fun rows hrows ↦ ?_
    refine accepts_bind (Condition.checkedBy_thread thread threads) fun slot hslot ↦ ?_
    subst hrows
    refine accepts_operands hresident hexact fun engine hleft hsize hbuiltIn haccepts ↦ ?_
    obtain ⟨-, hshare⟩ := exists_stats hresident hleft hsize hbuiltIn haccepts
    obtain ⟨stats, hstats⟩ := hshare slot hslot
    exact accepts_of_ok hstats
  · intro threads
    refine ⟨_, (performs_gemmParallel orientation m left panel beta output threads).gives, ?_⟩
    refine accepts_bind (Condition.checkedBy_extent "m" m) fun rows hrows ↦ ?_
    subst hrows
    refine accepts_operands hresident hexact fun engine hleft hsize hbuiltIn haccepts ↦ ?_
    obtain ⟨hrun, -⟩ := exists_stats hresident hleft hsize hbuiltIn haccepts
    by_cases hthreads : 0 < threads
    · obtain ⟨stats, hstats⟩ := hrun threads hthreads
      exact (accepts_of_ok hstats).cons (decide_eq_true hthreads)
    · have hzero : threads = 0 := Nat.eq_zero_of_not_pos hthreads
      subst hzero
      exact accepts_of_unmet (decide_eq_false hthreads) fun _ ↦ rfl

/-- The second of two threads gets its share, and without threads the output stays as it is. -/
theorem calls_accept_threads :
    (∃ outcome, Dispatch.Gives ⟨.narrow, .wrapping⟩
        (gemm .plain 1 #[.one, .one] Request.ones.panel .one #[.one] 1 2) outcome ∧
      ∃ stats, outcome.result = .ok stats) ∧
    Dispatch.Gives ⟨.narrow, .wrapping⟩
      (gemmParallel .plain 1 #[.one, .one] Request.ones.panel .one #[.one] 0)
      ⟨.error (.refused (.shapeMismatch .zeroThreads)), #[.one]⟩ := by
  have hresident : Request.ones.Resident 1 := Request.ones_resident (by decide)
  obtain ⟨hshare, hwhole⟩ := calls_accept ⟨.narrow, .wrapping⟩ .plain 1 #[.one, .one]
    Request.ones.panel .one #[.one] (.inr ⟨by decide, by decide⟩) hresident
  obtain ⟨share, hgives, haccepts⟩ := hshare 1 2
  obtain ⟨whole, hgives', haccepts'⟩ := hwhole 0
  have hwhole : whole = ⟨.error (.refused (.shapeMismatch .zeroThreads)), #[.one]⟩ :=
    haccepts'.eq_refused ⟨by decide, by decide⟩ rfl
  exact ⟨⟨share, hgives, haccepts.succeeds.mpr (by decide)⟩, hwhole ▸ hgives'⟩

/-- Four columns of four ones, in one K-block. -/
def squarePanel : Panel := ⟨⟨.avx2, 4, 4, 4, by decide⟩, .one, Array.replicate 64 .one⟩

/-- Operands the sizes of which are a whole word are not refused. With checked arithmetic their size
is a panic, and where it wraps around they pass for empty ones, so that the steps for their rows are
asked for. -/
theorem calls_accept_past_words :
    Condition.firstRefusal (productConditions .narrow (2 ^ 62) #[] squarePanel #[] 1) =
        some (.shapeMismatch (.operandSize .a (2 ^ 62) 4 (2 ^ 64) 0)) ∧
      ∀ arithmetic, Dispatch.Gives ⟨.narrow, arithmetic⟩
        (gemmParallel .plain (2 ^ 62) #[] squarePanel .one #[] 1) ⟨.error .panicked, #[]⟩ := by
  refine ⟨by decide, fun arithmetic ↦ ?_⟩
  have hgives : Dispatch.Gives ⟨.narrow, arithmetic⟩
      (gemmParallel .plain (2 ^ 62) #[] squarePanel .one #[] 1) _ :=
    (performs_gemmParallel .plain (2 ^ 62) #[] squarePanel .one #[] 1).gives
  cases arithmetic with
  | checked => exact hgives
  | wrapping => exact hgives

end Dense

end PanelGemm
