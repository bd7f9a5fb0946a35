import PanelGemm.Proofs.Dispatch.Acceptance
import PanelGemm.Proofs.Dispatch.Session
import PanelGemm.Proofs.Panel.Packing
import PanelGemm.Proofs.Threads.Budget

/-!
# Products of plain operands

A program that multiplies two plain operands detects the level, packs the right operand with the
configured block height, chooses a number of threads and runs the engine of the level. None of that
shows in the result: it is the run of the configured level on one thread (`Dense.multiply_runs`),
whatever the number of threads, whatever the program was asked before, and whatever level and block
height the environment asks for. A call on operands of the right sizes fails only if the panel of
the right operand cannot be had (`Config.Holds`, `Dense.multiply_without_room`).
-/

set_option autoImplicit false
set_option relaxedAutoImplicit false

namespace PanelGemm

/-! ### What is configured -/

theorem Config.readBlockRows_pos {text : String} {rows : Nat} (h : readBlockRows text = .ok rows) :
    0 < rows := by
  unfold readBlockRows at h
  split at h
  · split_ifs at h with hzero
    cases h
    exact Nat.pos_of_ne_zero hzero
  · exact nomatch h

/-- A configured K-block has rows. -/
theorem Config.blockRows_pos {environment : Environment} {config : Config}
    (h : read environment = .ok config) : 0 < config.blockRows := by
  obtain ⟨levelOverride, -, h⟩ := bind_eq_ok.mp h
  obtain ⟨blockRows?, hrows, h⟩ := bind_eq_ok.mp h
  cases h
  cases hgiven : given? environment.blockRows with
  | none =>
    rw [hgiven] at hrows
    cases hrows
    exact Nat.succ_pos _
  | some text =>
    rw [hgiven] at hrows
    obtain ⟨rows, hread, hrows⟩ := bind_eq_ok.mp hrows
    cases hrows
    exact readBlockRows_pos hread

/-- The host executes the level that is dispatched for. -/
theorem Config.supports_level (host : Host) (config : Config) :
    host.supports (config.level host) = true := by
  have hbest : host.supports host.level = true := by
    unfold Host.level
    split_ifs with hwide hnarrow
    · exact hwide
    · exact hnarrow
    · rfl
  unfold Config.level Host.resolve
  split
  · exact hbest
  · split_ifs with hsupports
    · exact hsupports
    · exact hbest

/-- The panel of the right operand of an `m × n` product can be had: a machine word counts the
elements of a column block and a signed one the bytes of the panel, and there is room for it beside
the operands. -/
structure Config.Holds (host : Host) (config : Config) (m n k : Nat) : Prop where
  counted : min config.blockRows k * (config.level host).blockWidth < Word.limit
  addressable : k * (blockCount n (config.level host).blockWidth * (config.level host).blockWidth) *
    Capacity.singleBytes < Word.signedLimit
  together : (m * k + k * (blockCount n (config.level host).blockWidth *
    (config.level host).blockWidth) + m * n) * Capacity.singleBytes < Word.limit

/-- A run that has nothing to compute leaves the output alone, whether or not it is accepted. -/
theorem Engine.output_run_of_isEmpty (engine : Engine) {request : Request}
    (h : request.isEmpty = true) (output : Array Single) (threads : Nat) :
    (engine.run request output threads).output = output := by
  rcases Nat.eq_zero_or_pos threads with rfl | hthreads
  · rw [run_without_threads]
  · rw [run_eq_checked hthreads]
    exact output_checked_of_isEmpty h

namespace Dense

/-- The conditions of a product of plain operands, in the order in which they are checked. -/
def multiplyConditions (left right output : Array Single) (m n k : Nat) : List Condition :=
  [.size .a left.size m k, .size .b right.size k n, .size .c output.size m n]

/-- The right operand of a product as it is packed. -/
def rightSource (right : Array Single) (k n : Nat) : Packing.Source :=
  ⟨right, .plain, n, k, n, .one⟩

/-- How a product of plain operands ends under given settings on a number of threads. -/
def multiplyOn (platform : Platform) (settings : Except Refusal Config)
    (left right output : Array Single) (m n k threads : Nat) : Outcome RunStats :=
  .afterwards (multiplyParts platform settings left right output m n k) output
    fun (panel, engine) ↦
      engine.run (request platform.arithmetic .plain m left panel .one) output threads

variable {platform : Platform} {config : Config} {left right output : Array Single} {m n k : Nat}

section Operands

variable (hleft : Addressable left) (hright : Addressable right) (houtput : Addressable output)
include hleft hright houtput

theorem checkSizes_eq_ok (hleftSize : left.size = m * k) (hrightSize : right.size = k * n)
    (hsize : output.size = m * n) :
    checkSizes platform.arithmetic left right output m n k = .ok () := by
  have hleftCheck : checkSize platform.arithmetic .a left.size m k = .ok () :=
    checkSize_eq_ok hleft.size_lt hleftSize
  have hrightCheck : checkSize platform.arithmetic .b right.size k n = .ok () :=
    checkSize_eq_ok hright.size_lt hrightSize
  rw [checkSizes, hleftCheck, ok_bind, hrightCheck, ok_bind]
  exact checkSize_eq_ok houtput.size_lt hsize

/-- A product whose operands have other sizes is refused for the first one that does not have its
size, under all settings and before anything else, if words count the sizes. -/
theorem multiplyOn_of_firstRefusal (settings : Except Refusal Config)
    (hcounted : m * k < Word.limit ∧ k * n < Word.limit ∧ m * n < Word.limit) {refusal : Refusal}
    (hrefusal : Condition.firstRefusal (multiplyConditions left right output m n k) = some refusal)
    (threads : Nat) : multiplyOn platform settings left right output m n k threads =
      ⟨.error (.refused refusal), output⟩ := by
  obtain ⟨hcountedLeft, hcountedRight, hcountedOutput⟩ := hcounted
  have hunmet : ¬ ∀ condition ∈ multiplyConditions left right output m n k,
      condition.met = true := by
    rw [← Condition.firstRefusal_eq_none, hrefusal]
    exact nofun
  have haccepts : Accepts (multiplyOn platform settings left right output m n k threads)
      (multiplyConditions left right output m n k) True output := by
    unfold multiplyOn multiplyParts checkSizes
    simp only [bind_assoc]
    refine accepts_bind (Condition.checkedBy_size .a (.inr hcountedLeft) hleft.size_lt
        fun _ ↦ hcountedLeft) fun _ hleftSize ↦
      accepts_bind (Condition.checkedBy_size .b (.inr hcountedRight) hright.size_lt
        fun _ ↦ hcountedRight) fun _ hrightSize ↦
      accepts_bind (Condition.checkedBy_size .c (.inr hcountedOutput) houtput.size_lt
        fun _ ↦ hcountedOutput) fun _ hsize ↦ absurd ?_ hunmet
    simp [multiplyConditions, Condition.size, hleftSize, hrightSize, hsize]
  exact haccepts.eq_refused trivial hrefusal

/-- A product whose operands have the right sizes and whose panel can be had has its panel and its
engine, and its run is the same on any number of threads. -/
theorem exists_run (hpositive : 0 < config.blockRows) (hleftSize : left.size = m * k)
    (hrightSize : right.size = k * n) (hsize : output.size = m * n)
    (hholds : config.Holds platform.host m n k) : ∃ panel engine stats final,
      Panel.pack platform.arithmetic (config.level platform.host) (rightSource right k n)
        config.blockRows = .ok panel ∧
      Engine.forLevel platform.host (config.level platform.host) = .ok engine ∧
      ∀ threads, 0 < threads →
        engine.run (request platform.arithmetic .plain m left panel .one) output threads =
          ⟨.ok stats, final⟩ := by
  have hholdsRight : Storage.Holds right.size k n n := hrightSize ▸ Storage.holds_dense k n
  have hfits : (rightSource right k n).Fits config.blockRows := ⟨hpositive, hholdsRight⟩
  have hroom : (rightSource right k n).HasRoom (config.level platform.host) := hholds.addressable
  have hcount : (rightSource right k n).Countable (config.level platform.host)
      config.blockRows :=
    ⟨hholdsRight.countable hright.size_lt, hholds.counted, Engine.lt_limit_of_bytes hroom⟩
  obtain ⟨panel, hpack, hpacked⟩ :=
    Panel.pack_of_fits hfits platform.arithmetic hcount hroom
  obtain ⟨engine, hengine, hbuiltIn, haccepts⟩ :=
    Engine.forLevel_of_supports (config.supports_level platform.host)
  have hrows : panel.rows = k := hpacked.rows
  have hcolumns : panel.columns = n := hpacked.columns
  have hwidth : panel.width = (config.level platform.host).blockWidth :=
    congrArg Level.blockWidth hpacked.level
  have hresident : (request platform.arithmetic .plain m left panel .one).Resident output.size := by
    refine ⟨hpacked.whole hroom, hleft, houtput, ?_⟩
    change (left.size + panel.data.size + output.size) * _ < _
    rw [hpacked.size_data, hpacked.size_shape, hleftSize, hsize]
    exact hholds.together
  rw [← hrows] at hleftSize
  rw [← hcolumns] at hsize
  rw [← hwidth] at haccepts
  obtain ⟨tiles, -, -, -, hrun, -⟩ := Engine.exists_shares
    (.inr (.inr (countable hleftSize hsize hresident haccepts))) hresident
    (check_eq hleftSize hsize hresident haccepts) fun hadmits ↦
      Engine.prepared_of_builtIn hbuiltIn hadmits
  exact ⟨panel, engine, _, _, hpack, hengine, hrun⟩

end Operands

/-- A product is the run of its engine on its panel. -/
theorem multiplyOn_eq_run {panel : Panel} {engine : Engine}
    (hsizes : checkSizes platform.arithmetic left right output m n k = .ok ())
    (hpack : Panel.pack platform.arithmetic (config.level platform.host) (rightSource right k n)
      config.blockRows = .ok panel)
    (hengine : Engine.forLevel platform.host (config.level platform.host) = .ok engine)
    (threads : Nat) : multiplyOn platform (.ok config) left right output m n k threads =
      engine.run (request platform.arithmetic .plain m left panel .one) output threads := by
  have hparts : multiplyParts platform (.ok config) left right output m n k =
      .ok (panel, engine) := by
    refine bind_eq_ok.mpr ⟨(), hsizes, bind_eq_ok.mpr ⟨config, rfl, ?_⟩⟩
    exact bind_eq_ok.mpr ⟨panel, hpack, bind_eq_ok.mpr ⟨engine, hengine, rfl⟩⟩
  rw [multiplyOn, hparts]
  rfl

/-- Without products the output stays as it is, however the call ends. -/
theorem output_multiplyOn (hk : k = 0) (settings : Except Refusal Config) (threads : Nat) :
    (multiplyOn platform settings left right output m n k threads).output = output := by
  unfold multiplyOn
  cases hparts : multiplyParts platform settings left right output m n k with
  | error failure => rfl
  | ok parts =>
    obtain ⟨-, -, hparts⟩ := bind_eq_ok.mp hparts
    obtain ⟨config, -, hparts⟩ := bind_eq_ok.mp hparts
    obtain ⟨panel, hpack, hparts⟩ := bind_eq_ok.mp hparts
    obtain ⟨engine, -, hparts⟩ := bind_eq_ok.mp hparts
    cases hparts
    obtain ⟨-, hrows, -, -⟩ := Panel.shape_of_pack hpack
    have hempty : (request platform.arithmetic .plain m left panel .one).isEmpty = true :=
      Request.isEmpty_iff.mpr (.inr (.inl (hrows.trans hk)))
    exact engine.output_run_of_isEmpty hempty output threads

/-- A product of plain operands is refused for the first operand that does not have its size, under
every configuration and with the output as before. If all of them have their sizes and the panel of
the right one can be had, then it is the run of the configured level on one thread, on the panel
that is packed with the configured block height. That is the same for every number of threads and at
every point of a session. Without products the output stays as it is. -/
theorem multiply_runs (platform : Platform) {environment : Environment}
    (hread : Config.read environment = .ok config) (hleft : Addressable left)
    (hright : Addressable right) (houtput : Addressable output) :
    ∃ outcome : Nat → Outcome RunStats,
      (∀ before threads after, environment.answer? platform before
        (.multiply left right output m n k threads) after = some (.outcome (outcome threads))) ∧
      (m * k < Word.limit ∧ k * n < Word.limit ∧ m * n < Word.limit →
        ∀ refusal, Condition.firstRefusal (multiplyConditions left right output m n k) =
          some refusal → ∀ threads, outcome threads = ⟨.error (.refused refusal), output⟩) ∧
      (left.size = m * k → right.size = k * n → output.size = m * n →
        config.Holds platform.host m n k → ∃ panel engine stats,
          Panel.pack platform.arithmetic (config.level platform.host) (rightSource right k n)
            config.blockRows = .ok panel ∧
          Engine.forLevel platform.host (config.level platform.host) = .ok engine ∧
          ∀ threads, (outcome threads).result = .ok stats ∧ outcome threads =
            engine.run (request platform.arithmetic .plain m left panel .one) output 1) ∧
      (k = 0 → ∀ threads, (outcome threads).output = output) := by
  refine ⟨fun threads ↦ multiplyOn platform (.ok config) left right output m n k
    (ThreadBudget.chooseThreads m n k threads), fun before threads after ↦ ?_,
    fun hcounted refusal hrefusal threads ↦
      multiplyOn_of_firstRefusal hleft hright houtput _ hcounted hrefusal _,
    fun hleftSize hrightSize hsize hholds ↦ ?_, fun hk threads ↦ output_multiplyOn hk _ _⟩
  · rw [Environment.answer?_eq, hread]
    rfl
  · obtain ⟨panel, engine, stats, final, hpack, hengine, hrun⟩ := exists_run hleft hright houtput
      (Config.blockRows_pos hread) hleftSize hrightSize hsize hholds
    refine ⟨panel, engine, stats, hpack, hengine, fun threads ↦ ?_⟩
    have houtcome : multiplyOn platform (.ok config) left right output m n k
        (ThreadBudget.chooseThreads m n k threads) = ⟨.ok stats, final⟩ := by
      rw [multiplyOn_eq_run (checkSizes_eq_ok hleft hright houtput hleftSize hrightSize hsize)
        hpack hengine, hrun _ (ThreadBudget.chooseThreads_pos m n k threads)]
    exact ⟨congrArg Outcome.result houtcome, houtcome.trans (hrun 1 Nat.one_pos).symm⟩

/-- Two products in K-blocks of one row, on no more than no threads, behind a call for the level. -/
theorem multiply_runs_blockwise : ∃ outcome stats panel engine, outcome.result = .ok stats ∧
    Environment.answer? ⟨.narrow, .wrapping⟩ ⟨some "baseline", some "1"⟩ [.capability]
      (.multiply #[.one, .one] #[.one, .one] #[.one] 1 1 2 0) [] = some (.outcome outcome) ∧
    Panel.pack .wrapping .baseline (rightSource #[.one, .one] 2 1) 1 = .ok panel ∧
    Engine.forLevel .narrow .baseline = .ok engine ∧
    outcome = engine.run (request .wrapping .plain 1 #[.one, .one] panel .one) #[.one] 1 := by
  have hread : Config.read ⟨some "baseline", some "1"⟩ = .ok ⟨some .baseline, 1⟩ := by rfl
  have hleft : Addressable #[.one, .one] := by decide
  have houtput : Addressable #[.one] := by decide
  have hholds : Config.Holds .narrow ⟨some .baseline, 1⟩ 1 1 2 :=
    ⟨by decide, by decide, by decide⟩
  obtain ⟨outcome, hanswers, -, hruns, -⟩ :=
    multiply_runs (m := 1) (n := 1) (k := 2) ⟨.narrow, .wrapping⟩ hread hleft hleft houtput
  obtain ⟨panel, engine, stats, hpack, hengine, hrun⟩ := hruns rfl rfl rfl hholds
  exact ⟨outcome 0, stats, panel, engine, (hrun 0).1, hanswers [.capability] 0 [], hpack, hengine,
    (hrun 0).2⟩

/-- An environment that asks for K-blocks so high that the elements of a column block are one more
than a machine word counts. -/
def highBlocks : Environment := ⟨some "baseline", some "1152921504606846976"⟩

/-- An operand without columns may be as high as such a block. Packing it panics whatever the
arithmetic, although all sizes are right. -/
theorem multiply_without_room :
    Config.read highBlocks = .ok ⟨some .baseline, 2 ^ 60⟩ ∧
    Condition.firstRefusal (multiplyConditions #[] #[] #[] 0 0 (2 ^ 60)) = none ∧
    ∀ arithmetic, highBlocks.answer? ⟨.narrow, arithmetic⟩ []
        (.multiply #[] #[] #[] 0 0 (2 ^ 60) 1) [] =
      some (.outcome ⟨.error .panicked, #[]⟩) := by
  have hread : Config.read highBlocks = .ok ⟨some .baseline, 2 ^ 60⟩ := by rfl
  refine ⟨hread, by decide, fun arithmetic ↦ ?_⟩
  have hreply := highBlocks.answer?_eq ⟨.narrow, arithmetic⟩ []
    (.multiply #[] #[] #[] 0 0 (2 ^ 60) 1) []
  rw [hread] at hreply
  cases arithmetic with
  | checked => exact hreply
  | wrapping => exact hreply

end Dense

end PanelGemm
