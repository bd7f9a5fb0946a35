import PanelGemm.Proofs.Dispatch.Session
import PanelGemm.Proofs.Engine.Acceptance
import PanelGemm.Proofs.Threads.Shares

/-!
# Calls in turn

A program can make the calls for the threads of a product one after another on the same output
(`Dispatch.inTurn`). In whatever order it makes them, together they are the whole product
(`Engine.MakesUp`): each of them applies the tiles of its share, and the factor of the old output
reaches every row once. This holds for the shares of an engine, and for dense products, which look
their engine up by the level of the panel (`shares_make_up_runs`), on every platform and as long as
words count what the operands need. Where counts wrap around, a share may compute rows that the
whole product refuses (`shares_make_up_runs_past_words`).
-/

set_option autoImplicit false
set_option relaxedAutoImplicit false

namespace PanelGemm

namespace Dispatch

/-- An action gives a value to every program that runs on a platform, whatever its environment is
and whatever it has been asked before. -/
def Gives {α : Type} (platform : Platform) (action : Dispatch α) (value : α) : Prop :=
  ∀ environment (dispatcher : Dispatcher), dispatcher.Coherent platform environment →
    (action.run dispatcher).1 = value

/-- An action gives what it performs in all environments. -/
theorem Performs.gives {α : Type} {platform : Platform} {action : Dispatch α} {value : α}
    {asks : Bool} (h : Performs platform (fun _ ↦ True) action value asks) :
    Gives platform action value := by
  intro environment dispatcher hcoherent
  obtain ⟨own, -, hruns⟩ := h
  obtain ⟨after, hrun, -⟩ := hruns environment trivial dispatcher hcoherent
  rw [hrun]

end Dispatch

/-! ### Calls one after another -/

namespace Dispatch

variable {ι : Type} {call : ι → Array Single → Dispatch (Outcome RunStats)}

/-- Calls one after another, each on the output that the one before it leaves. Their statistics add
up, and a call that fails is the last one. -/
def inTurn (call : ι → Array Single → Dispatch (Outcome RunStats)) :
    List ι → Array Single → Dispatch (Outcome RunStats)
  | [], output => return ⟨.ok ⟨0, 0⟩, output⟩
  | thread :: order, output => do
    let outcome ← call thread output
    match outcome.result with
    | .error _ => return outcome
    | .ok stats => return (← inTurn call order outcome.output).map (stats + ·)

variable {platform : Platform} {kind : Environment → Prop} {engine : Engine} {request : Request}
  {part : ι → List Tile} {size : Nat}

/-- Calls that apply tiles to an output apply those of all of them in turn. -/
theorem performs_inTurn (hcall : ∀ thread start, start.size = size →
      Performs platform kind (call thread start) ⟨.ok (Engine.stats request (part thread)),
        start.mapIdx (engine.tilesRewrite request (part thread))⟩ false)
    (order : List ι) {output : Array Single} (hsize : output.size = size) :
    Performs platform kind (inTurn call order output)
      ⟨.ok (Engine.stats request (order.flatMap part)),
        output.mapIdx (engine.tilesRewrite request (order.flatMap part))⟩ false := by
  induction order generalizing output with
  | nil =>
    have hnone : output.mapIdx (engine.tilesRewrite request []) = output :=
      mapIdx_eq_self fun _ _ ↦ rfl
    rw [List.flatMap_nil, hnone]
    exact (silent_pure _).performs
  | cons thread order ih =>
    have hnext : (output.mapIdx (engine.tilesRewrite request (part thread))).size = size :=
      Array.size_mapIdx.trans hsize
    have hboth : output.mapIdx (engine.tilesRewrite request ((thread :: order).flatMap part)) =
        (output.mapIdx (engine.tilesRewrite request (part thread))).mapIdx
          (engine.tilesRewrite request (order.flatMap part)) := by
      rw [Array.mapIdx_mapIdx]
      exact congrArg output.mapIdx (funext fun q ↦ funext fun x ↦ Engine.tilesRewrite_append x)
    rw [hboth, List.flatMap_cons, Engine.stats_append]
    exact (hcall thread output hsize).bind ((ih hnext).bind (silent_pure _).performs)

end Dispatch

/-! ### What dense products are computed with -/

/-- The engine for a level that the host executes is built in, and it takes the panels of its
level. -/
theorem Engine.forLevel_of_supports {host : Host} {level : Level}
    (h : host.supports level = true) : ∃ engine, forLevel host level = .ok engine ∧
      engine.family.BuiltIn ∧ engine.family.accepts level.blockWidth = true := by
  unfold forLevel
  rw [if_pos h]
  cases level with
  | baseline => exact ⟨scalar, rfl, .inl rfl, rfl⟩
  | neon => exact nomatch h
  | avx2 => exact ⟨⟨.upTo .avx2 Family.narrowRows⟩, rfl, .inr ⟨.avx2, rfl⟩, rfl⟩
  | avx512Ymm => exact ⟨⟨.upTo .avx512Ymm Family.wideRows⟩, rfl, .inr ⟨.avx512Ymm, rfl⟩, rfl⟩
  | avx512 => exact ⟨⟨.upTo .avx512 Family.wideRows⟩, rfl, .inr ⟨.avx512, rfl⟩, rfl⟩

namespace Dense

variable {platform : Platform} {orientation : Orientation} {rows : Nat} {left output : Array Single}
  {panel : Panel} {beta : Single} {engine : Engine}

theorem check_extent_natCast (name : String) (value : Nat) :
    Refusal.check (extent name value) = .ok value := by
  rw [check_extent, if_pos (Int.natCast_nonneg value), Int.toNat_natCast]

/-- A buffer of the machine that has the size of its operand passes the check. -/
theorem checkSize_eq_ok {arithmetic : Arithmetic} {operand : Operand} {size rows columns : Nat}
    (hlimit : size < Word.limit) (hsize : size = rows * columns) :
    checkSize arithmetic operand size rows columns = .ok () := by
  rw [checkSize, Arithmetic.word_of_lt (hsize ▸ hlimit), ok_bind, if_pos hsize]
  rfl

section Operands

variable (hleft : left.size = rows * panel.rows) (hsize : output.size = rows * panel.columns)
include hleft hsize

/-- Dense operands are well shaped. -/
theorem wellShaped (arithmetic : Arithmetic)
    (haccepts : engine.family.accepts panel.width = true) :
    engine.WellShaped (request arithmetic orientation rows left panel beta) output.size := by
  refine ⟨haccepts, ?_, .inr (Nat.le_refl _), ?_⟩
  · cases orientation with
    | plain => exact hleft ▸ Storage.holds_dense rows panel.rows
    | transposed => exact hleft ▸ Nat.mul_comm _ _ ▸ Storage.holds_dense panel.rows rows
  · have hholds := Storage.holds_dense rows panel.columns
    rw [← hsize] at hholds
    exact hholds.imp_right fun h ↦ h.imp_right And.right

variable (hresident : (request platform.arithmetic orientation rows left panel beta).Resident
  output.size)
include hresident

theorem checkOperands_eq : checkOperands platform.arithmetic rows left panel output = .ok () := by
  have hleftSize : checkSize platform.arithmetic .a left.size rows panel.rows = .ok () :=
    checkSize_eq_ok hresident.left.size_lt hleft
  rw [checkOperands, hleftSize, ok_bind]
  exact checkSize_eq_ok hresident.size_lt hsize

/-- Words count what dense operands need. -/
theorem countable (haccepts : engine.family.accepts panel.width = true) :
    (request platform.arithmetic orientation rows left panel beta).Countable :=
  (wellShaped hleft hsize platform.arithmetic haccepts).countable hresident.left.size_lt
    hresident.size_lt

theorem check_eq (haccepts : engine.family.accepts panel.width = true) :
    engine.check (request platform.arithmetic orientation rows left panel beta) output.size =
      .ok () :=
  (Engine.check_eq_ok (countable hleft hsize hresident haccepts)).mpr
    (wellShaped hleft hsize platform.arithmetic haccepts)

/-- The call for one thread computes the share of the engine of the panel's level. -/
theorem performs_gemm_share (hengine : Engine.forLevel platform.host panel.level = .ok engine)
    {threads : Nat} (thread : Fin threads) {kind : Environment → Prop} :
    Dispatch.Performs platform kind (gemm orientation rows left panel beta output thread threads)
      (engine.runShare (request platform.arithmetic orientation rows left panel beta) output
        (.ofFin thread)) false := by
  have hslot : Refusal.check (ThreadSlot.make thread threads) = .ok (.ofFin thread) := by
    rw [ThreadSlot.make, if_pos thread.isLt]
    rfl
  have hparts : shareParts platform rows left panel output thread threads =
      .ok (rows, .ofFin thread, engine) := by
    rw [shareParts, check_extent_natCast, ok_bind, hslot, ok_bind,
      checkOperands_eq hleft hsize hresident, ok_bind, hengine]
    rfl
  have hgemm : Dispatch.Performs platform kind
      (gemm orientation rows left panel beta output thread threads) _ false :=
    performs_gemm orientation rows left panel beta output thread threads
  rwa [hparts] at hgemm

/-- The call for all threads is the run of the engine of the panel's level. -/
theorem performs_gemmParallel_run
    (hengine : Engine.forLevel platform.host panel.level = .ok engine) (threads : Nat)
    {kind : Environment → Prop} :
    Dispatch.Performs platform kind (gemmParallel orientation rows left panel beta output threads)
      (engine.run (request platform.arithmetic orientation rows left panel beta) output threads)
      false := by
  have hparts : productParts platform rows left panel output = .ok (rows, engine) := by
    rw [productParts, check_extent_natCast, ok_bind, checkOperands_eq hleft hsize hresident,
      ok_bind, hengine]
    rfl
  have hgemm : Dispatch.Performs platform kind
      (gemmParallel orientation rows left panel beta output threads) _ false :=
    performs_gemmParallel orientation rows left panel beta output threads
  rwa [hparts] at hgemm

end Operands

end Dense

/-! ### Shares that make up a whole -/

namespace Engine

open Dispatch Workers

/-- Calls for the shares of a request that make up its run. The run with any number of threads
applies the tiles of the request. Made one after another in any order the calls apply them, too, and
their statistics add up to those of the run. A single call applies the tiles of its own span to any
output of the same size, and so it changes nothing but the columns of the product in the rows of
these. -/
structure MakesUp (platform : Platform) (engine : Engine) (request : Request)
    (output : Array Single) (tiles : List Tile) {threads : Nat}
    (share : Fin threads → Array Single → Dispatch (Outcome RunStats))
    (whole : Nat → Dispatch (Outcome RunStats)) : Prop where
  listed : request.isEmpty = true ∧ tiles = [] ∨
    engine.family.tiles request.arithmetic request.m = .ok tiles
  total : ∀ workers, 0 < workers → Gives platform (whole workers)
    ⟨.ok (stats request tiles), output.mapIdx (tilesRewrite engine request tiles)⟩
  inTurn : ∀ order : List (Fin threads), order.Perm (List.finRange threads) →
    Gives platform (inTurn share order output)
      ⟨.ok (stats request tiles), output.mapIdx (tilesRewrite engine request tiles)⟩
  own : ∀ thread start, start.size = output.size → ∃ final,
    Gives platform (share thread start)
      ⟨.ok (stats request (tilesOf threads tiles thread)), final⟩ ∧
    final = start.mapIdx (tilesRewrite engine request (tilesOf threads tiles thread)) ∧
    ChangesOnly request (tilesOf threads tiles thread) start final

variable {platform : Platform} {engine : Engine} {request : Request} {output : Array Single}
  {threads : Nat}

/-- Calls that do what the shares and the run of an engine do make up the whole. -/
theorem exists_makesUp (hthreads : 0 < threads) (hexact : request.CountsExactly)
    (hresident : request.Resident output.size)
    (hcheck : engine.check request output.size = .ok ())
    (hprepared : engine.Admits request output.size → engine.Prepared request)
    {share : Fin threads → Array Single → Dispatch (Outcome RunStats)}
    {whole : Nat → Dispatch (Outcome RunStats)}
    (hshare : ∀ thread start, start.size = output.size → Performs platform (fun _ ↦ True)
      (share thread start) (engine.runShare request start (.ofFin thread)) false)
    (hwhole : ∀ workers, Performs platform (fun _ ↦ True) (whole workers)
      (engine.run request output workers) false) :
    ∃ tiles, engine.MakesUp platform request output tiles share whole := by
  obtain ⟨tiles, stop, hstacked, hlisted, hrun, hpart⟩ :=
    exists_shares hexact hresident hcheck hprepared
  have hstride : request.n ≤ request.outputStride := by
    rcases Nat.eq_zero_or_pos request.n with hnone | hcolumns
    · exact hnone ▸ Nat.zero_le _
    · exact (width_stride_of_check hcheck hcolumns).2
  have hcall : ∀ thread start, start.size = output.size → Performs platform (fun _ ↦ True)
      (share thread start) ⟨.ok (stats request (tilesOf threads tiles thread)),
        start.mapIdx (tilesRewrite engine request (tilesOf threads tiles thread))⟩ false :=
    fun thread start hsize ↦
      hpart (.ofFin thread) thread.isLt start hsize ▸ hshare thread start hsize
  refine ⟨tiles, hlisted, fun workers hworkers ↦ ?_, fun order horder ↦ ?_,
    fun thread start hsize ↦
      ⟨_, (hcall thread start hsize).gives, rfl, changesOnly_tilesRewrite start⟩⟩
  · exact (hrun workers hworkers ▸ hwhole workers).gives
  · have hperm := tilesOf_perm hthreads horder tiles
    have hsame : output.mapIdx (tilesRewrite engine request tiles) =
        output.mapIdx (tilesRewrite engine request
          (order.flatMap fun thread : Fin threads ↦ tilesOf threads tiles thread)) :=
      congrArg output.mapIdx (funext fun q ↦ funext fun x ↦
        (tilesRewrite_perm hstride hstacked hperm q x).symm)
    rw [hsame, ← stats_perm hperm]
    exact (performs_inTurn hcall order rfl).gives

end Engine

/-- The shares of the threads make up the whole product, in whatever order they are computed one
after another. They do for every request that an engine which tiles greedily accepts, as long as
words count what it needs and its buffers can be had, and for every product of dense operands on a
level that the host executes. -/
theorem shares_make_up_runs (platform : Platform) (threads : Nat) (hthreads : 0 < threads) :
    (∀ (engine : Engine) (request : Request) (output : Array Single),
      engine.family.policy = .greedy → engine.family.table.available ≠ [] →
      request.CountsExactly → request.Resident output.size →
      (engine.Admits request output.size → engine.family.BuiltIn ∨ engine.Affords request) →
      engine.check request output.size = .ok () →
      ∃ tiles, engine.MakesUp platform request output tiles
        (fun (thread : Fin threads) start ↦ pure (engine.runShare request start (.ofFin thread)))
        (fun workers ↦ pure (engine.run request output workers))) ∧
    ∀ (orientation : Orientation) (rows : Nat) (left : Array Single) (panel : Panel)
      (beta : Single) (output : Array Single),
      platform.host.supports panel.level = true → left.size = rows * panel.rows →
      output.size = rows * panel.columns →
      (Dense.request platform.arithmetic orientation rows left panel beta).Resident output.size →
      ∃ engine tiles, Engine.forLevel platform.host panel.level = .ok engine ∧
        engine.MakesUp platform
          (Dense.request platform.arithmetic orientation rows left panel beta) output tiles
          (fun (thread : Fin threads) start ↦
            Dense.gemm orientation rows left panel beta start thread threads)
          (fun workers ↦ Dense.gemmParallel orientation rows left panel beta output workers) := by
  constructor
  · intro engine request output hpolicy hkernels hexact hresident hroom hcheck
    refine Engine.exists_makesUp hthreads hexact hresident hcheck (fun hadmits ↦ ?_)
      (fun _ _ _ ↦ (Dispatch.silent_pure _).performs) fun _ ↦ (Dispatch.silent_pure _).performs
    exact hadmits.prepared ((hroom hadmits).imp_right fun h ↦ h.prepared hpolicy hkernels)
  · intro orientation rows left panel beta output hlevel hleft hsize hresident
    obtain ⟨engine, hengine, hbuiltIn, haccepts⟩ := Engine.forLevel_of_supports hlevel
    obtain ⟨tiles, hmakesUp⟩ := Engine.exists_makesUp hthreads
      (.inr (.inr (Dense.countable hleft hsize hresident haccepts))) hresident
      (Dense.check_eq hleft hsize hresident haccepts)
      (fun hadmits ↦ Engine.prepared_of_builtIn hbuiltIn hadmits)
      (fun thread start hstart ↦ Dense.performs_gemm_share hleft (hstart.trans hsize)
        (hstart ▸ hresident) hengine thread)
      fun workers ↦ Dense.performs_gemmParallel_run hleft hsize hresident hengine workers
    exact ⟨engine, tiles, hengine, hmakesUp⟩

/-- The second of two threads may come first. -/
theorem shares_make_up_runs_reversed :
    (∃ tiles, Engine.cappedEngine.family.tiles .wrapping 1 = .ok tiles ∧
      Dispatch.Gives ⟨.narrow, .wrapping⟩ (Dispatch.inTurn (fun (thread : Fin 2) start ↦
        pure (Engine.cappedEngine.runShare .ones start (.ofFin thread))) [1, 0] #[.one])
          ⟨.ok (Engine.stats .ones tiles),
            #[.one].mapIdx (Engine.cappedEngine.tilesRewrite .ones tiles)⟩) ∧
    ∃ engine tiles, Engine.forLevel .narrow .avx2 = .ok engine ∧
      Dispatch.Gives ⟨.narrow, .wrapping⟩ (Dispatch.inTurn (fun (thread : Fin 2) start ↦
        Dense.gemm .plain 1 #[.one, .one] Request.ones.panel .one start thread 2) [1, 0] #[.one])
          ⟨.ok (Engine.stats .ones tiles), #[.one].mapIdx (engine.tilesRewrite .ones tiles)⟩ := by
  have horder : [(1 : Fin 2), 0].Perm (List.finRange 2) := by decide
  have hresident : Request.ones.Resident 1 := Request.ones_resident (by decide)
  obtain ⟨hengine, hdense⟩ := shares_make_up_runs ⟨.narrow, .wrapping⟩ 2 (by decide)
  obtain ⟨tiles, hmakesUp⟩ := hengine Engine.cappedEngine .ones #[.one] rfl (by decide)
    Request.ones_countsExactly hresident (fun _ ↦ .inr Engine.affords_cappedEngine) (by rfl)
  obtain ⟨engine, tiles', hforLevel, hmakesUp'⟩ := hdense .plain 1 #[.one, .one] Request.ones.panel
    .one #[.one] rfl rfl rfl hresident
  exact ⟨⟨tiles, hmakesUp.listed.resolve_left fun h ↦ absurd h.1 (by decide),
      hmakesUp.inTurn _ horder⟩,
    engine, tiles', hforLevel, hmakesUp'.inTurn _ horder⟩

/-- Where counts wrap around, a request may pass its check although its rows do not fit the output.
Its run ends at the first tile and leaves the output alone, but the share of the last of three
threads is a single row, which is placed as if it were the first one, so it succeeds and writes. -/
theorem shares_make_up_runs_past_words :
    let request := Request.distantRows .wrapping 13
    let output := Array.replicate 17 Binary.zero
    Engine.scalar.check request 17 = .ok () ∧
      (Engine.scalar.run request output 1).output = output ∧
      (Engine.scalar.runShare request output ⟨2, 3⟩).result = .ok ⟨1, 4⟩ ∧
      (Engine.scalar.runShare request output ⟨2, 3⟩).output = Array.replicate 17 (.ofNat 2) :=
  ⟨by decide +kernel, by decide +kernel, by decide +kernel, by decide +kernel⟩

end PanelGemm
