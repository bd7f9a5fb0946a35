import Mathlib.Tactic.Choose
import PanelGemm.Proofs.Dispatch.Coherence

/-!
# Sessions

What a running program answers to a call depends on the call, on the platform that it runs on and on
the environment that it was started with, and on nothing that it was asked before
(`session_settled_once`). The settings of the environment are read once, a refusal like a success,
and the level is announced in the first step that detects it: the level that is asked for if the
host executes it, and otherwise the best one of the host.
-/

set_option autoImplicit false
set_option relaxedAutoImplicit false

namespace PanelGemm

/-! ### What the calls do -/

section Calls

open Dispatch

variable {platform : Platform} {kind : Environment → Prop}

/-- The host is looked up for every level but the baseline. -/
theorem Engine.performs_ofLevel (level : Level) :
    Performs platform kind (Engine.ofLevel level).run (Engine.forLevel platform.host level)
      false := by
  unfold Engine.ofLevel Engine.forLevel
  by_cases hbaseline : level = .baseline
  · rw [if_pos hbaseline, if_pos hbaseline]
    exact (silent_pure _).performs
  · rw [if_neg hbaseline, if_neg hbaseline]
    refine Attempt.performs_lift_bind silent_host ?_
    cases platform.host.supports level with
    | false => exact (silent_pure _).performs
    | true =>
      cases hfamily : Family.lookup level with
      | ok family => exact performs_report (.selected level _ _) rfl _
      | error reason => exact (silent_pure _).performs

theorem Engine.performs_runReported (engine : Engine) (request : Request) (output : Array Single)
    (threads : Nat) : Performs platform kind (engine.runReported request output threads)
      (engine.run request output threads) false := by
  unfold Engine.runReported
  obtain ⟨result, final⟩ := engine.run request output threads
  cases result with
  | error failure => exact (silent_pure _).performs
  | ok stats =>
    cases request.isEmpty with
    | true => exact (silent_pure _).performs
    | false => exact performs_report (.computed _ _ _ _ _ _ _) rfl _

/-- Packing for a level, reported if it succeeds. -/
theorem Panel.packWith_some (level : Level) (source : Packing.Source) (blockRows : Nat) :
    Panel.packWith level source (some blockRows) = (do
      let arithmetic ← (Dispatcher.arithmetic : Attempt Arithmetic)
      let panel ← Attempt.ofFailing (Panel.pack arithmetic level source blockRows)
      Dispatcher.report
        (.packed panel.rows panel.columns level panel.shape.columnBlocks panel.width)
      return panel) := by
  simp only [packWith, pure_bind]

/-- Without a height the configured one is used. -/
theorem Panel.packWith_none (level : Level) (source : Packing.Source) :
    Panel.packWith level source none = Attempt.ofDispatch Dispatcher.config >>=
      fun config ↦ Panel.packWith level source (some config.blockRows) := by
  simp only [packWith, pure_bind, bind_map_left]

/-- Packing with a height that is given. -/
theorem Panel.performs_packWith_some (level : Level) (source : Packing.Source) (blockRows : Nat) :
    Performs platform kind (Panel.packWith level source (some blockRows)).run
      (Panel.pack platform.arithmetic level source blockRows) false := by
  rw [packWith_some]
  refine Attempt.performs_lift_bind silent_arithmetic ?_
  cases Panel.pack platform.arithmetic level source blockRows with
  | ok panel => exact performs_report (.packed _ _ _ _ _) rfl _
  | error failure => exact (silent_pure _).performs

/-- Packing with the height of the configuration. -/
theorem Panel.performs_packWith_none {settings : Except Refusal Config}
    (h : ∀ environment, kind environment → Config.read environment = settings)
    (level : Level) (source : Packing.Source) :
    Performs platform kind (Panel.packWith level source none).run
      (do
        let config ← Refusal.check settings
        Panel.pack platform.arithmetic level source config.blockRows) false := by
  rw [packWith_none]
  exact Attempt.performs_config_bind h fun config _ ↦
    Panel.performs_packWith_some level source config.blockRows

namespace Dense

/-- A call with a preparation. -/
theorem performs_prepared {α : Type} {attempt : Attempt α} {result : Except Failure α}
    {call : α → Dispatch (Outcome RunStats)} {call' : α → Outcome RunStats} {asks : Bool}
    (h : Performs platform kind attempt.run result asks)
    (hcall : ∀ value, Performs platform kind (call value) (call' value) false)
    (output : Array Single) :
    Performs platform kind (prepared attempt output call) (.afterwards result output call')
      asks := by
  refine Performs.bind h ?_
  cases result with
  | ok value => exact hcall value
  | error failure => exact (silent_pure _).performs

theorem performs_gemm (orientation : Orientation) (m : Int) (left : Array Single) (panel : Panel)
    (beta : Single) (output : Array Single) (thread threads : Nat) :
    Performs platform kind (gemm orientation m left panel beta output thread threads)
      (.afterwards (shareParts platform m left panel output thread threads) output
        fun (rows, slot, engine) ↦ engine.runShare
          (request platform.arithmetic orientation rows left panel beta) output slot) false := by
  refine silent_arithmetic.bind <| performs_prepared ?_
    (fun (rows, slot, engine) ↦ (silent_pure _).performs) output
  exact Attempt.performs_bind (Attempt.silent_ofExcept _).performs fun rows _ ↦
    Attempt.performs_bind (Attempt.silent_ofExcept _).performs fun slot _ ↦
    Attempt.performs_bind (Attempt.silent_ofFailing _).performs fun _ _ ↦
    Attempt.performs_bind (Engine.performs_ofLevel _) fun engine _ ↦ (silent_pure _).performs

theorem performs_gemmParallel (orientation : Orientation) (m : Int) (left : Array Single)
    (panel : Panel) (beta : Single) (output : Array Single) (threads : Nat) :
    Performs platform kind (gemmParallel orientation m left panel beta output threads)
      (.afterwards (productParts platform m left panel output) output fun (rows, engine) ↦
        engine.run (request platform.arithmetic orientation rows left panel beta) output threads)
      false := by
  refine silent_arithmetic.bind <| performs_prepared ?_
    (fun (rows, engine) ↦ Engine.performs_runReported engine _ output threads) output
  exact Attempt.performs_bind (Attempt.silent_ofExcept _).performs fun rows _ ↦
    Attempt.performs_bind (Attempt.silent_ofFailing _).performs fun _ _ ↦
    Attempt.performs_bind (Engine.performs_ofLevel _) fun engine _ ↦ (silent_pure _).performs

section Settings

variable {settings : Except Refusal Config}

/-- The settings are consulted once both extents are accepted. -/
theorem performs_pack (data : Array Single) (k n : Int) (stride : Nat)
    (h : 0 ≤ k ∧ 0 ≤ n → ∀ environment, kind environment → Config.read environment = settings) :
    Performs platform kind (pack data k n stride).run (packUnder platform settings data k n stride)
      (decide (0 ≤ k ∧ 0 ≤ n)) := by
  have hasks : decide (0 ≤ k ∧ 0 ≤ n) = ((Refusal.check (extent "k" k)).isOk &&
      ((Refusal.check (extent "n" n)).isOk && true)) := by
    rw [isOk_extent, isOk_extent, Bool.and_true, Bool.decide_and]
  rw [hasks]
  refine Attempt.silent_bind (Attempt.silent_ofExcept _) fun rows hrows ↦
    Attempt.silent_bind (Attempt.silent_ofExcept _) fun columns hcolumns ↦ ?_
  have hread := h ⟨nonneg_of_extent hrows, nonneg_of_extent hcolumns⟩
  refine Attempt.performs_level_bind hread fun config hconfig ↦ ?_
  rw [hconfig] at hread
  exact Panel.performs_packWith_none hread (config.level platform.host)
    ⟨data, .plain, stride, rows, columns, .one⟩

/-- The settings are consulted once the sizes of all operands are accepted. -/
theorem performs_multiply (left right output : Array Single) (m n k threads : Nat)
    (h : (checkSizes platform.arithmetic left right output m n k).isOk = true →
      ∀ environment, kind environment → Config.read environment = settings) :
    Performs platform kind (multiply left right output m n k threads)
      (.afterwards (multiplyParts platform settings left right output m n k) output
        fun (panel, engine) ↦ engine.run (request platform.arithmetic .plain m left panel .one)
          output (ThreadBudget.chooseThreads m n k threads))
      (checkSizes platform.arithmetic left right output m n k).isOk := by
  rw [isOk_checkSizes, multiplyParts, checkSizes]
  simp only [bind_assoc]
  refine silent_arithmetic.bind <| performs_prepared ?_ (fun (panel, engine) ↦
    Engine.performs_runReported engine _ output (ThreadBudget.chooseThreads m n k threads)) output
  refine Attempt.silent_bind (Attempt.silent_ofFailing _) fun _ hleft ↦
    Attempt.silent_bind (Attempt.silent_ofFailing _) fun _ hright ↦
    Attempt.silent_bind (Attempt.silent_ofFailing _) fun _ houtput ↦ ?_
  have hread := h (by rw [isOk_checkSizes, hleft, hright, houtput]; rfl)
  refine Attempt.performs_level_bind hread fun config hconfig ↦ ?_
  rw [hconfig] at hread
  exact Attempt.performs_bind (Panel.performs_packWith_none hread _ _) fun panel _ ↦
    Attempt.performs_bind (Engine.performs_ofLevel _) fun engine _ ↦ (silent_pure _).performs

end Settings

end Dense

/-- A call answers what its settings say, and it asks for the level if it detects it. -/
theorem Call.performs {settings : Except Refusal Config} (call : Call)
    (h : call.consults platform = true →
      ∀ environment, kind environment → Config.read environment = settings) :
    Performs platform kind call.perform (call.answer platform settings)
      (call.detects platform) := by
  cases call with
  | capability => exact (performs_level (h rfl)).map Answer.level
  | configuration => exact (silent_config (h rfl)).performs.map Answer.config
  | detected =>
    have hengine : Performs platform kind Engine.detected.run _ true :=
      Attempt.performs_level_bind (h rfl) fun config _ ↦
        Engine.performs_ofLevel (config.level platform.host)
    exact hengine.map Answer.engine
  | engineFor level => exact (Engine.performs_ofLevel level).map Answer.engine
  | packWith level source blockRows? =>
    cases blockRows? with
    | none => exact (Panel.performs_packWith_none (h rfl) level source).map Answer.panel
    | some blockRows =>
      exact (Panel.performs_packWith_some level source blockRows).map Answer.panel
  | pack data k n stride =>
    exact (Dense.performs_pack data k n stride fun hsigns ↦ h (decide_eq_true hsigns)).map
      Answer.panel
  | run engine request output threads =>
    exact (engine.performs_runReported request output threads).map Answer.outcome
  | runShare engine request output slot => exact (silent_pure _).performs
  | gemm orientation m left panel beta output thread threads =>
    exact (Dense.performs_gemm orientation m left panel beta output thread threads).map
      Answer.outcome
  | gemmParallel orientation m left panel beta output threads =>
    exact (Dense.performs_gemmParallel orientation m left panel beta output threads).map
      Answer.outcome
  | multiply left right output m n k threads =>
    exact (Dense.performs_multiply left right output m n k threads h).map Answer.outcome

end Calls

/-- What a call reports itself is determined by the settings, and by nothing if it does not consult
them. -/
theorem Call.exists_reports (platform : Platform) :
    ∃ own : Except Refusal Config → Call → List Event,
    (∀ settings call, ∀ event ∈ own settings call, event.announces = false) ∧
    (∀ call : Call, call.consults platform = false →
      ∀ settings settings', own settings call = own settings' call) ∧
    ∀ environment (call : Call), Dispatch.Runs platform environment call.perform
      (call.answer platform (Config.read environment)) (call.detects platform)
      (own (Config.read environment) call) := by
  have hperforms : ∀ settings (call : Call), ∃ own : List Event,
      (∀ event ∈ own, event.announces = false) ∧ ∀ environment : Environment,
        (call.consults platform = true → Config.read environment = settings) →
          Dispatch.Runs platform environment call.perform (call.answer platform settings)
            (call.detects platform) own :=
    fun settings call ↦ call.performs fun hconsults _ hkind ↦ hkind hconsults
  choose own hown hruns using hperforms
  -- the settings to choose the events for are fixed where the call does not look at them
  let fixed (settings : Except Refusal Config) (call : Call) : Except Refusal Config :=
    if call.consults platform = true then settings else Config.read .unset
  refine ⟨fun settings call ↦ own (fixed settings call) call,
    fun settings call ↦ hown (fixed settings call) call, fun call hconsults settings settings' ↦ ?_,
    fun environment call ↦ ?_⟩
  · simp only [fixed, hconsults, Bool.false_eq_true, if_false]
  · cases hconsults : call.consults platform with
    | true =>
      simp only [fixed, hconsults, if_true]
      exact hruns _ call environment fun _ ↦ rfl
    | false =>
      simp only [fixed, hconsults, Bool.false_eq_true, if_false]
      rw [Call.answer_of_not_consults hconsults _ (Config.read .unset)]
      exact hruns _ call environment fun h ↦ absurd h (by simp [hconsults])

/-! ### Sessions -/

/-- An answer, and the events that are reported before it is given. -/
structure Reply where
  answer : Answer
  events : List Event

namespace Dispatch

/-- The replies to calls that are made one after another. -/
def replies : List Call → Dispatch (List Reply)
  | [] => return []
  | call :: calls => do
    let reported := (← get).events.size
    let answer ← call.perform
    let events := (← get).events.toList.drop reported
    return ⟨answer, events⟩ :: (← replies calls)

variable {platform : Platform} {environment : Environment} {settings : Except Refusal Config}
  {dispatcher : Dispatcher}

/-- A step answers its call, and leaves the rest of the session a dispatcher whose caches hold the
same. -/
theorem replies_cons {call : Call} {answer : Answer} {asks : Bool} {own : List Event}
    (h : Runs platform environment call.perform answer asks own)
    (hcoherent : dispatcher.Coherent platform environment) (calls : List Call) :
    ∃ after : Dispatcher, after.Coherent platform environment ∧
      after.level?.isSome = (dispatcher.level?.isSome || asks) ∧
      ((replies (call :: calls)).run dispatcher).1 =
        ⟨answer, dispatcher.news platform.host environment asks ++ own⟩ ::
          ((replies calls).run after).1 := by
  obtain ⟨after, hrun, hafter, hlevel, hevents⟩ := h dispatcher hcoherent
  refine ⟨after, hafter, hlevel, ?_⟩
  change ⟨(call.perform.run dispatcher).1,
      (call.perform.run dispatcher).2.events.toList.drop dispatcher.events.size⟩ ::
    ((replies calls).run (call.perform.run dispatcher).2).1 = _
  rw [hrun]
  dsimp only
  rw [hevents, List.drop_left' Array.length_toList]

/-- The reply to a call does not depend on the calls before it, except that the level is announced
if none of them has detected it. -/
theorem getElem?_replies {own : Call → List Event}
    (hruns : ∀ call : Call, Runs platform environment call.perform
      (call.answer platform settings) (call.detects platform) (own call))
    (before : List Call) (call : Call) (after : List Call)
    (hcoherent : dispatcher.Coherent platform environment) :
    ((replies (before ++ call :: after)).run dispatcher).1[before.length]? =
      some ⟨call.answer platform settings,
        (if call.detects platform = true ∧ dispatcher.level? = none ∧
            ∀ earlier ∈ before, earlier.detects platform = false then
          environment.announcement platform.host
        else []) ++ own call⟩ := by
  induction before generalizing dispatcher with
  | nil =>
    obtain ⟨middle, -, -, hreplies⟩ := replies_cons (hruns call) hcoherent after
    rw [List.nil_append, hreplies]
    simp [Dispatcher.news]
  | cons first before ih =>
    obtain ⟨middle, hmiddle, hlevel, hreplies⟩ :=
      replies_cons (hruns first) hcoherent (before ++ call :: after)
    have hnone : middle.level? = none ↔ dispatcher.level? = none ∧
        first.detects platform = false := by
      rw [← Option.not_isSome_iff_eq_none, hlevel, Bool.or_eq_true, not_or,
        Option.not_isSome_iff_eq_none, Bool.not_eq_true]
    rw [List.cons_append, hreplies, List.length_cons, List.getElem?_cons_succ, ih hmiddle]
    simp only [hnone, List.forall_mem_cons, and_assoc]

end Dispatch

/-- What a running program replies to the calls of a session. -/
def Environment.replies (platform : Platform) (environment : Environment) (calls : List Call) :
    List Reply :=
  ((Dispatch.replies calls).run (.start platform environment)).1

/-- What a running program answers to a call between other ones. -/
def Environment.answer? (platform : Platform) (environment : Environment) (before : List Call)
    (call : Call) (after : List Call) : Option Answer :=
  (environment.replies platform (before ++ call :: after))[before.length]?.map Reply.answer

/-- A call answers for the settings of its environment, wherever it stands in a session. -/
theorem Environment.answer?_eq (platform : Platform) (environment : Environment)
    (before : List Call) (call : Call) (after : List Call) :
    environment.answer? platform before call after =
      some (call.answer platform (Config.read environment)) := by
  obtain ⟨own, -, -, hruns⟩ := Call.exists_reports platform
  have hreply := Dispatch.getElem?_replies (hruns environment) before call after
    (Dispatcher.coherent_start platform environment)
  rw [answer?, replies, hreply, Option.map_some]

/-- A processor with narrow registers only. -/
def Host.narrow : Host := ⟨true, true, false, false⟩

end PanelGemm
