import PanelGemm.Proofs.Dispatch.Answers

/-!
# Caches of a dispatcher

The caches of a dispatcher only ever hold what its environment settles (`Dispatcher.Coherent`). The
configuration is therefore the same whenever it is asked for, and so is the level, which is
announced when it is decided. `Dispatch.Runs` says what an action does to a dispatcher whose caches
are filled as far as may be; actions that run one after another carry it on.
-/

set_option autoImplicit false
set_option relaxedAutoImplicit false

namespace PanelGemm

/-! ### What a dispatcher holds -/

/-- Whether an event tells the level to dispatch for, or that another one was asked for. -/
def Event.announces : Event → Bool
  | overruled _ _ | dispatching _ => true
  | _ => false

/-- The announcement of the level that a configuration settles on. A level that was asked for in
vain is named before it. -/
def Config.announcement (host : Host) (config : Config) : List Event :=
  let overruling := match config.levelOverride with
    | some wanted => if host.supports wanted then [] else [.overruled wanted (config.level host)]
    | none => []
  overruling ++ [.dispatching (config.level host)]

/-- What is announced on a host in an environment. -/
def Environment.announcement (host : Host) (environment : Environment) : List Event :=
  match Config.read environment with
  | .ok config => config.announcement host
  | .error _ => []

/-- A dispatcher was started on a platform in an environment, and its caches hold what these settle,
as far as they are filled. -/
structure Dispatcher.Coherent (platform : Platform) (environment : Environment)
    (dispatcher : Dispatcher) : Prop where
  ground : dispatcher.platform = platform
  started : dispatcher.environment = environment
  config : ∀ config, dispatcher.config? = some config → config = Config.read environment
  level : ∀ level, dispatcher.level? = some level →
    level = Config.level platform.host <$> Config.read environment

theorem Dispatcher.coherent_start (platform : Platform) (environment : Environment) :
    (Dispatcher.start platform environment).Coherent platform environment :=
  ⟨rfl, rfl, nofun, nofun⟩

/-- What a dispatcher announces when it is asked for the level. -/
def Dispatcher.news (host : Host) (environment : Environment) (dispatcher : Dispatcher)
    (asks : Bool) : List Event :=
  if asks = true ∧ dispatcher.level? = none then environment.announcement host else []

namespace Dispatch

variable {platform : Platform} {environment : Environment} {kind : Environment → Prop}
  {α β : Type} {action : Dispatch α} {next : α → Dispatch β} {value : α} {result : β}
  {asks : Bool} {own : List Event}

/-- An action gives a value and reports events of its own, whatever the caches of the dispatcher
hold already, and the dispatcher announces the level if the action is the first one to ask for
it. -/
def Runs (platform : Platform) (environment : Environment) (action : Dispatch α) (value : α)
    (asks : Bool) (own : List Event) : Prop :=
  ∀ dispatcher : Dispatcher, dispatcher.Coherent platform environment → ∃ after : Dispatcher,
    action.run dispatcher = (value, after) ∧ after.Coherent platform environment ∧
    after.level?.isSome = (dispatcher.level?.isSome || asks) ∧
    after.events.toList =
      dispatcher.events.toList ++ (dispatcher.news platform.host environment asks ++ own)

/-- An action that does not ask for the level and reports nothing, and that gives the same value in
all environments of a kind. -/
def Silent (platform : Platform) (kind : Environment → Prop) (action : Dispatch α) (value : α) :
    Prop :=
  ∀ environment, kind environment → Runs platform environment action value false []

/-- An action that gives the same value in all environments of a kind, and reports the same events,
none of which is an announcement. -/
def Performs (platform : Platform) (kind : Environment → Prop) (action : Dispatch α) (value : α)
    (asks : Bool) : Prop :=
  ∃ own, (∀ event ∈ own, event.announces = false) ∧
    ∀ environment, kind environment → Runs platform environment action value asks own

theorem silent_pure (value : α) : Silent platform kind (pure value) value := fun _ _ dispatcher h ↦
  ⟨dispatcher, rfl, h, (Bool.or_false _).symm, (List.append_nil _).symm⟩

theorem Silent.performs (h : Silent platform kind action value) :
    Performs platform kind action value false :=
  ⟨[], nofun, h⟩

/-- The processor is looked up in silence. -/
theorem silent_host : Silent platform kind Dispatcher.host platform.host :=
  fun _ _ dispatcher h ↦ ⟨dispatcher, h.ground ▸ rfl, h, (Bool.or_false _).symm,
    (List.append_nil _).symm⟩

/-- The arithmetic is looked up in silence. -/
theorem silent_arithmetic : Silent platform kind Dispatcher.arithmetic platform.arithmetic :=
  fun _ _ dispatcher h ↦ ⟨dispatcher, h.ground ▸ rfl, h, (Bool.or_false _).symm,
    (List.append_nil _).symm⟩

/-- The second of two actions announces the level if the first one has not. -/
theorem news_bind {dispatcher middle : Dispatcher} {asks' : Bool}
    (h : middle.level?.isSome = (dispatcher.level?.isSome || asks)) :
    dispatcher.news platform.host environment asks ++ middle.news platform.host environment asks' =
      dispatcher.news platform.host environment (asks || asks') := by
  unfold Dispatcher.news
  cases asks with
  | true =>
    have hsome : middle.level? ≠ none := by
      rw [← Option.isSome_iff_ne_none, h, Bool.or_true]
    simp [hsome]
  | false =>
    have hnone : middle.level? = none ↔ dispatcher.level? = none := by
      rw [← Option.not_isSome_iff_eq_none, h, Bool.or_false, Option.not_isSome_iff_eq_none]
    simp [hnone]

/-- An action that asks for the level is not preceded by one that reports something. -/
theorem Runs.bind {asks' : Bool} {own' : List Event}
    (h : Runs platform environment action value asks own)
    (hnext : Runs platform environment (next value) result asks' own')
    (hown : asks' = true → own = []) :
    Runs platform environment (action >>= next) result (asks || asks') (own ++ own') := by
  intro dispatcher hcoherent
  obtain ⟨middle, hrun, hmiddle, hlevel, hevents⟩ := h dispatcher hcoherent
  obtain ⟨after, hrun', hafter, hlevel', hevents'⟩ := hnext middle hmiddle
  have hnews : own ++ middle.news platform.host environment asks' =
      middle.news platform.host environment asks' ++ own := by
    cases asks' with
    | true => rw [hown rfl, List.nil_append, List.append_nil]
    | false => exact List.append_nil own
  refine ⟨after, ?_, hafter, ?_, ?_⟩
  · change (next (action.run dispatcher).1).run (action.run dispatcher).2 = _
    rw [hrun]
    exact hrun'
  · rw [hlevel', hlevel, Bool.or_assoc]
  · rw [hevents', hevents, ← news_bind hlevel]
    simp only [List.append_assoc]
    rw [← List.append_assoc own, hnews, List.append_assoc]

theorem Silent.bind (h : Silent platform kind action value)
    (hnext : Performs platform kind (next value) result asks) :
    Performs platform kind (action >>= next) result asks := by
  obtain ⟨own, hown, hruns⟩ := hnext
  exact ⟨own, hown, fun environment hkind ↦
    (h environment hkind).bind (hruns environment hkind) fun _ ↦ rfl⟩

theorem Silent.map (h : Silent platform kind action value) (f : α → β) :
    Silent platform kind (f <$> action) (f value) := by
  intro environment hkind
  rw [← bind_pure_comp]
  exact (h environment hkind).bind (silent_pure (f value) environment hkind) nofun

theorem Performs.bind (h : Performs platform kind action value asks)
    (hnext : Performs platform kind (next value) result false) :
    Performs platform kind (action >>= next) result asks := by
  obtain ⟨own, hown, hruns⟩ := h
  obtain ⟨own', hown', hruns'⟩ := hnext
  refine ⟨own ++ own', fun event hevent ↦ ?_, fun environment hkind ↦ ?_⟩
  · exact (List.mem_append.mp hevent).elim (hown event) (hown' event)
  · have hboth := (hruns environment hkind).bind (hruns' environment hkind) nofun
    rwa [Bool.or_false] at hboth

theorem Performs.map (h : Performs platform kind action value asks) (f : α → β) :
    Performs platform kind (f <$> action) (f value) asks := by
  rw [← bind_pure_comp]
  exact h.bind (silent_pure (f value)).performs

theorem performs_report (event : Event) (h : event.announces = false) (value : α) :
    Performs platform kind (Dispatcher.report event >>= fun _ ↦ pure value) value false := by
  refine ⟨[event], fun other hother ↦ List.mem_singleton.mp hother ▸ h, ?_⟩
  intro environment _ dispatcher hcoherent
  exact ⟨{ dispatcher with events := dispatcher.events.push event }, rfl,
    ⟨hcoherent.ground, hcoherent.started, hcoherent.config, hcoherent.level⟩,
    (Bool.or_false _).symm, Array.toList_push⟩

/-! ### Reading once -/

/-- The configuration is what the environment settles, and it is kept. -/
theorem run_config {dispatcher : Dispatcher} (h : dispatcher.Coherent platform environment) :
    Dispatcher.config.run dispatcher = (Config.read environment,
      { dispatcher with config? := some (Config.read environment) }) := by
  obtain ⟨platform', started, config?, level?, events⟩ := dispatcher
  obtain rfl : started = environment := h.started
  cases config? with
  | none => rfl
  | some config =>
    obtain rfl : config = Config.read started := h.config config rfl
    rfl

/-- The choice of a level is announced. -/
theorem run_chooseLevel (config : Config) {dispatcher : Dispatcher}
    (h : dispatcher.platform = platform) :
    (Dispatcher.chooseLevel config.levelOverride).run dispatcher = (config.level platform.host,
      { dispatcher with events := dispatcher.events ++ config.announcement platform.host }) := by
  obtain ⟨levelOverride, blockRows⟩ := config
  subst h
  cases levelOverride with
  | none => rfl
  | some wanted =>
    cases hsupported : dispatcher.platform.host.supports wanted with
    | true =>
      simp only [Dispatcher.chooseLevel, Dispatcher.host, Config.announcement, hsupported,
        StateT.run_bind, StateT.run_get, StateT.run_map, pure_bind, bind_map_left, bind_pure_comp,
        Bool.not_true, Bool.false_eq_true, ↓reduceIte, List.nil_append, Array.appendList_cons,
        Array.appendList_nil]
      rfl
    | false =>
      simp only [Dispatcher.chooseLevel, Dispatcher.host, Config.announcement, hsupported,
        StateT.run_bind, StateT.run_get, StateT.run_map, pure_bind, bind_map_left, bind_pure_comp,
        Bool.not_false, Bool.false_eq_true, ↓reduceIte, List.cons_append, List.nil_append,
        Array.appendList_cons, Array.appendList_nil]
      rfl

/-- The level that the environment settles is announced when it is decided, and kept. -/
theorem run_level {dispatcher : Dispatcher} (h : dispatcher.Coherent platform environment) :
    ∃ after, Dispatcher.level.run dispatcher =
        (Config.level platform.host <$> Config.read environment, after) ∧
      after.Coherent platform environment ∧ after.level?.isSome = true ∧
      after.events = dispatcher.events ++ dispatcher.news platform.host environment true := by
  cases hlevel : dispatcher.level? with
  | some level =>
    refine ⟨dispatcher, ?_, h, Option.isSome_iff_exists.mpr ⟨level, hlevel⟩, ?_⟩
    · rw [← h.level level hlevel]
      obtain ⟨platform', started, config?, level?, events⟩ := dispatcher
      cases hlevel
      rfl
    · simp [Dispatcher.news, hlevel]
  | none =>
    have hfirst : Dispatcher.level.run dispatcher = (do
        let level ← match ← Dispatcher.config with
          | .ok config => Except.ok <$> Dispatcher.chooseLevel config.levelOverride
          | .error reason => pure (.error reason)
        modify fun dispatcher ↦ { dispatcher with level? := some level }
        return level : Dispatch (Except Refusal Level)).run dispatcher := by
      obtain ⟨platform', started, config?, level?, events⟩ := dispatcher
      cases hlevel
      rfl
    rw [hfirst]
    simp only [StateT.run_bind, run_config h]
    unfold Dispatcher.news Environment.announcement
    cases hread : Config.read environment with
    | error reason =>
      refine ⟨{ dispatcher with config? := some (.error reason), level? := some (.error reason) },
        rfl, ⟨h.ground, h.started, fun _ hconfig ↦ ?_, fun _ hdecided ↦ ?_⟩, rfl, ?_⟩
      · rw [hread, ← Option.some.inj hconfig]
      · rw [hread, ← Option.some.inj hdecided]
        rfl
      · simp
    | ok config =>
      refine ⟨{ dispatcher with
        config? := some (.ok config)
        level? := some (.ok (config.level platform.host))
        events := dispatcher.events ++ config.announcement platform.host }, ?_,
        ⟨h.ground, h.started, fun _ hconfig ↦ ?_, fun _ hdecided ↦ ?_⟩, rfl, ?_⟩
      · change ((Except.ok <$> Dispatcher.chooseLevel config.levelOverride :
          Dispatch (Except Refusal Level)) >>= _).run _ = _
        rw [StateT.run_bind, StateT.run_map, run_chooseLevel config]
        · rfl
        · exact h.ground
      · rw [hread, ← Option.some.inj hconfig]
      · rw [hread, ← Option.some.inj hdecided]
        rfl
      · simp [hlevel]

section Settings

variable {settings : Except Refusal Config}
  (h : ∀ environment, kind environment → Config.read environment = settings)
include h

/-- The configuration is the same whenever it is asked for. -/
theorem silent_config : Silent platform kind Dispatcher.config settings := by
  intro environment hkind dispatcher hcoherent
  rw [← h environment hkind]
  exact ⟨_, run_config hcoherent,
    ⟨hcoherent.ground, hcoherent.started, fun _ h ↦ (Option.some.inj h).symm, hcoherent.level⟩,
    (Bool.or_false _).symm, (List.append_nil _).symm⟩

/-- The level is the same whenever it is asked for. -/
theorem performs_level : Performs platform kind Dispatcher.level
    (Config.level platform.host <$> settings) true := by
  refine ⟨[], nofun, fun environment hkind dispatcher hcoherent ↦ ?_⟩
  rw [← h environment hkind]
  obtain ⟨after, hrun, hafter, hlevel, hevents⟩ := run_level hcoherent
  refine ⟨after, hrun, hafter, hlevel.trans (Bool.or_true _).symm, ?_⟩
  rw [hevents, Array.toList_appendList, List.append_nil]

end Settings

end Dispatch

/-! ### Attempts -/

namespace Attempt

open Dispatch

variable {platform : Platform} {kind : Environment → Prop} {α β : Type} {attempt : Attempt α}
  {next : α → Attempt β} {result : Except Failure α} {next' : α → Except Failure β} {asks : Bool}

theorem silent_ofExcept (result : Except Refusal α) :
    Silent platform kind (ofExcept result).run (Refusal.check result) := silent_pure _

theorem silent_ofFailing (result : Except Failure α) :
    Silent platform kind (ofFailing result).run result := silent_pure _

/-- What is looked up in silence at the start of an attempt asks for nothing. -/
theorem performs_lift_bind {action : Dispatch α} {value : α} {result : Except Failure β}
    (h : Silent platform kind action value)
    (hnext : Performs platform kind (next value).run result asks) :
    Performs platform kind ((liftM action : Attempt α) >>= next).run result asks := by
  have hbind : Performs platform kind
      ((liftM action : Attempt α).run >>= ExceptT.bindCont next) result asks :=
    (h.map Except.ok).bind hnext
  exact hbind

/-- An attempt that fails ends what would come after it. -/
theorem performs_bind (h : Performs platform kind attempt.run result asks)
    (hnext : ∀ value, result = .ok value →
      Performs platform kind (next value).run (next' value) false) :
    Performs platform kind (attempt >>= next).run (result >>= next') asks := by
  have hbind : Performs platform kind (attempt.run >>= ExceptT.bindCont next)
      (result >>= next') asks := by
    refine h.bind ?_
    cases result with
    | ok value => exact hnext value rfl
    | error failure => exact (silent_pure _).performs
  exact hbind

/-- What would have asked for the level does not if the attempt before it fails. -/
theorem silent_bind (h : Silent platform kind attempt.run result)
    (hnext : ∀ value, result = .ok value →
      Performs platform kind (next value).run (next' value) asks) :
    Performs platform kind (attempt >>= next).run (result >>= next') (result.isOk && asks) := by
  have hbind : Performs platform kind (attempt.run >>= ExceptT.bindCont next) (result >>= next')
      (result.isOk && asks) := by
    refine h.bind ?_
    cases result with
    | ok value => exact hnext value rfl
    | error failure => exact (silent_pure _).performs
  exact hbind

section Settings

variable {settings : Except Refusal Config}
  (h : ∀ environment, kind environment → Config.read environment = settings)
include h

/-- An attempt that starts with the configuration. -/
theorem performs_config_bind {next : Config → Attempt β} {next' : Config → Except Failure β}
    (hnext : ∀ config, settings = .ok config →
      Performs platform kind (next config).run (next' config) false) :
    Performs platform kind (ofDispatch Dispatcher.config >>= next).run
      (Refusal.check settings >>= next') false := by
  refine performs_bind ((silent_config h).performs.map Refusal.check) fun config hconfig ↦ ?_
  cases settings with
  | ok config' => exact Except.ok.inj hconfig ▸ hnext config' rfl
  | error reason => exact nomatch hconfig

/-- An attempt that starts with the decided level. -/
theorem performs_level_bind {next : Level → Attempt β} {next' : Config → Except Failure β}
    (hnext : ∀ config, settings = .ok config →
      Performs platform kind (next (config.level platform.host)).run (next' config) false) :
    Performs platform kind (ofDispatch Dispatcher.level >>= next).run
      (Refusal.check settings >>= next') true := by
  have hlevel : Performs platform kind (ofDispatch Dispatcher.level).run
      (Refusal.check (Config.level platform.host <$> settings)) true :=
    (performs_level h).map Refusal.check
  have hbind : Performs platform kind ((ofDispatch Dispatcher.level).run >>= ExceptT.bindCont next)
      (Refusal.check settings >>= next') true := by
    refine hlevel.bind ?_
    cases settings with
    | ok config => exact hnext config rfl
    | error reason => exact (silent_pure _).performs
  exact hbind

end Settings

end Attempt

end PanelGemm
