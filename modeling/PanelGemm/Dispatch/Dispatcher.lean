import PanelGemm.Arithmetic
import PanelGemm.Config
import PanelGemm.Dispatch.Event
import PanelGemm.Host

/-!
# The dispatcher

A `Dispatcher` belongs to one running program. It has the platform and the environment the program
was started with, what it has read from them once and for all, and the events it has reported. The
configuration and the level to dispatch for are settled at their first use, a refusal like a
success, and never looked up again. `Dispatcher.settled` has already decided on its level.
-/

set_option autoImplicit false
set_option relaxedAutoImplicit false

namespace PanelGemm

/-- What a program runs on: the processor, and the arithmetic that it is built with. -/
structure Platform where
  host : Host
  arithmetic : Arithmetic

/-- What a running program knows about its dispatch, and what it has reported. -/
structure Dispatcher where
  platform : Platform
  environment : Environment
  config? : Option (Except Refusal Config)
  level? : Option (Except Refusal Level)
  events : Array Event

/-- An action of the dispatcher. -/
abbrev Dispatch := StateM Dispatcher

/-- An action of the dispatcher that may fail. -/
abbrev Attempt := ExceptT Failure Dispatch

namespace Dispatcher

/-- The dispatcher of a program that has just started. -/
def start (platform : Platform) (environment : Environment) : Dispatcher :=
  ⟨platform, environment, none, none, #[]⟩

/-- The processor that the program runs on. -/
def host : Dispatch Host := do return (← get).platform.host

/-- The arithmetic that the program is built with. -/
def arithmetic : Dispatch Arithmetic := do return (← get).platform.arithmetic

/-- Reports an event. -/
def report (event : Event) : Dispatch Unit :=
  modify fun dispatcher ↦ { dispatcher with events := dispatcher.events.push event }

/-- The configuration, read at the first call. -/
def config : Dispatch (Except Refusal Config) := do
  let dispatcher ← get
  match dispatcher.config? with
  | some config => return config
  | none =>
    let config := Config.read dispatcher.environment
    set { dispatcher with config? := some config }
    return config

/-- Chooses the level to dispatch for and reports the choice. -/
def chooseLevel (requested : Option Level) : Dispatch Level := do
  let host ← host
  let level := host.resolve requested
  match requested with
  | some wanted =>
    if !host.supports wanted then report (.overruled wanted level)
  | none => pure ()
  report (.dispatching level)
  return level

/-- The level to dispatch for, decided at the first call. -/
def level : Dispatch (Except Refusal Level) := do
  match (← get).level? with
  | some level => return level
  | none =>
    let level ← match ← config with
      | .ok config => Except.ok <$> chooseLevel config.levelOverride
      | .error reason => pure (.error reason)
    modify fun dispatcher ↦ { dispatcher with level? := some level }
    return level

/-- A dispatcher with an empty environment that has already decided on its level and forgotten what
it reported. -/
def settled (platform : Platform) : Dispatcher :=
  let dispatcher := (level.run (start platform Environment.unset)).2
  { dispatcher with events := #[] }

end Dispatcher

namespace Attempt

/-- A result or refusal as an action. -/
def ofExcept {α : Type} (result : Except Refusal α) : Attempt α :=
  ExceptT.mk (pure (Refusal.check result))

/-- A result or failure as an action. -/
def ofFailing {α : Type} (result : Except Failure α) : Attempt α := ExceptT.mk (pure result)

/-- An action that gives a result or a refusal. -/
def ofDispatch {α : Type} (action : Dispatch (Except Refusal α)) : Attempt α :=
  ExceptT.mk (Refusal.check <$> action)

end Attempt

end PanelGemm
