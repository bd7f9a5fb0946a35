import Mathlib.Logic.Function.Basic
import Mathlib.Logic.Relation
import PanelGemm.Threads.Workers

/-!
# Teams

`Workers.run` gives every worker its turn. A `Team` is a run of workers that share the output and go
on side by side, one small step of one worker at a time (`Team.Step`). The caller spawns the workers
in order and joins them in order. A worker meets the others at a barrier before it starts and again
when its work has ended, in whatever way; only then does its thread end. In between it carries out a
`Procedure`, which looks at its band and writes one element after another. Its work starts with a
look at its first tile, and a worker that has none is lost there, before its second meeting.

The barrier counts the workers that have arrived. The last one starts a new generation, and the
others leave when they see that the generation in which they arrived is over. The caller adds up
what it gathers as words, and goes on to join the workers that are left if there is no word for the
sum.
-/

set_option autoImplicit false
set_option relaxedAutoImplicit false

namespace PanelGemm

/-! ### Work in steps -/

/-- What a procedure does next with its band. A write outside the band has no effect. -/
inductive Action (State : Type) where
  | write (position : Nat) (value : Single) (next : State)
  | finish (result : Except Failure Nat)

/-- Work in steps, for the tiles on a band and the row at which the band starts. Every step looks at
the band as it is. -/
structure Procedure where
  State : Type
  start : List Tile → Nat → State
  step : State → Array Single → Action State

/-- A procedure that goes on from a state takes a number of writes to an outcome, if nobody else
writes to its band. -/
inductive Procedure.Takes (procedure : Procedure) :
    Nat → procedure.State → Array Single → Outcome Nat → Prop
  | finish {state : procedure.State} {band : Array Single} {result : Except Failure Nat}
      (h : procedure.step state band = .finish result) :
      procedure.Takes 0 state band ⟨result, band⟩
  | write {writes position : Nat} {state next : procedure.State} {band : Array Single}
      {value : Single} {outcome : Outcome Nat}
      (h : procedure.step state band = .write position value next)
      (hrest : procedure.Takes writes next (band.setIfInBounds position value) outcome) :
      procedure.Takes (writes + 1) state band outcome

/-- What a worker of a team is given: a window of the output and the tiles in it. -/
structure Task where
  window : Span
  tiles : List Tile

namespace Task

/-- What a worker sees of the output. -/
def band (task : Task) (output : Array Single) : Array Single :=
  output.extract task.window.start task.window.stop

/-- The output after a write to a band. -/
def write (task : Task) (output : Array Single) (position : Nat) (value : Single) : Array Single :=
  if task.window.start + position < task.window.stop then
    output.setIfInBounds (task.window.start + position) value
  else output

/-- The outcome of some work on the band of a task. -/
def alone (task : Task) (work : Workers.Work) (output : Array Single) : Outcome Nat :=
  work (task.band output) task.tiles (Workers.firstRow task.tiles)

/-- The state in which a procedure starts on a task. -/
def begin (task : Task) (procedure : Procedure) : procedure.State :=
  procedure.start task.tiles (Workers.firstRow task.tiles)

/-- A procedure does some work if on the band of the task it comes to the same end. -/
def Does (task : Task) (procedure : Procedure) (work : Workers.Work) (output : Array Single) :
    Prop :=
  ∃ writes,
    procedure.Takes writes (task.begin procedure) (task.band output) (task.alone work output)

end Task

/-! ### Workers and their caller -/

/-- The two meetings of a worker; before the second one its work has ended. -/
inductive Gate where
  | entry
  | exit (result : Except Failure Nat)

/-- Where a worker is. -/
inductive Phase (State : Type) where
  | unborn
  | arriving (gate : Gate)
  | waiting (generation : Nat) (gate : Gate)
  | passed (gate : Gate)
  | working (state : State)
  | lost

/-- A barrier that is used again in every generation. -/
structure Barrier where
  arrived : Nat
  generation : Nat

/-- How far the caller is, and what it has gathered from the workers that it has joined. -/
structure Caller where
  spawned : Nat
  joined : Nat
  tally : Workers.Tally

/-- The caller when the next worker is joined. -/
def Caller.join (arithmetic : Arithmetic) (caller : Caller) (result : Except Failure Nat) :
    Caller :=
  { caller with
    joined := caller.joined + 1
    tally := caller.tally.add arithmetic caller.joined result }

/-- Workers that carry out a procedure side by side, and their caller. -/
structure Team (procedure : Procedure) (workers : Nat) where
  output : Array Single
  barrier : Barrier
  phase : Fin workers → Phase procedure.State
  caller : Caller

namespace Team

variable {procedure : Procedure} {workers : Nat} {tasks : List Task}

/-- The team before the first worker is spawned. -/
def start (procedure : Procedure) (workers : Nat) (output : Array Single) :
    Team procedure workers :=
  ⟨output, ⟨0, 0⟩, fun _ ↦ .unborn, ⟨0, 0, .start⟩⟩

/-- The team with one worker in another phase. -/
def advance (team : Team procedure workers) (worker : Fin workers)
    (phase : Phase procedure.State) : Team procedure workers :=
  { team with phase := Function.update team.phase worker phase }

/-- One step of the caller or of a worker. -/
inductive Step (arithmetic : Arithmetic) (tasks : List Task)
    (team : Team procedure tasks.length) : Team procedure tasks.length → Prop
  | spawn (worker : Fin tasks.length) (hturn : team.caller.spawned = worker) :
      Step arithmetic tasks team { team.advance worker (.arriving .entry) with
        caller := { team.caller with spawned := team.caller.spawned + 1 } }
  | arrive (worker : Fin tasks.length) (gate : Gate) (hphase : team.phase worker = .arriving gate)
      (hothers : team.barrier.arrived + 1 < tasks.length) :
      Step arithmetic tasks team { team.advance worker (.waiting team.barrier.generation gate) with
        barrier := { team.barrier with arrived := team.barrier.arrived + 1 } }
  | last (worker : Fin tasks.length) (gate : Gate) (hphase : team.phase worker = .arriving gate)
      (hothers : tasks.length ≤ team.barrier.arrived + 1) :
      Step arithmetic tasks team { team.advance worker (.passed gate) with
        barrier := ⟨0, team.barrier.generation + 1⟩ }
  | leave (worker : Fin tasks.length) (generation : Nat) (gate : Gate)
      (hphase : team.phase worker = .waiting generation gate)
      (hover : generation ≠ team.barrier.generation) :
      Step arithmetic tasks team (team.advance worker (.passed gate))
  | begin (worker : Fin tasks.length) (hphase : team.phase worker = .passed .entry)
      (htiles : (tasks.get worker).tiles ≠ []) :
      Step arithmetic tasks team
        (team.advance worker (.working ((tasks.get worker).begin procedure)))
  | lose (worker : Fin tasks.length) (hphase : team.phase worker = .passed .entry)
      (htiles : (tasks.get worker).tiles = []) :
      Step arithmetic tasks team (team.advance worker .lost)
  | write (worker : Fin tasks.length) (state next : procedure.State) (position : Nat)
      (value : Single) (hphase : team.phase worker = .working state)
      (hstep : procedure.step state ((tasks.get worker).band team.output) =
        .write position value next) :
      Step arithmetic tasks team { team.advance worker (.working next) with
        output := (tasks.get worker).write team.output position value }
  | settle (worker : Fin tasks.length) (state : procedure.State) (result : Except Failure Nat)
      (hphase : team.phase worker = .working state)
      (hstep : procedure.step state ((tasks.get worker).band team.output) = .finish result) :
      Step arithmetic tasks team (team.advance worker (.arriving (.exit result)))
  | join (worker : Fin tasks.length) (result : Except Failure Nat)
      (hspawned : team.caller.spawned = tasks.length) (hturn : team.caller.joined = worker)
      (hphase : team.phase worker = .passed (.exit result)) :
      Step arithmetic tasks team { team with caller := team.caller.join arithmetic result }
  | joinLost (worker : Fin tasks.length) (hspawned : team.caller.spawned = tasks.length)
      (hturn : team.caller.joined = worker) (hphase : team.phase worker = .lost) :
      Step arithmetic tasks team
        { team with caller := team.caller.join arithmetic (.error .panicked) }

/-- A team that comes from another one by any number of steps. -/
def Reaches (arithmetic : Arithmetic) (tasks : List Task) :
    Team procedure tasks.length → Team procedure tasks.length → Prop :=
  Relation.ReflTransGen (Step arithmetic tasks)

/-- A team whose workers are all joined. -/
def Finished (team : Team procedure workers) : Prop := team.caller.joined = workers

/-- What a finished team leaves to the caller. -/
def outcome (team : Team procedure workers) : Outcome Nat :=
  ⟨team.caller.tally.result, team.output⟩

end Team

end PanelGemm
