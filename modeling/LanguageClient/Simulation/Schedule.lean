/-!
# Deterministic schedules

A system of tasks is run in virtual time, in one order that is fixed by its state: tasks that become
ready wait in a queue and take their turns in order; time stands still as long as any task is ready.
One task stands apart, the script that drives the run: it gets its turn when no other task is ready,
and first of all when time has moved on.

* `System` — tasks, when they are ready, and what a turn does.
* `Schedule` — a state, with the tasks that wait for their turn.
* `Schedule.await` — runs until the script has reached its goal.
* `Schedule.sleep` — runs for a span of time.
-/

namespace LanguageClient

/-- A system of tasks in virtual time. -/
structure System (σ τ : Type) where
  /-- The tasks, in the order in which those that become ready together are queued. -/
  tasks : σ → List τ
  /-- Whether a task can do something now. -/
  isReady : σ → τ → Bool
  /-- What a task does in one turn. -/
  turn : σ → τ → σ
  /-- The present time, in milliseconds. -/
  now : σ → Nat
  /-- The state at a later time. -/
  setNow : σ → Nat → σ
  /-- The times at which something may become ready by itself. -/
  deadlines : σ → List Nat

/-- The script's part in a run. -/
structure Script (σ : Type) where
  /-- Whether the script can do something now. -/
  isReady : σ → Bool
  /-- What the script does in one turn. -/
  turn : σ → σ
  /-- Whether the script has reached its goal. -/
  isDone : σ → Bool

/-- A script that only waits. -/
def Script.idle : Script σ := ⟨fun _ => false, id, fun _ => false⟩

/-- A state and the tasks that wait for their turn, the next one first. -/
structure Schedule (σ τ : Type) where
  state : σ
  queue : List τ := []

namespace Schedule

variable {σ τ : Type} [BEq τ]

/-- Queues the tasks that have become ready. -/
def wake (system : System σ τ) (s : Schedule σ τ) : Schedule σ τ :=
  let fresh := (system.tasks s.state).filter fun task =>
    system.isReady s.state task && !s.queue.contains task
  { s with queue := s.queue ++ fresh }

/-- The earliest later time at which something may become ready. -/
def nextTime? (system : System σ τ) (state : σ) : Option Nat :=
  let later := (system.deadlines state).filter fun time => system.now state < time
  later.min?

/-- Moves time on, and queues what becomes ready then. -/
def advance (system : System σ τ) (s : Schedule σ τ) (time : Nat) : Schedule σ τ :=
  { s with state := system.setNow s.state time }.wake system

/-- Gives the script a turn. -/
def runScript (system : System σ τ) (script : Script σ) (s : Schedule σ τ) : Schedule σ τ :=
  { s with state := script.turn s.state }.wake system

/-- Runs until the script has reached its goal or `limit` comes, for at most `fuel` turns. Tasks
that become ready at the limit are queued, but do not run any more. -/
def drive (system : System σ τ) (script : Script σ) (limit : Option Nat) :
    Nat → Schedule σ τ → Schedule σ τ
  | 0, s => s
  | fuel + 1, s =>
      if script.isDone s.state then s
      else match s.queue with
        | task :: rest =>
            let s := { s with state := system.turn s.state task, queue := rest }
            drive system script limit fuel (s.wake system)
        | [] =>
            if script.isReady s.state then
              drive system script limit fuel (s.runScript system script)
            else match nextTime? system s.state, limit with
              | none, none => s
              | none, some limit => s.advance system limit
              | some time, limit? =>
                  if limit?.any (· ≤ time) then s.advance system (limit?.getD time)
                  else
                    let s := s.advance system time
                    let s := if script.isReady s.state then s.runScript system script else s
                    drive system script limit? fuel s

/-- A number of turns that no run reaches. -/
def turnLimit : Nat := 1000000

/-- Gives the script its first turn and runs until it has reached its goal. -/
def await (system : System σ τ) (script : Script σ) (s : Schedule σ τ) : Schedule σ τ :=
  drive system script none turnLimit (s.runScript system script)

/-- Runs for a span of time. -/
def sleep (system : System σ τ) (s : Schedule σ τ) (span : Nat) : Schedule σ τ :=
  drive system Script.idle (some (system.now s.state + span)) turnLimit s

end Schedule

end LanguageClient
