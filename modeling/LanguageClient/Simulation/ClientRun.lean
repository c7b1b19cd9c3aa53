import LanguageClient.Simulation.Caller
import LanguageClient.Simulation.ConnectionRun

/-!
# A client in virtual time

* `Rehearsal.Task`, `Rehearsal.system` — a rehearsal as a system of tasks.
* `Rehearsal.perform` — carries out an order and lets the system settle.
-/

namespace LanguageClient
namespace Rehearsal

/-- The tasks of a rehearsal. -/
inductive Task where
  | reader (generation : Nat)
  | loop (generation : Nat)
  | job (index : Nat)
  | pump (generation : Nat)
  | server (generation : Nat)
  deriving DecidableEq, Repr

/-- The generations of the attempts. -/
def generations (r : Rehearsal) : List Nat := List.range' 1 r.client.generation

/-- Whether a task can do something now. -/
def isReady (r : Rehearsal) : Task → Bool
  | .reader g => (r.client.connection? g).any fun c => c.read?.isSome
  | .loop g => (r.client.attempt? g).any fun a => match a.launch with
      | .connected => a.connection.loopAction?.isSome
      | _ => false
  | .job i => (r.background[i]?).any fun b => b.job.isReady r.client
  | .pump g => r.client.canPump g
  | .server g => (r.servers[g - 1]?).any fun s => (r.move? g s).isSome

/-- The reader of a generation works as long as it can, for at most `fuel` steps. -/
def readerWorks (g : Nat) : Nat → Rehearsal → Rehearsal
  | 0, r => r
  | fuel + 1, r =>
      if r.isReady (.reader g) then readerWorks g fuel (r.happen (.connection g .read)) else r

/-- The loop of a generation works as long as it can, for at most `fuel` steps. -/
def loopWorks (g : Nat) : Nat → Rehearsal → Rehearsal
  | 0, r => r
  | fuel + 1, r => match (r.client.connection? g).bind Connection.loopAction? with
      | some action => loopWorks g fuel (r.happen (.connection g action))
      | none => r

/-- The pump of a generation works as long as it can, for at most `fuel` steps. -/
def pumpWorks (g : Nat) : Nat → Rehearsal → Rehearsal
  | 0, r => r
  | fuel + 1, r => if r.client.canPump g then pumpWorks g fuel (r.happen (.pump g)) else r

/-- One turn of a task. -/
def turn (r : Rehearsal) : Task → Rehearsal
  | .reader g =>
      readerWorks g ((r.client.connection? g).elim 0 fun c => c.reader.buffer.length + 1) r
  | .loop g =>
      loopWorks g ((r.client.connection? g).elim 0 Connection.loopSpan) r
  | .job i => match r.background[i]? with
      | some b => match r.goOn b.job with
          | (r, job) => { r with background := r.background.modify i fun b => { b with job } }
      | none => r
  | .pump g =>
      pumpWorks g ((r.client.connection? g).elim 0 fun c => c.notifications.length + 1) r
  | .server g =>
      serverWorks g ((r.client.connection? g).elim 0 fun c =>
        c.written.length + ((r.servers[g - 1]?).elim 0 fun s => s.agenda.length) + 2) r

/-- The times at which something may happen by itself. -/
def deadlines (r : Rehearsal) : List Nat :=
  r.client.attempts.flatMap (fun a => a.connection.exchanges.map Exchange.deadline) ++
    r.client.calls.filterMap (fun k => match k.phase with
      | .abandoning _ _ deadline => some deadline
      | .closing _ deadline => some deadline
      | .reaping _ deadline _ => some deadline
      | _ => none) ++
    r.servers.flatMap (fun s => [s.dueAt, s.wakeAt]) ++
    r.background.flatMap (fun b => b.job.times) ++ r.main.times

/-- The rehearsal at a later time. -/
def setNow (r : Rehearsal) (time : Nat) : Rehearsal :=
  (r.happen (.advance (time - r.client.now))).finishLaunches

/-- A rehearsal as a system of tasks. -/
def system : System Rehearsal Task where
  tasks r :=
    r.generations.flatMap (fun g => [.reader g, .loop g]) ++
      (List.range r.background.length).map .job ++
      r.generations.map .pump ++ r.generations.map .server
  isReady := isReady
  turn := turn
  now r := r.client.now
  setNow := setNow
  deadlines := deadlines

/-- The script of a rehearsal while it is at its main job. -/
def mainScript : Script Rehearsal where
  isReady r := r.main.isReady r.client
  turn r := match r.goOn r.main with
    | (r, main) => { r with main }
  isDone r := r.main.result?.isSome

/-- Carries out an order. -/
def carryOut (s : Schedule Rehearsal Task) (order : Order) : Schedule Rehearsal Task × Result :=
  let s := { s with state := { s.state with main := .todo order } }.await system mainScript
  (s, s.state.main.result?.getD .nothing)

/-- Carries out an order and lets the system settle for a span of time. -/
def perform (s : Schedule Rehearsal Task) (order : Order) (settling : Nat) :
    Schedule Rehearsal Task × Result :=
  match carryOut s order with
  | (s, result) => (s.sleep system settling, result)

end Rehearsal
end LanguageClient
