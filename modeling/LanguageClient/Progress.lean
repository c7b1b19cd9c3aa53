import LanguageClient.Host

/-!
# Progress indicators

An operation runs under an indicator of the host that begins when the operation first runs and ends
when it is over, however it ends. Operations nest; each task has a stack of open indicators.

* `Progress` — the next identifier, and the open indicators with their tasks.
* `Progress.enter`, `Progress.leave`, `Progress.abandon` — begin one, end the innermost one of a
  task, end all those of a task.
* `Progress.Operation.run` — an operation with operations inside it, run by one task.
-/

namespace LanguageClient

/-- The indicators of a host. -/
structure Progress where
  /-- The identifier of the next indicator.  It is unbounded here; a machine counts in a word of 64
  bits, which wraps. -/
  nextId : Nat := 1
  /-- The open indicators: task and identifier, the newest first. -/
  opened : List (Nat × Nat) := []

namespace Progress

/-- Begins an indicator for a task. -/
def enter (progress : Progress) (task : Nat) (title : String) (location : ProgressLocation) :
    Progress × List HostCall :=
  ({ nextId := progress.nextId + 1, opened := (task, progress.nextId) :: progress.opened },
    [.beginProgress progress.nextId title location])

/-- Ends the innermost indicator of a task, if it has one. -/
def leave (progress : Progress) (task : Nat) : Progress × List HostCall :=
  match progress.opened.find? fun entry => entry.1 = task with
  | some (_, id) =>
      ({ progress with opened := progress.opened.erase (task, id) }, [.endProgress id])
  | none => (progress, [])

/-- Ends all indicators of a task, the innermost first. -/
def abandon (progress : Progress) (task : Nat) : Progress × List HostCall :=
  ({ progress with opened := progress.opened.filter fun entry => entry.1 ≠ task },
    (progress.opened.filter fun entry => entry.1 = task).map fun entry => .endProgress entry.2)

/-- How an operation ends. -/
inductive Ending where
  /-- It succeeds. -/
  | succeeds
  /-- It fails. -/
  | fails
  /-- It never ends and is dropped. -/
  | hangs
  /-- It is dropped before it first runs. -/
  | neverRuns
  deriving DecidableEq, Repr, Inhabited

/-- An operation under an indicator, with the operations that it runs one after the other. -/
inductive Operation where
  | wrap (title : String) (location : ProgressLocation) (inner : List Operation) (ending : Ending)
  deriving Nonempty

/-- What came of an operation. -/
inductive Report where
  /-- It succeeded, after these inner operations. -/
  | succeeded (inner : List Report)
  /-- It failed. -/
  | failed
  /-- It was dropped. -/
  | dropped

/-- What came of an operation whose inner ones came to `inner`. -/
def Ending.report (inner : List Report) : Ending → Report
  | succeeds => .succeeded inner
  | fails => .failed
  | hangs => .dropped
  | neverRuns => .dropped

namespace Operation

mutual

/-- Runs an operation on a task: what came of it, and the host calls in order. -/
def run (task : Nat) (progress : Progress) : Operation → Progress × Report × List HostCall
  | wrap title location inner ending =>
      if ending = .neverRuns then (progress, .dropped, [])
      else
        match progress.enter task title location with
        | (opened, begins) =>
            match runAll task opened inner with
            | (finished, reports, calls) =>
                match finished.leave task with
                | (closed, ends) => (closed, ending.report reports, begins ++ calls ++ ends)

/-- Runs operations one after the other on a task. -/
def runAll (task : Nat) (progress : Progress) :
    List Operation → Progress × List Report × List HostCall
  | [] => (progress, [], [])
  | operation :: rest =>
      match run task progress operation with
      | (after, report, calls) =>
          match runAll task after rest with
          | (finished, reports, later) => (finished, report :: reports, calls ++ later)

end

end Operation

end Progress

end LanguageClient
