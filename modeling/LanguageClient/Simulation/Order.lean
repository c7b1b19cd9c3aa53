import LanguageClient.Client.Call
import LanguageClient.Simulation.ScriptedServer
import LanguageClient.VirtualDocument.Store

/-!
# Orders

A rehearsal of the client follows orders. An order that takes time is a job until it is over.

* `Rehearsal.Order`, `Rehearsal.Result` — what is to be done, and what came of it.
* `Rehearsal.Order.missing?` — what an order misses when the client has been given away.
* `Rehearsal.Job`, `Rehearsal.Job.result?` — an order and how far it has come.
-/

namespace LanguageClient
namespace Rehearsal

/-- What a caller is to do. -/
inductive Order where
  /-- Ask the client for something, and wait. -/
  | call (operation : Operation)
  /-- Stop the session as the owner of the commands. -/
  | deactivate
  /-- Tell which session is ready. -/
  | session
  /-- Keep a handle of the session that is ready. -/
  | hold
  /-- Tell how the kept session is. -/
  | handle
  /-- Send a request to the kept session, and wait. -/
  | relayRequest (method : String) (params : Json)
  /-- Send a notification to the kept session. -/
  | relayNotification (method : String) (params : Json)
  /-- Add a hook that notes generations. -/
  | onReady (tag : String)
  /-- Make a handler that notes parameters the one of a method. -/
  | routeLog (method tag : String)
  /-- Bring a notification to its handler. -/
  | dispatch (method : String) (params : Json)
  /-- Tell whether a method has a handler. -/
  | isRegistered (method : String)
  /-- The newest server does something. -/
  | server (action : ServerAction)
  /-- The newest server goes away. -/
  | crash
  /-- The virtual file of a uri. -/
  | storeGet (uri : String)
  /-- Replace a virtual file. -/
  | storeSet (uri content sourceMap : String)
  /-- The number of virtual files. -/
  | storeSize
  /-- The text of a virtual document. -/
  | provide (uri : String)
  /-- The text of a document, as the host finds it. -/
  | readDocument (uri : String)
  /-- Make a document the active one, or none. -/
  | activeDocument (uri? : Option String)
  /-- Write a document to the terminal. -/
  | cat (uri : String)
  /-- The names of the commands. -/
  | commandNames
  /-- Give the client away. -/
  | drop
  /-- Let time pass. -/
  | advance (span : Nat)
  /-- Carry out orders side by side. -/
  | join (orders : List Order)
  /-- Carry out an order in the background. -/
  | background (tag : String) (order : Order)
  deriving Nonempty

/-- Something that an order needs and does not find. -/
inductive Missing where
  /-- The client has been given away. -/
  | client
  /-- The client has been given away, and with it its commands. -/
  | commands
  /-- No handle is kept. -/
  | handle
  deriving DecidableEq, Repr

/-- What came of an order. -/
inductive Result where
  | nothing
  | flag (value : Bool)
  | number (value : Nat)
  | text? (value : Option String)
  | texts (values : List String)
  /-- The outcome of a call. -/
  | outcome (value : Outcome)
  /-- A session: its generation, and whether it is alive. -/
  | session? (value : Option (Nat × Bool))
  /-- Whether a notification was handed in. -/
  | notified (value : Except SessionError Unit)
  | file? (value : Option VirtualFile)
  | missing (what : Missing)
  | all (values : List Result)

/-- What an order misses when the client has been given away. -/
def Order.missing? : Order → Option Missing
  | .call (.command _ _ true) => some .commands
  | .call (.command _ _ false) => none
  | .call _ => some .client
  | .deactivate => some .commands
  | .session => some .client
  | .hold => some .client
  | .onReady _ => some .client
  | _ => none

/-! ### Jobs -/

/-- An order and how far it has come. -/
inductive Job where
  /-- It has not begun. -/
  | todo (order : Order)
  /-- It waits for a call. -/
  | waiting (call : Nat)
  /-- It waits for a time. -/
  | sleeping (time : Nat) (result : Result)
  /-- It waits for several jobs. -/
  | group (jobs : List Job)
  /-- It is over. -/
  | ends (result : Result)

mutual

/-- The result of a job that is over. -/
def Job.result? : Job → Option Result
  | .ends result => some result
  | .group jobs => (results? jobs).map .all
  | .todo _ => none
  | .waiting _ => none
  | .sleeping _ _ => none

/-- The results of jobs that are all over. -/
def results? : List Job → Option (List Result)
  | [] => some []
  | job :: rest => match job.result?, results? rest with
      | some result, some others => some (result :: others)
      | _, _ => none

end

mutual

/-- The times for which a job waits. -/
def Job.times : Job → List Nat
  | .sleeping time _ => [time]
  | .group jobs => allTimes jobs
  | .todo _ => []
  | .waiting _ => []
  | .ends _ => []

/-- The times for which several jobs wait. -/
def allTimes : List Job → List Nat
  | [] => []
  | job :: rest => job.times ++ allTimes rest

end

end Rehearsal
end LanguageClient
