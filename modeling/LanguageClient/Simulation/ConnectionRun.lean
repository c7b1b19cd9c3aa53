import LanguageClient.Connection.Step
import LanguageClient.Simulation.Schedule

/-!
# A connection in virtual time

* `Connection.readerTurn`, `Connection.loopTurn` — what reader and loop do in one turn.
* `Bench` — a connection with its callers, and how far its story has been told.
* `Bench.Order` — what a script may do to it; `Bench.perform` does it and lets the system settle.
-/

namespace LanguageClient

namespace Connection

/-- The reader works as long as it can. -/
def readAll : Nat → Connection → Connection
  | 0, c => c
  | fuel + 1, c => match c.read? with
      | some c => readAll fuel c
      | none => c

/-- The step that the loop takes next, if any: its removal or its first run, else the end of a
message, else a message to write, else one to handle. -/
def loopAction? (c : Connection) : Option Action :=
  [Action.remove, .start, .finish, .write, .handle].find? fun action => (c.step? action).isSome

/-- The loop works as long as it can. -/
def loopAll : Nat → Connection → Connection
  | 0, c => c
  | fuel + 1, c => match c.loopAction?.bind c.step? with
      | some c => loopAll fuel c
      | none => c

/-- One turn of the reader. Each of its steps takes a byte or is its last. -/
def readerTurn (c : Connection) : Connection := c.readAll (c.reader.buffer.length + 1)

/-- A bound for the steps of the loop in one turn: its first one, one for what it is writing, two for
each message that is handed in or received, and its last one. -/
def loopSpan (c : Connection) : Nat := 2 * (c.outbound.length + c.inbox.length) + 4

/-- One turn of the loop. -/
def loopTurn (c : Connection) : Connection := c.loopAll c.loopSpan

end Connection

/-- A connection on a bench. -/
structure Bench where
  connection : Connection := {}
  now : Nat := 0
  /-- The time-out of requests that bring none of their own. -/
  requestTimeout : Nat := 1000
  /-- Until when the script waits for the connection to end. -/
  closing? : Option Nat := none
  /-- The calls whose outcome has been told. -/
  told : List Nat := []
  /-- How many of the written messages have been told. -/
  toldWritten : Nat := 0

namespace Bench

/-- The tasks around a connection. -/
inductive Task where
  | reader
  | loop
  | caller (id : Nat)
  deriving DecidableEq, Repr

/-- The connection and its callers as a system of tasks. -/
def system : System Bench Task where
  tasks b := [.reader, .loop] ++ b.connection.exchanges.map fun e => .caller e.id
  isReady b
    | .reader => b.connection.read?.isSome
    | .loop => b.connection.loopAction?.isSome
    | .caller id => (b.connection.settle? b.now id).isSome
  turn b
    | .reader => { b with connection := b.connection.readerTurn }
    | .loop => { b with connection := b.connection.loopTurn }
    | .caller id => match b.connection.settle? b.now id with
        | some (c, _) => { b with connection := c }
        | none => b
  now := Bench.now
  setNow b time := { b with now := time }
  deadlines b := b.closing?.toList ++ b.connection.exchanges.map Exchange.deadline

/-- The script while it waits for the connection to end: then it aborts what is left. -/
def closeScript : Script Bench where
  isReady b := b.closing?.any (b.connection.closeIsOver b.now)
  turn b :=
    if b.closing?.any (b.connection.closeIsOver b.now) then
      { b with connection := b.connection.abort, closing? := none }
    else b
  isDone b := b.closing?.isNone

/-- What a script does to a connection. -/
inductive Order where
  /-- Begins requests; a time-out of their own may go with them. -/
  | request (methods : List String) (params : Json) (timeout? : Option Nat)
  | notify (method : String) (params : Json)
  /-- Bytes of the server. -/
  | serverBytes (bytes : List UInt8)
  /-- The server ends its side. -/
  | serverEnds
  /-- The server reads no more. -/
  | serverStopsReading
  /-- The server does both. -/
  | serverLeaves
  | take
  | receive
  | close (grace : Nat)
  | advance (span : Nat)

/-- What an order came to. -/
inductive Result where
  | nothing
  | flag (value : Bool)
  | number (value : Nat)
  | notified (accepted : Bool)
  /-- The notifications received, and whether no more can come. -/
  | received (messages : List Notification) (ended : Bool)

/-- Begins a request. -/
def beginRequest (b : Bench) (timeout : Nat) (params : Json) (method : String) : Bench :=
  { b with connection := (b.connection.request method params (b.now + timeout)).1 }

/-- Carries out an order, as far as it takes no time. -/
def act (b : Bench) : Order → Bench × Result
  | .request methods params timeout? =>
      let b := methods.foldl
        (fun b => b.beginRequest (timeout?.getD b.requestTimeout) params) b
      (b, .number (b.connection.nextId - 1))
  | .notify method params =>
      match b.connection.notify? ⟨method, params⟩ with
      | some c => ({ b with connection := c }, .notified true)
      | none => (b, .notified false)
  | .serverBytes bytes =>
      match b.connection.step? (.receive bytes) with
      | some c => ({ b with connection := c }, .flag true)
      | none => (b, .flag false)
  | .serverEnds => ({ b with connection := b.connection.endOfStream }, .nothing)
  | .serverStopsReading => ({ b with connection := b.connection.stopReading }, .nothing)
  | .serverLeaves => ({ b with connection := b.connection.endOfStream.stopReading }, .nothing)
  | .take => match b.connection.take? with
      | some c => ({ b with connection := c }, .flag true)
      | none => (b, .flag false)
  | .receive =>
      if b.connection.taken then
        ({ b with connection := { b.connection with notifications := [] } },
          .received b.connection.notifications !b.connection.isOpen)
      else (b, .received [] false)
  | .close grace => ({ b with closing? := some (b.now + grace) }, .nothing)
  | .advance _ => (b, .nothing)

/-- How long the system settles after every order. -/
def settlingTime : Nat := 10

/-- Carries out an order and lets the system settle. -/
def perform (s : Schedule Bench Task) (order : Order) : Schedule Bench Task × Result :=
  match s.state.act order with
  | (b, result) =>
      let s := { s with state := b }.wake system
      let s := match order with
        | .close _ => s.await system closeScript
        | .advance span => s.sleep system span
        | _ => s
      (s.sleep system settlingTime, result)

/-- The calls that were settled and not told, with their outcomes. -/
def news (b : Bench) : List (Nat × Except SessionError Json) :=
  b.connection.exchanges.filterMap fun e => match e.state with
    | .settled outcome => if e.id ∈ b.told then none else some (e.id, outcome)
    | _ => none

/-- The messages that were written and not told. -/
def newsWritten (b : Bench) : List Json := b.connection.written.drop b.toldWritten

/-- The bench when all its news have been told. -/
def tell (b : Bench) : Bench :=
  { b with told := b.told ++ b.news.map Prod.fst, toldWritten := b.connection.written.length }

end Bench

end LanguageClient
