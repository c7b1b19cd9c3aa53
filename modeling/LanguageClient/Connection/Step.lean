import LanguageClient.Connection.Basic

/-!
# The steps of a connection

Every definition here is one atomic step; a name that ends in a question mark gives none when the
step cannot be taken now. Which possible step comes next is left open, so a statement about all
sequences of steps covers every order of events.

* Callers: `request`, `notify`, `settle?`, `forget`.
* The reader: `read?`.
* The loop: `start?`, `write?`, `finish?`, `handle?`, and its two ends — `teardown`, in which it
  flags the connection closed, and `remove?`, by which an aborted loop goes away without doing so.
* The server: `receive`, `endOfStream`, `stopReading`.
* `Connection.Action`, `Connection.step?` — all of them as one transition function.
-/

namespace LanguageClient
namespace Connection

/-! ### Callers -/

/-- Begins a request call and gives its number. When the loop has ended, the call is answered at
once. -/
def request (c : Connection) (method : String) (params : Json) (deadline : Nat) :
    Connection × Nat :=
  let id := c.nextId
  let reply? := if c.isOpen then none else some Reply.closed
  let outbound := if c.isOpen then c.outbound ++ [.request id method params] else c.outbound
  ({ c with
      nextId := id + 1
      outbound
      exchanges := c.exchanges ++ [{ id, method, deadline, reply? }] }, id)

/-- Hands in a notification; none when the loop has ended. -/
def notify? (c : Connection) (message : Notification) : Option Connection :=
  if c.isOpen then some { c with outbound := c.outbound ++ [.notification message] } else none

/-- The outcome that a waiting call has now: that of its reply, or a time-out from its deadline
on. -/
def outcome? (now : Nat) (e : Exchange) : Option (Except SessionError Json) :=
  match e.state with
  | .waiting => match e.reply? with
      | some reply => some reply.outcome
      | none => if e.deadline ≤ now then some (.error (.timeout e.method)) else none
  | _ => none

/-- The caller of a number takes its outcome. -/
def settle? (c : Connection) (now id : Nat) : Option (Connection × Except SessionError Json) :=
  match (c.exchange? id).bind (outcome? now) with
  | some outcome =>
      some (c.updateExchange id fun e => { e with state := .settled outcome }, outcome)
  | none => none

/-- The caller of a number goes away before it has an outcome. -/
def forget (c : Connection) (id : Nat) : Connection :=
  c.updateExchange id fun e => match e.state with
    | .waiting => { e with state := .forgotten }
    | _ => e

/-- The queue of notifications goes to its one receiver; none when it has one. -/
def take? (c : Connection) : Option Connection :=
  if c.taken then none else some { c with taken := true }

/-- Brings a reply to the caller of a number, unless an earlier one has come. -/
def deliver (c : Connection) (id : Nat) (reply : Reply) : Connection :=
  c.updateExchange id fun e => match e.reply? with
    | none => { e with reply? := some reply }
    | some _ => e

/-! ### The reader -/

/-- The reader stops. -/
def stopReader (c : Connection) : Connection :=
  { c with reader := { c.reader with active := false } }

/-- The reader takes the next frame off the bytes received. It stops at the end of the stream, at a
fault, and when nobody takes what it finds any more; a body that is no value it skips. -/
def read? (c : Connection) : Option Connection :=
  if !c.reader.active then none
  else match Frame.read c.reader.ended c.reader.buffer with
    | .message value rest =>
        let c := { c with reader := { c.reader with buffer := rest } }
        if c.loop = .running then some { c with inbox := c.inbox ++ [.ok value] }
        else some c.stopReader
    | .invalid rest => some { c with reader := { c.reader with buffer := rest } }
    | .finished => some c.stopReader
    | .failed e =>
        if c.loop = .running then some { c.stopReader with inbox := c.inbox ++ [.error e] }
        else some c.stopReader
    | .tooLarge => some c.stopReader
    | .incomplete => none

/-! ### The loop -/

/-- Whether the loop may take a step. -/
def isRunning (c : Connection) : Bool := c.loop = .running && !c.aborted

/-- Whether the loop may turn to something new. While it writes it does nothing else. -/
def isAttentive (c : Connection) : Bool := c.isRunning && c.writing?.isNone

/-- Every call that was written, is being written or waits for it learns that the connection has
ended. -/
def closeCalls (c : Connection) : Connection :=
  let ended := (c.pending ++ c.unwrittenIds).foldl (fun c id => c.deliver id .closed) c
  { ended with pending := [], writing? := none, outbound := [], inbox := [], loop := .ended }

/-- The loop comes to its own end: the reader stops, and the connection is flagged closed. -/
def teardown (c : Connection) : Connection := { c.stopReader.closeCalls with closed := true }

/-- The loop runs for the first time, and with it the reader. -/
def start? (c : Connection) : Option Connection :=
  if c.loop = .created && !c.aborted then
    some { c with loop := .running, reader := { c.reader with active := true } }
  else none

/-- An aborted loop goes away where it stands. The reader is left to itself. -/
def remove? (c : Connection) : Option Connection :=
  if c.aborted && c.loop ≠ .ended then some c.closeCalls else none

/-- The loop begins to write the next message that was handed in. -/
def write? (c : Connection) : Option Connection :=
  if !c.isAttentive then none
  else match c.outbound with
    | [] => none
    | message :: rest => some { c with outbound := rest, writing? := some message }

/-- The loop comes to the end of what it writes; a request then waits for its response. When the
message cannot be written, its caller learns that the connection has ended, and the loop ends. -/
def finish? (c : Connection) : Option Connection :=
  if !c.isRunning then none
  else c.writing?.map fun message =>
    if c.peerReads then
      { c with
        writing? := none
        written := c.written ++ [message.toJson]
        pending := c.pending ++ message.id?.toList }
    else c.teardown

/-- Brings a response to the call that it answers; one that answers no pending call is left
out. -/
def answer (c : Connection) (response : Response) : Connection :=
  match c.pending.find? fun id : Nat => response.id = .number id with
  | some id => { c with pending := c.pending.erase id }.deliver id (.response response)
  | none => c

/-- Handles a value that the server has sent. The answer to a request is written at once. -/
def accept (c : Connection) (value : Json) : Connection :=
  match Inbound.classify? value with
  | none => c
  | some (.response response) => c.answer response
  | some (.notification message) => { c with notifications := c.notifications ++ [message] }
  | some (.request request) => { c with writing? := some (.answer (answerFor request)) }

/-- The loop handles what the reader found next, and ends after the last of it. -/
def handle? (c : Connection) : Option Connection :=
  if !c.isAttentive then none
  else match c.inbox with
    | .ok value :: rest => some ({ c with inbox := rest }.accept value)
    | .error _ :: _ => some c.teardown
    | [] => if c.reader.active then none else some c.teardown

/-- The loop is to be removed before it runs again. -/
def abort (c : Connection) : Connection := { c with aborted := true }

/-- Whether waiting for the connection to end is over: it is closed, its loop is gone, or the time
is up. -/
def closeIsOver (c : Connection) (now deadline : Nat) : Bool :=
  c.closed || !c.isOpen || deadline ≤ now

/-! ### The server -/

/-- Bytes of the server arrive. -/
def receive (c : Connection) (bytes : List UInt8) : Connection :=
  { c with reader := { c.reader with buffer := c.reader.buffer ++ bytes } }

/-- The server ends its side. -/
def endOfStream (c : Connection) : Connection :=
  { c with reader := { c.reader with ended := true } }

/-- The server reads no more. -/
def stopReading (c : Connection) : Connection := { c with peerReads := false }

/-! ### All steps -/

/-- A step of a connection. -/
inductive Action where
  | request (method : String) (params : Json) (deadline : Nat)
  | notify (message : Notification)
  | settle (now id : Nat)
  | forget (id : Nat)
  | take
  | read
  | start
  | write
  | finish
  | handle
  | abort
  | remove
  | receive (bytes : List UInt8)
  | endOfStream
  | stopReading

/-- The connection after a step; none when the step cannot be taken. The server's bytes arrive only
as long as they are taken and the server has not ended its side. -/
def step? (c : Connection) : Action → Option Connection
  | .request method params deadline => some (c.request method params deadline).1
  | .notify message => c.notify? message
  | .settle now id => (c.settle? now id).map Prod.fst
  | .forget id => some (c.forget id)
  | .take => c.take?
  | .read => c.read?
  | .start => c.start?
  | .write => c.write?
  | .finish => c.finish?
  | .handle => c.handle?
  | .abort => some c.abort
  | .remove => c.remove?
  | .receive bytes => if c.takesBytes && !c.reader.ended then some (c.receive bytes) else none
  | .endOfStream => some c.endOfStream
  | .stopReading => some c.stopReading

/-- The connection after a sequence of steps; none when one of them cannot be taken. -/
def run? (c : Connection) (actions : List Action) : Option Connection := actions.foldlM step? c

end Connection
end LanguageClient
