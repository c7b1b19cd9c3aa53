import LanguageClient.Frame.Basic
import LanguageClient.Message.Inbound

/-!
# The state of a connection

A connection carries messages to and from one server. Its work is divided into a reader, which takes
frames off the incoming bytes, and a loop, which writes what callers have handed in and handles what
the reader has found. Callers wait for the replies to their requests on their own.

* `Exchange` — one request call, from its number to its outcome.
* `Reader` — the incoming bytes that are not yet read.
* `Connection` — all of a connection.
* `answerFor` — what the client answers to a request of the server.
-/

namespace LanguageClient

/-- What reaches the caller of a request. -/
inductive Reply where
  /-- The response to its request. -/
  | response (message : Response)
  /-- The connection has ended. -/
  | closed

/-- The outcome that a reply has for the caller. -/
def Reply.outcome : Reply → Except SessionError Json
  | response message => message.outcome.mapError .response
  | closed => .error .connectionClosed

/-- How far a call has come. -/
inductive CallState where
  /-- Its caller waits. -/
  | waiting
  /-- Its caller has its outcome. -/
  | settled (outcome : Except SessionError Json)
  /-- Its caller has gone away. -/
  | forgotten

/-- A request call. -/
structure Exchange where
  /-- The number of the request. -/
  id : Nat
  method : String
  /-- When the caller gives up, in milliseconds. -/
  deadline : Nat
  /-- What has reached the caller. -/
  reply? : Option Reply := none
  state : CallState := .waiting

/-- A message on its way to the server. -/
inductive Outgoing where
  | notification (message : Notification)
  /-- A request, by its number. -/
  | request (id : Nat) (method : String) (params : Json)
  /-- An answer to a request of the server. -/
  | answer (message : Response)

namespace Outgoing

/-- The message as it is written. -/
def toJson : Outgoing → Json
  | notification message => message.toJson
  | request id method params => Request.toJson ⟨.number id, method, params⟩
  | answer message => message.toJson

/-- The number of a request. -/
def id? : Outgoing → Option Nat
  | request id _ _ => some id
  | _ => none

end Outgoing

/-- The reader of a connection. -/
structure Reader where
  /-- The bytes received and not yet read. -/
  buffer : List UInt8 := []
  /-- Whether the server has ended its side. -/
  ended : Bool := false
  /-- Whether the reader is at work. -/
  active : Bool := false

/-- How far the loop of a connection has come. -/
inductive LoopPhase where
  /-- It has not run yet. -/
  | created
  /-- It is at work. -/
  | running
  /-- It has ended. -/
  | ended
  deriving DecidableEq, Repr

/-- A connection to a server. -/
structure Connection where
  /-- The number of the next request.  It is unbounded here; a machine counts in a word of 64 bits,
  which wraps after more requests than can be made. -/
  nextId : Nat := 1
  /-- All request calls, in the order of their numbers. -/
  exchanges : List Exchange := []
  /-- What callers have handed in and the loop has not yet begun to write. -/
  outbound : List Outgoing := []
  /-- What the loop is writing. -/
  writing? : Option Outgoing := none
  /-- The numbers of the requests that were written and not answered. -/
  pending : List Nat := []
  /-- The progress of the loop. -/
  loop : LoopPhase := .created
  /-- Whether the loop is to be removed before it runs again. -/
  aborted : Bool := false
  reader : Reader := {}
  /-- What the reader has found and the loop has not yet handled: values, or the error after which
  nothing follows. -/
  inbox : List (Except SessionError Json) := []
  /-- The notifications of the server that nobody has received yet. -/
  notifications : List Notification := []
  /-- Whether somebody receives the notifications. -/
  taken : Bool := false
  /-- Whether the loop came to its own end. -/
  closed : Bool := false
  /-- Whether the server still reads. -/
  peerReads : Bool := true
  /-- The messages written so far, the oldest first. -/
  written : List Json := []

namespace Connection

/-- The call of a number. -/
def exchange? (c : Connection) (id : Nat) : Option Exchange := c.exchanges.find? (·.id = id)

/-- Changes the call of a number. -/
def updateExchange (c : Connection) (id : Nat) (f : Exchange → Exchange) : Connection :=
  { c with exchanges := c.exchanges.map fun e => if e.id = id then f e else e }

/-- Whether what callers hand in still goes to the loop. -/
def isOpen (c : Connection) : Bool := c.loop ≠ .ended

/-- Whether bytes of the server are still taken. -/
def takesBytes (c : Connection) : Bool := c.loop = .created || c.reader.active

/-- The numbers of the requests that are being written or wait for it. -/
def unwrittenIds (c : Connection) : List Nat :=
  (c.writing?.toList ++ c.outbound).filterMap Outgoing.id?

end Connection

/-- The number of items that a request for configuration asks for. -/
def configurationItems (params : Json) : Nat :=
  match (params.get? "items").bind Json.asArray? with
  | some items => items.length
  | none => 0

/-- The methods whose requests are acknowledged without a result. -/
def acknowledgedMethods : List String :=
  ["client/registerCapability", "client/unregisterCapability", "window/workDoneProgress/create"]

/-- What the client answers to a request of the server: no configuration for each item asked for, an
acknowledgement where nothing is to be told, else that it does not know the method. -/
def answerFor (request : Request) : Response :=
  if request.method = "workspace/configuration" then
    ⟨request.id, some (.arr (List.replicate (configurationItems request.params) .null)), none⟩
  else if request.method ∈ acknowledgedMethods then ⟨request.id, some .null, none⟩
  else ⟨request.id, none, some (.methodNotFound request.method)⟩

end LanguageClient
