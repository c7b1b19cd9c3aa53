import LanguageClient.Client.Call
import LanguageClient.Client.Workspace
import LanguageClient.Config
import LanguageClient.Connection.Step
import LanguageClient.Session.Lock
import LanguageClient.Session.Status

/-!
# The state of the client

The client owns at most one session with a language server. Every start of a session is an attempt
with a connection of its own.

* `Attempt` — one start, with its connection, its process and the pump that delivers its
  notifications.
* `Entry` — something that could be seen from outside.
* `Client` — attempts, calls and workspace, with the journal of everything that could be seen.
* `Client.published`, `Client.launches`, `Client.outcome?` — what could be seen of the sessions.
* `Client.setOffs`, `Client.deliveries` — which hooks and which notifications were handed out.
* `Client.status`, `Client.session?` — what is published, and the session that is ready.
* `Client.hasSession`, `Client.keepsConnection` — what is kept in being.
-/

namespace LanguageClient

/-! ### Attempts -/

/-- What came of launching a server. -/
inductive Launch where
  /-- Nothing yet. -/
  | awaited
  /-- There is no server. -/
  | failed (error : SessionError)
  /-- There is a connection to it. -/
  | connected

/-- The task that delivers the notifications of a session. -/
inductive Pump where
  /-- There is none yet. -/
  | absent
  /-- It waits until the hooks of the session have run. -/
  | waiting
  /-- It delivers. -/
  | armed
  /-- It has ended. -/
  | ended
  deriving DecidableEq, Repr

/-- The process that a connection brings with it. -/
inductive Process where
  /-- There is none. -/
  | absent
  | running
  | ended
  deriving DecidableEq, Repr

/-- One start of a session. -/
structure Attempt where
  launch : Launch := .awaited
  connection : Connection := {}
  process : Process := .absent
  pump : Pump := .absent

/-! ### The client -/

/-- Something that could be seen from outside. -/
inductive Entry where
  /-- A status was published. -/
  | published (status : Status)
  /-- A server was asked for. -/
  | launched (generation : Nat)
  /-- The hook at a place of the list of hooks was set off for a session. -/
  | setOff (place generation : Nat)
  /-- A hook noted a generation. -/
  | hookRan (tag : String) (generation : Nat)
  /-- A notification of a session was delivered. -/
  | delivered (generation : Nat) (message : Notification)
  /-- A handler noted parameters. -/
  | observed (tag : String) (params : Json)
  /-- The host was called. -/
  | called (call : HostCall)

/-- The client. -/
structure Client where
  options : SessionOptions := {}
  /-- The number of the client's own process. -/
  processId : Nat := 0
  /-- The present time, in milliseconds. -/
  now : Nat := 0
  workspace : Workspace := {}
  /-- The attempts; their generations count from one. -/
  attempts : List Attempt := []
  /-- The generation of the session that the client owns. -/
  slot : Option Nat := none
  hooks : List Hook := []
  lock : Lock := {}
  /-- The calls; their numbers count from zero. -/
  calls : List Call := []
  /-- Whether the owner has given the client away. -/
  released : Bool := false
  /-- Everything that could be seen, the oldest first. -/
  journal : List Entry := []

namespace Client

/-- A client at the beginning. -/
def new (options : SessionOptions) (processId : Nat) (workspace : Workspace) : Client :=
  { options, processId, workspace }

/-- The generation of the latest attempt.  It is unbounded here; a machine counts in a word of 64
bits, which wraps. -/
def generation (c : Client) : Nat := c.attempts.length

/-- The statuses published so far. -/
def published (c : Client) : List Status :=
  c.journal.filterMap fun
    | .published status => some status
    | _ => none

/-- The generations for which a server was asked for. -/
def launches (c : Client) : List Nat :=
  c.journal.filterMap fun
    | .launched g => some g
    | _ => none

/-- The hooks that were set off, by their places, each with the generation of its session. -/
def setOffs (c : Client) : List (Nat × Nat) :=
  c.journal.filterMap fun
    | .setOff place g => some (place, g)
    | _ => none

/-- The notifications that were delivered, each with the generation of its session. -/
def deliveries (c : Client) : List (Nat × Notification) :=
  c.journal.filterMap fun
    | .delivered g message => some (g, message)
    | _ => none

/-- The present status. -/
def status (c : Client) : Status := c.published.getLastD {}

/-- The generation of the session that is ready. -/
def session? (c : Client) : Option Nat := if c.status.isReady then c.slot else none

/-- The attempt of a generation. -/
def attempt? (c : Client) (g : Nat) : Option Attempt :=
  if g = 0 then none else c.attempts[g - 1]?

/-- The connection of a generation. -/
def connection? (c : Client) (g : Nat) : Option Connection := (c.attempt? g).map Attempt.connection

/-- Changes the attempt of a generation. -/
def updateAttempt (c : Client) (g : Nat) (f : Attempt → Attempt) : Client :=
  if g = 0 then c else { c with attempts := c.attempts.modify (g - 1) f }

/-- Changes the connection of a generation. -/
def updateConnection (c : Client) (g : Nat) (f : Connection → Connection) : Client :=
  c.updateAttempt g fun a => { a with connection := f a.connection }

/-- Changes the pump of a generation. -/
def setPump (c : Client) (g : Nat) (pump : Pump) : Client :=
  c.updateAttempt g fun a => { a with pump }

/-- Whether the process of a generation still runs. -/
def hasProcess (c : Client) (g : Nat) : Bool :=
  (c.attempt? g).any fun a => a.process = .running

/-- The process of a generation ends, if there is one. -/
def endProcess (c : Client) (g : Nat) : Client :=
  c.updateAttempt g fun a => if a.process = .running then { a with process := .ended } else a

/-- The phase of a call. -/
def setPhase (c : Client) (call : Nat) (phase : Phase) : Client :=
  { c with calls := c.calls.modify call fun k => { k with phase } }

/-- The outcome of a call that has ended. -/
def outcome? (c : Client) (call : Nat) : Option Outcome :=
  match c.calls[call]?.map Call.phase with
  | some (.finished outcome) => some outcome
  | _ => none

/-- Whether the session of a generation is still in being. -/
def hasSession (c : Client) (g : Nat) : Bool :=
  c.slot = some g || c.calls.any fun k => k.phase.session? = some g

/-- Whether somebody keeps the connection of a generation in being. -/
def keepsConnection (c : Client) (g : Nat) : Bool :=
  c.slot = some g || c.calls.any fun k => k.phase.connection? = some g

/-- Whether the session of a generation is in being and its connection has not ended by itself. -/
def isAlive (c : Client) (g : Nat) : Bool :=
  c.hasSession g && (c.connection? g).any fun connection => !connection.closed

end Client

end LanguageClient
