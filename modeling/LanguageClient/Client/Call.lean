import LanguageClient.Command.Registry
import LanguageClient.Error
import LanguageClient.Router

/-!
# Calls

A call is something that a caller has asked of the client and waits for.

* `Operation` — what a caller asks for.
* `Outcome` — what came of it.
* `Phase` — how far it has come: at which point it waits, and for what.
* `Call` — an operation in a phase.
-/

namespace LanguageClient

/-! ### Operations -/

/-- What a reply is read as. -/
inductive ReplyShape where
  | value
  | string
  | integer
  | virtualFileInfo
  deriving DecidableEq, Repr

/-- Reads a reply. -/
def ReplyShape.read? (reply : Json) : ReplyShape → Option Observation
  | value => some (.text reply)
  | string => ParamShape.string.read? reply
  | integer => ParamShape.integer.read? reply
  | virtualFileInfo => (VirtualFileInfo.ofJson? reply).map fun info? =>
      .text ((info?.map VirtualFileInfo.toJson).getD .null)

/-- What a caller asks of the client. -/
inductive Operation where
  /-- Start a session unless one is ready. -/
  | start
  /-- Stop the session. -/
  | stop
  /-- Stop the session and start another one. -/
  | restart
  /-- Set up the workspace and start the first session. -/
  | activate
  /-- Wait until a session is ready. -/
  | ready
  /-- Send a request to the session and read its reply. -/
  | request (method : String) (params : Json) (shape : ReplyShape)
  /-- Send a request to the session of a generation. -/
  | relay (generation : Nat) (method : String) (params : Json)
  /-- Show the virtual file of a source. -/
  | showVirtualFile (source : String)
  /-- Run a command; a failure may go to the output channel. -/
  | command (id : String) (args : List Json) (reported : Bool)

/-- Whether an operation can be asked for only by somebody who holds the client. The commands have a
registry of their own, and a session is talked to without the client. -/
def Operation.needsClient : Operation → Bool
  | relay _ _ _ => false
  | command _ _ reported => reported
  | _ => true

/-- What is done with the reply to a request. -/
inductive RequestGoal where
  /-- It is handed on. -/
  | relay
  /-- It is read. -/
  | read (shape : ReplyShape)
  /-- It tells the virtual file of a source. -/
  | virtualFile (source : String)
  /-- It is a report. -/
  | doctor

/-! ### Outcomes -/

/-- What came of a call. -/
inductive Outcome where
  /-- The session of a generation is ready. -/
  | session (generation : Nat)
  /-- It is done. -/
  | done
  /-- A reply has been read. -/
  | reply (observation : Observation)
  /-- A virtual file is shown, or there is none. -/
  | shown (uri? : Option String)
  /-- A command has ended. -/
  | command (result : Except CommandError Unit)
  /-- It failed. -/
  | failed (error : SessionError)

/-! ### Phases -/

/-- How far a call has come. -/
inductive Phase where
  /-- It has not run yet. -/
  | fresh
  /-- It waits for the life-cycle lock. -/
  | queued
  /-- It waits for the server to be launched. -/
  | launching (generation : Nat)
  /-- It waits for the server to be initialized. -/
  | initializing (generation id : Nat)
  /-- It waits for the connection of a start that failed to end. -/
  | abandoning (generation : Nat) (error : SessionError) (deadline : Nat)
  /-- It waits for the server to acknowledge the shutdown. -/
  | stopping (generation id : Nat)
  /-- It waits for the connection to end. -/
  | closing (generation deadline : Nat)
  /-- It waits for the process of the server to end; then a stop is over, or a start has failed. -/
  | reaping (generation deadline : Nat) (error? : Option SessionError)
  /-- It waits for a status after the first `seen` ones. -/
  | watching (seen : Nat)
  /-- It waits for whoever has the life-cycle lock, to look again. -/
  | peeking
  /-- It waits for the reply to a request. -/
  | awaiting (generation id : Nat) (goal : RequestGoal)
  /-- It has ended. -/
  | finished (outcome : Outcome)
  /-- Its caller has gone away. -/
  | dropped

namespace Phase

/-- Whether the call is over. -/
def isOver : Phase → Bool
  | finished _ => true
  | dropped => true
  | _ => false

/-- The generation whose session a call keeps in being. -/
def session? : Phase → Option Nat
  | stopping g _ => some g
  | closing g _ => some g
  | reaping g _ none => some g
  | awaiting g _ _ => some g
  | _ => none

/-- The generation whose connection a call keeps in being. -/
def connection? : Phase → Option Nat
  | launching g => some g
  | initializing g _ => some g
  | abandoning g _ _ => some g
  | reaping g _ _ => some g
  | phase => phase.session?

/-- The request that a call waits for: generation and number. -/
def exchange? : Phase → Option (Nat × Nat)
  | initializing g id => some (g, id)
  | stopping g id => some (g, id)
  | awaiting g id _ => some (g, id)
  | _ => none

/-- Whether the call has run. -/
def hasBegun : Phase → Bool
  | fresh => false
  | _ => true

end Phase

/-- A call. -/
structure Call where
  operation : Operation
  phase : Phase := .fresh

/-- Whether a call holds on to the client. A command does so from its beginning on. -/
def Call.holdsClient (call : Call) : Bool :=
  !call.phase.isOver && match call.operation with
    | .relay _ _ _ => false
    | .command _ _ reported => reported || call.phase.hasBegun
    | _ => true

end LanguageClient
