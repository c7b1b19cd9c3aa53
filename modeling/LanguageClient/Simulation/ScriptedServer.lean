import LanguageClient.Config
import LanguageClient.Frame.Basic
import LanguageClient.Session.Handshake

/-!
# Scripted servers

A scripted server handles the messages of the client one by one. Its script lists the actions with
which it handles a method; there is a pause before each of them.

* `ServerAction`, `ServerScript` — what a server does.
* `ServerScript.respond` — the actions for a message.
* `ScriptedServer` — a server and how far it has come.
-/

namespace LanguageClient

/-- What a scripted server does. -/
inductive ServerAction where
  /-- Answer the message being handled. -/
  | result (value : Json)
  /-- Answer the message being handled with an error. -/
  | error (value : Json)
  /-- Send a message. -/
  | send (message : Json)
  /-- Send bytes. -/
  | bytes (content : List UInt8)
  /-- Do nothing for a while. -/
  | wait (span : Nat)
  /-- Hang up. -/
  | close
  /-- Write lines to the error output. -/
  | complain (lines : List String)

namespace ServerAction

/-- The bytes that an action sends while a message is being handled; none for other actions. -/
def bytes? (handled : Json) : ServerAction → Option (List UInt8)
  | result value =>
      some (Frame.encode (.obj [("id", (handled.get? "id").getD .null), ("result", value)]))
  | error value =>
      some (Frame.encode (.obj [("error", value), ("id", (handled.get? "id").getD .null)]))
  | send message => some (Frame.encode message)
  | bytes content => some content
  | wait _ => none
  | close => none
  | complain _ => none

end ServerAction

/-- What a server does about a method that its script does not mention. -/
inductive Unlisted where
  /-- It answers requests, and hangs up when it is told to exit. -/
  | answer
  /-- Nothing. -/
  | ignore
  /-- It sends the message back. -/
  | echo
  deriving DecidableEq, Repr

/-- What a server does, and how its launch goes. -/
structure ServerScript where
  /-- The actions for some methods. -/
  handlers : List (String × List ServerAction) := []
  /-- What it does about all others. -/
  others : Unlisted := .answer
  /-- How long the launch takes. -/
  launchDelay : Nat := 0
  /-- Why the launch fails, if it does. -/
  refusal? : Option SessionError := none
  /-- Whether the server is gone as soon as it is launched. -/
  dead : Bool := false
  /-- Whether somebody else already receives its notifications. -/
  taken : Bool := false

namespace ServerScript

/-- The answer of an obliging server. -/
def oblige (message : Json) (method : String) : List ServerAction :=
  if method = Method.initializeServer then [.result (.obj [("capabilities", .obj [])])]
  else if method = Method.exit then [.close]
  else if (message.get? "id").isSome then [.result .null]
  else []

/-- The actions for a message. A reply needs none. -/
def respond (script : ServerScript) (message : Json) : List ServerAction :=
  match (message.get? "method").bind Json.asString?, script.others with
  | some method, .answer => (script.handlers.lookup method).getD (oblige message method)
  | some method, .ignore => (script.handlers.lookup method).getD []
  | some method, .echo => (script.handlers.lookup method).getD [.send message]
  | none, .echo => [.send message]
  | none, _ => []

end ServerScript

/-- What a server does next. -/
inductive ServerStep where
  | pause (span : Nat)
  | act (action : ServerAction)

/-- An action after a pause. -/
def ServerStep.paced (pace : Nat) : ServerAction → List ServerStep
  | .wait span => [.pause pace, .pause span]
  | action => [.pause pace, .act action]

/-- A server and how far it has come. -/
structure ScriptedServer where
  script : ServerScript
  /-- When its launch is over. -/
  dueAt : Nat
  /-- Whether its launch is over. -/
  launched : Bool := false
  /-- How many messages it has read. -/
  heard : Nat := 0
  /-- The message being handled. -/
  handled : Json := .null
  /-- What is left to do about that message. -/
  agenda : List ServerStep := []
  /-- Until when it pauses. -/
  wakeAt : Nat := 0
  /-- Whether it can still write. -/
  writes : Bool := true
  /-- Whether it is gone. -/
  gone : Bool := false

/-- Whether a server has been launched and is not gone. -/
def ScriptedServer.isUp (server : ScriptedServer) : Bool := server.launched && !server.gone

end LanguageClient
