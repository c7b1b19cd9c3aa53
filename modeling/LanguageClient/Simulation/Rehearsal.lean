import LanguageClient.Client.Step
import LanguageClient.Simulation.Order

/-!
# Rehearsals

A rehearsal runs a client with scripted servers, and with callers that follow orders. This module
holds its state and what the servers do.

* `Rehearsal` — client, servers and callers.
* `Rehearsal.launchServers` — a server for every attempt.
* `Rehearsal.serverWorks` — a server hears messages and acts.
* `Rehearsal.newestActs` — the newest server does something by order.
-/

namespace LanguageClient

/-- A job in the background. -/
structure BackgroundJob where
  tag : String
  job : Rehearsal.Job
  /-- Whether its result has been told. -/
  told : Bool := false

/-- A client with its servers and callers. -/
structure Rehearsal where
  client : Client
  /-- The scripts of the servers in the order of their launches; the last one holds for all later
  launches. -/
  scripts : List ServerScript := []
  /-- How long a server pauses before each action. -/
  pace : Nat := 1
  /-- Whether a server is gone as soon as the client writes no more. -/
  separateStreams : Bool := false
  /-- One server for each attempt. -/
  servers : List ScriptedServer := []
  /-- What the servers have read: generation and message, the oldest first. -/
  heard : List (Nat × Json) := []
  /-- The generation of the kept handle. -/
  held? : Option Nat := none
  background : List BackgroundJob := []
  /-- What the script of the rehearsal is at. -/
  main : Rehearsal.Job := .ends .nothing

namespace Rehearsal

/-! ### Launching -/

/-- The script of a generation. -/
def scriptOf (r : Rehearsal) (g : Nat) : ServerScript :=
  (r.scripts[g - 1]?).getD (r.scripts.getLastD {})

/-- Changes the server of a generation. -/
def updateServer (r : Rehearsal) (g : Nat) (f : ScriptedServer → ScriptedServer) : Rehearsal :=
  { r with servers := r.servers.modify (g - 1) f }

/-- Lets an event happen to the client. -/
def happen (r : Rehearsal) (event : Client.Event) : Rehearsal :=
  { r with client := r.client.step event }

/-- The server of a generation goes away. -/
def leave (r : Rehearsal) (g : Nat) : Rehearsal :=
  let r := r.updateServer g fun s => { s with gone := true, agenda := [] }
  (r.happen (.connection g .endOfStream)).happen (.connection g .stopReading)

/-- A launch is over: the client learns what came of it. -/
def finishLaunch (r : Rehearsal) (g : Nat) : Rehearsal :=
  let script := r.scriptOf g
  let r := r.updateServer g fun s => { s with launched := true }
  match script.refusal? with
  | some error => (r.updateServer g fun s => { s with gone := true }).happen (.launchFailed g error)
  | none =>
      let r := r.happen (.launchSucceeded g script.taken false)
      if script.dead then r.leave g else r

/-- The launches that are over by now. -/
def finishLaunches (r : Rehearsal) : Rehearsal :=
  (List.range r.servers.length).foldl
    (fun r i => match r.servers[i]? with
      | some s => if !s.launched && s.dueAt ≤ r.client.now then r.finishLaunch (i + 1) else r
      | none => r)
    r

/-- Launches a server for every new attempt. -/
def launchServers (r : Rehearsal) : Rehearsal :=
  let fresh := (List.range' (r.servers.length + 1) (r.client.generation - r.servers.length)).map
    fun g =>
      let script := r.scriptOf g
      ({ script, dueAt := r.client.now + script.launchDelay } : ScriptedServer)
  { r with servers := r.servers ++ fresh }.finishLaunches

/-! ### Acting -/

/-- Whether a server may still be heard by the client. -/
def isHeard (r : Rehearsal) (g : Nat) : Bool :=
  (r.client.connection? g).any fun c => c.isOpen || c.reader.active

/-- Whether a server has come to the end of what the client writes. -/
def hearsEnd (r : Rehearsal) (g : Nat) : Bool :=
  (r.client.connection? g).any fun c => !c.isOpen && (r.separateStreams || !c.reader.active)

/-- A server does something. One that cannot write any more goes away. -/
def serverActs (r : Rehearsal) (g : Nat) (server : ScriptedServer) (action : ServerAction) :
    Rehearsal :=
  match action with
  | .close => r.leave g
  | .wait _ => r
  | .complain lines => lines.foldl (fun r line => r.happen (.complaint line)) r
  | action => match action.bytes? server.handled with
      | some bytes =>
          if server.writes && r.isHeard g then r.happen (.connection g (.receive bytes))
          else r.leave g
      | none => r

/-- The message that a server reads next. -/
def unread? (r : Rehearsal) (g : Nat) (server : ScriptedServer) : Option Json :=
  (r.client.connection? g).bind fun c => c.written[server.heard]?

/-- What a server can do now. -/
inductive ServerMove where
  /-- It begins a pause. -/
  | pause (span : Nat) (rest : List ServerStep)
  | act (action : ServerAction) (rest : List ServerStep)
  /-- It reads a message. -/
  | hear (message : Json)
  /-- It goes away at the end of the stream. -/
  | leave

/-- What a server can do now, if anything. -/
def move? (r : Rehearsal) (g : Nat) (server : ScriptedServer) : Option ServerMove :=
  if !server.isUp || r.client.now < server.wakeAt then none
  else match server.agenda with
    | .pause span :: rest => some (.pause span rest)
    | .act action :: rest => some (.act action rest)
    | [] => match r.unread? g server with
        | some message => some (.hear (Frame.marked message))
        | none => if r.hearsEnd g then some .leave else none

/-- A server does what it can do now. -/
def makeMove (r : Rehearsal) (g : Nat) (server : ScriptedServer) : ServerMove → Rehearsal
  | .pause span rest =>
      r.updateServer g fun s => { s with agenda := rest, wakeAt := r.client.now + span }
  | .act action rest =>
      (r.updateServer g fun s => { s with agenda := rest }).serverActs g server action
  | .hear message =>
      let r := r.updateServer g fun s =>
        { s with
          heard := s.heard + 1
          handled := message
          agenda := (s.script.respond message).flatMap (ServerStep.paced r.pace) }
      { r with heard := r.heard ++ [(g, message)] }
  | .leave => r.leave g

/-- A server works as long as it can, for at most `fuel` moves. -/
def serverWorks (g : Nat) : Nat → Rehearsal → Rehearsal
  | 0, r => r
  | fuel + 1, r => match r.servers[g - 1]? with
      | some server => match r.move? g server with
          | some move => serverWorks g fuel (r.makeMove g server move)
          | none => r
      | none => r

/-! ### The newest server -/

/-- The generation of the newest server that was launched. -/
def newest? (r : Rehearsal) : Option Nat :=
  (List.range' 1 r.servers.length).reverse.find? fun g =>
    (r.servers[g - 1]?).any fun s => s.launched && s.script.refusal?.isNone

/-- Whether the server of a generation is there and can write. -/
def canWrite (r : Rehearsal) (g : Nat) : Bool :=
  (r.servers[g - 1]?).any fun s => s.isUp && s.writes

/-- The newest server does something at once. When it hangs up, it goes on reading until it notices
that it cannot write. -/
def newestActs (r : Rehearsal) (action : ServerAction) : Rehearsal × Bool :=
  match r.newest? with
  | none => (r, false)
  | some g =>
      if !r.canWrite g then (r, false)
      else match action with
        | .close => (r.updateServer g fun s => { s with writes := false }, false)
        | action =>
            let r := (r.servers[g - 1]?).elim r fun s => r.serverActs g s action
            (r, r.canWrite g)

end Rehearsal
end LanguageClient
