import LanguageClient.Client.Poll

/-!
# The steps of the client

Every event is one atomic step: what happens between two points at which a task of the client waits.
Which possible event comes next is left open, so a statement about all sequences of events covers
every order of callers, servers and connections.

* `Client.Event` — the events.
* `Client.tidy` — what nobody keeps in being goes away.
* `Client.step`, `Client.run` — the client after an event, and after several.
-/

namespace LanguageClient

/-- Whether a connection or its server takes a step by itself, without a caller. -/
def Connection.Action.isSpontaneous : Connection.Action → Bool
  | .read | .start | .write | .finish | .handle | .remove => true
  | .receive _ | .endOfStream | .stopReading => true
  | _ => false

namespace Client

/-- Something that happens to the client. -/
inductive Event where
  /-- Time passes. -/
  | advance (span : Nat)
  /-- A caller asks for something. -/
  | invoke (operation : Operation)
  /-- A call goes on. -/
  | poll (call : Nat)
  /-- The caller of a call goes away. -/
  | cancel (call : Nat)
  /-- The launch of a server fails. -/
  | launchFailed (generation : Nat) (error : SessionError)
  /-- A server is launched; somebody else may already receive its notifications, and it may be a
  process of its own. -/
  | launchSucceeded (generation : Nat) (taken process : Bool)
  /-- The process of a server ends. -/
  | processEnded (generation : Nat)
  /-- A connection or its server takes a step. -/
  | connection (generation : Nat) (action : Connection.Action)
  /-- A server writes a line to its error output. -/
  | complaint (line : String)
  /-- The pump of a session delivers a notification, or ends. -/
  | pump (generation : Nat)
  /-- A hook is added. -/
  | onReady (hook : Hook)
  /-- A notification is sent to the session of a generation. -/
  | relayNotification (generation : Nat) (message : Notification)
  /-- The owner gives the client away. -/
  | release

/-! ### Callers -/

/-- A caller asks for something. A client that nobody holds can be asked for nothing but what does
not need it. -/
def invoke (c : Client) (operation : Operation) : Client :=
  if c.isHeld || !operation.needsClient then { c with calls := c.calls ++ [{ operation }] } else c

/-- The caller of a call goes away: its request is forgotten, its indicators end, and the lock goes
to the next in line. -/
def cancel (c : Client) (call : Nat) : Client :=
  match c.calls[call]? with
  | none => c
  | some k =>
      if k.phase.isOver then c
      else
        let c := match k.phase.exchange? with
          | some (g, id) => c.forget g id
          | none => c
        ({ c with lock := c.lock.leave call }.endProgress call).setPhase call .dropped

/-- Sends a notification to the session of a generation. -/
def relayNotification (c : Client) (g : Nat) (message : Notification) :
    Except SessionError Client :=
  if c.hasSession g then match c.notify? g message with
    | some c => .ok c
    | none => .error .connectionClosed
  else .error .notRunning

/-! ### Servers -/

/-- A server is launched, or its launch fails, for a start that waits for it. -/
def setLaunch (c : Client) (g : Nat) (launch : Launch) (taken : Bool) (process : Process) :
    Client :=
  c.updateAttempt g fun a => match a.launch with
    | .awaited => { a with launch, connection := { a.connection with taken }, process }
    | _ => a

/-- A connection takes a step, if it can. -/
def moveConnection (c : Client) (g : Nat) (action : Connection.Action) : Client :=
  match c.attempt? g with
  | some { launch := .connected, connection, .. } =>
      if action.isSpontaneous then
        match connection.step? action with
        | some connection => c.updateConnection g fun _ => connection
        | none => c
      else c
  | _ => c

/-- The session of a generation is lost if the client still owns it. -/
def connectionLost (c : Client) (g : Nat) : Client :=
  if c.slot = some g then { c with slot := none }.reportFailure g .connectionClosed else c

/-- Whether the pump of a generation can do something. -/
def canPump (c : Client) (g : Nat) : Bool :=
  match c.attempt? g with
  | some { pump := .armed, connection, .. } =>
      !connection.notifications.isEmpty || !connection.isOpen
  | _ => false

/-- The pump of a generation delivers the next notification; when none is left and none can come, it
ends, and the session is lost. -/
def pump (c : Client) (g : Nat) : Client :=
  match c.attempt? g with
  | some { pump := .armed, connection, .. } =>
      match connection.notifications with
      | message :: rest =>
          ((c.updateConnection g fun k => { k with notifications := rest }).note
            (.delivered g message)).deliver message
      | [] => if connection.isOpen then c else (c.setPump g .ended).connectionLost g
  | _ => c

/-! ### What nobody keeps in being -/

/-- The attempt of a generation when nobody keeps its connection: the connection is aborted, its
process is killed, and a pump that never delivered ends. -/
def discard (a : Attempt) : Attempt :=
  match a.launch with
  | .connected =>
      { a with
        connection := a.connection.abort
        process := if a.process = .running then .ended else a.process
        pump := if a.pump = .waiting then .ended else a.pump }
  | _ => a

/-- A client that nobody holds owns no session, and connections that nobody keeps are
discarded. -/
def tidy (c : Client) : Client :=
  let c := if c.isHeld then c else { c with slot := none }
  { c with
    attempts := c.attempts.mapIdx fun i a => if c.keepsConnection (i + 1) then a else discard a }

/-! ### All steps -/

/-- What an event does. -/
def act (c : Client) : Event → Client
  | .advance span => { c with now := c.now + span }
  | .invoke operation => c.invoke operation
  | .poll call => c.poll call
  | .cancel call => c.cancel call
  | .launchFailed g error => c.setLaunch g (.failed error) false .absent
  | .launchSucceeded g taken process =>
      c.setLaunch g .connected taken (if process then .running else .absent)
  | .processEnded g => c.endProcess g
  | .connection g action => c.moveConnection g action
  | .complaint line => c.say (.appendOutput line)
  | .pump g => c.pump g
  | .onReady hook => c.onReady hook
  | .relayNotification g message => match c.relayNotification g message with
      | .ok c => c
      | .error _ => c
  | .release => { c with released := true }

/-- The client after an event. -/
def step (c : Client) (event : Event) : Client := (c.act event).tidy

/-- The client after a sequence of events. -/
def run (c : Client) (events : List Event) : Client := events.foldl step c

end Client
end LanguageClient
