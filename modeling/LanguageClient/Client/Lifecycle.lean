import LanguageClient.Client.Talk

/-!
# The life cycle of a session

A call that holds the life-cycle lock has its turn: it starts a session, stops it, or does both.
Every definition here is what such a call does between two points at which it waits, with what comes
`Next` for the call. None of them looks at the lock or at other calls.

* `Client.startLocked`, `Client.afterLaunch`, `Client.afterHandshake`, `Client.install` — a start.
* `Client.abandonStart`, `Client.afterAbandoning` — a start that fails after the launch.
* `Client.stopLocked`, `Client.afterShutdown`, `Client.afterClosing` — a stop.
* `Client.reap`, `Client.afterReaping` — the end of both: the process of the server ends.
* `Client.conclude` — gives the lock back and ends the call.
* `Client.askTurn` — asks for the lock.
-/

namespace LanguageClient

/-- What comes next for a call that has its turn. -/
inductive Next where
  /-- It waits. -/
  | waits (phase : Phase)
  /-- Its turn ends. -/
  | ends (outcome : Outcome)

namespace Client

/-! ### Starting -/

/-- Publishes that the start of a session failed. -/
def failStart (c : Client) (g : Nat) (error : SessionError) : Client × Next :=
  (c.reportFailure g error, .ends (.failed error))

/-- Starts a session of the next generation, unless one is ready. -/
def startLocked (c : Client) : Client × Next :=
  match c.session? with
  | some g => (c, .ends (.session g))
  | none =>
      let g := c.generation + 1
      let c := { c with attempts := c.attempts ++ [({} : Attempt)] }
      ((c.publish g .starting).note (.launched g), .waits (.launching g))

/-- Begins the handshake with a launched server; it fails when somebody else receives the
notifications. -/
def beginHandshake (c : Client) (g : Nat) : Client × Next :=
  match (c.connection? g).bind Connection.take? with
  | none => c.failStart g (.protocol .queueTaken)
  | some connection =>
      let c := c.updateConnection g fun _ => connection
      let params := Handshake.initializeParams c.processId c.options.initializationOptions
      match c.send g Method.initializeServer params c.options.requestTimeout with
      | (c, id) => (c, .waits (.initializing g id))

/-- Goes on after the launch. -/
def afterLaunch (c : Client) (g : Nat) : Client × Next :=
  match (c.attempt? g).map Attempt.launch with
  | some (.failed error) => c.failStart g error
  | some .connected => c.beginHandshake g
  | _ => (c, .waits (.launching g))

/-- Gives a start up: its connection gets some time to end. -/
def abandonStart (c : Client) (g : Nat) (error : SessionError) : Client × Next :=
  (c, .waits (.abandoning g error (c.now + c.options.stopGrace)))

/-- Makes the session of a generation the one that the client owns, unless its connection has ended:
it is published as ready, the hooks run, and only then its notifications are delivered. -/
def install (c : Client) (g : Nat) : Client × Next :=
  let c := c.setPump g .waiting
  if (c.connection? g).any Connection.closed then c.failStart g .connectionClosed
  else
    let c := { c with slot := some g }.publish g .ready
    ((c.runHooks g).setPump g .armed, .ends (.session g))

/-- Goes on when the server has told what it can do. -/
def afterHandshake (c : Client) (g id : Nat) : Client × Next :=
  match c.settle? g id with
  | none => (c, .waits (.initializing g id))
  | some (c, .error error) => c.abandonStart g error
  | some (c, .ok result) =>
      if InitializeResult.isAccepted result then
        match c.notify? g ⟨Method.initialized, Handshake.noParams⟩ with
        | some c => c.install g
        | none => c.abandonStart g .connectionClosed
      else c.abandonStart g .invalidMessage

/-! ### Stopping -/

/-- Goes on when no session is left: a restart starts one. -/
def afterStop (c : Client) : Operation → Client × Next
  | .stop => (c, .ends .done)
  | _ => c.startLocked

/-- Takes the session away and asks its server to shut down. -/
def stopLocked (c : Client) (operation : Operation) : Client × Next :=
  match c.slot with
  | none => c.afterStop operation
  | some g =>
      match { c with slot := none }.send g Method.shutdown .null c.options.stopGrace with
      | (c, id) => (c, .waits (.stopping g id))

/-- Goes on after the answer: a server that has acknowledged is told to exit, and the connection
gets some time to end. -/
def afterShutdown (c : Client) (g id : Nat) : Client × Next :=
  match c.settle? g id with
  | none => (c, .waits (.stopping g id))
  | some (c, outcome) =>
      let c := match outcome with
        | .ok _ => (c.notify? g ⟨Method.exit, .null⟩).getD c
        | .error _ => c
      (c, .waits (.closing g (c.now + c.options.stopGrace)))

/-! ### The end of a connection -/

/-- Ends a close: a start that was given up has failed, or what is left of the session ends. -/
def afterClose (c : Client) (operation : Operation) (g : Nat) :
    Option SessionError → Client × Next
  | some error => c.failStart g error
  | none => ((c.setPump g .ended).publish g .stopped).afterStop operation

/-- Aborts a connection; its process gets some time to end. -/
def reap (c : Client) (operation : Operation) (g : Nat) (error? : Option SessionError) :
    Client × Next :=
  let c := c.updateConnection g Connection.abort
  if c.hasProcess g then (c, .waits (.reaping g (c.now + c.options.stopGrace) error?))
  else c.afterClose operation g error?

/-- Goes on when the connection of a start that was given up has had its time. -/
def afterAbandoning (c : Client) (operation : Operation) (g : Nat) (error : SessionError)
    (deadline : Nat) : Client × Next :=
  if c.closeIsOver g deadline then c.reap operation g (some error)
  else (c, .waits (.abandoning g error deadline))

/-- Goes on when the connection of a session that is stopped has had its time. -/
def afterClosing (c : Client) (operation : Operation) (g deadline : Nat) : Client × Next :=
  if c.closeIsOver g deadline then c.reap operation g none else (c, .waits (.closing g deadline))

/-- Whether waiting for the process of a generation is over. -/
def reapIsOver (c : Client) (g deadline : Nat) : Bool := !c.hasProcess g || deadline ≤ c.now

/-- Goes on when the process has had its time; one that still runs is killed. -/
def afterReaping (c : Client) (operation : Operation) (g deadline : Nat)
    (error? : Option SessionError) : Client × Next :=
  if c.reapIsOver g deadline then (c.endProcess g).afterClose operation g error?
  else (c, .waits (.reaping g deadline error?))

/-! ### Turns -/

/-- Begins the turn of a call. -/
def beginTurn (c : Client) : Operation → Client × Next
  | .start => c.startLocked
  | .activate => c.startLocked
  | operation => c.stopLocked operation

/-- Gives the lock back and ends the call. A call that showed an indicator takes it away and tells
the user of a failure. -/
def conclude (c : Client) (call : Nat) (outcome : Outcome) : Client :=
  let c := { c with lock := c.lock.leave call }
  match c.operation? call with
  | some .activate =>
      let c := c.endProgress call
      let c := match outcome with
        | .failed _ => c.say (.appendOutput "Client initialization failed")
        | _ => c
      c.finish call .done
  | some (.command _ _ _) =>
      let c := c.endProgress call
      let c := match outcome with
        | .failed e => c.say (.showInformation ("Language server restart failed: " ++ e.message))
        | _ => c
      c.finishCommand call (.ok ())
  | _ => c.finish call outcome

/-- A call that has its turn does what comes next. -/
def proceed (call : Nat) : Client × Next → Client
  | (c, .waits phase) => c.setPhase call phase
  | (c, .ends outcome) => c.conclude call outcome

/-- Asks for the lock, and begins the turn at once if it is free. -/
def askTurn (c : Client) (call : Nat) (operation : Operation) : Client :=
  let free := c.lock.isFree
  let c := { c with lock := c.lock.acquire call }
  if free then proceed call (c.beginTurn operation) else c.setPhase call .queued

end Client
end LanguageClient
