import LanguageClient.Client.Command

/-!
# Calls from beginning to end

A call goes on from one point at which it waits to the next.

* `Client.look` — whether a session is ready, or will be.
* `Client.beginCall` — the beginning of a call.
* `Client.canPoll`, `Client.poll` — whether a call can go on, and how it does.
-/

namespace LanguageClient
namespace Client

/-- Why no session will be ready. -/
def noSession (status : Status) : SessionError :=
  match status.state with
  | .failed =>
      .startFailed ("session " ++ String.ofList (Nat.toDigits 10 status.generation) ++
        " did not reach ready")
  | _ => .notRunning

/-- Looks whether a session is ready. If none is and none is being started, none will be; while
somebody holds the lock, it is worth looking again. -/
def look (c : Client) (call : Nat) : Client :=
  match c.status.state, c.session? with
  | .ready, some g => c.finish call (.session g)
  | .ready, none => c.setPhase call (.watching c.published.length)
  | .starting, _ => c.setPhase call (.watching c.published.length)
  | _, _ =>
      if c.lock.isFree then c.finish call (.failed (noSession c.status))
      else { c with lock := c.lock.acquire call }.setPhase call .peeking

/-- Begins a call. -/
def beginCall (c : Client) (call : Nat) : Operation → Client
  | .start => c.askTurn call .start
  | .stop => c.askTurn call .stop
  | .restart => c.askTurn call .restart
  | .activate => c.activate call
  | .ready => c.look call
  | .request method params shape => c.askSession call method params (.read shape)
  | .relay g method params =>
      if c.hasSession g then c.ask call g method params .relay
      else c.finish call (.failed .notRunning)
  | .showVirtualFile source =>
      c.askSession call Method.queryVirtualFileInfo (queryParams source) (.virtualFile source)
  | .command id args _ => match c.workspace.commands.resolve id with
      | .ok action => c.runCommand call id args action
      | .error e => c.finishCommand call (.error e)

/-- Whether a call in a phase can go on. -/
def canGoOn (c : Client) (call : Nat) : Phase → Bool
  | .fresh => true
  | .queued => c.lock.holder? = some call
  | .launching g => match (c.attempt? g).map Attempt.launch with
      | some .awaited => false
      | some _ => true
      | none => false
  | .initializing g id => (c.settle? g id).isSome
  | .abandoning g _ deadline => c.closeIsOver g deadline
  | .stopping g id => (c.settle? g id).isSome
  | .closing g deadline => c.closeIsOver g deadline
  | .reaping g deadline _ => c.reapIsOver g deadline
  | .watching seen => seen < c.published.length
  | .peeking => c.lock.holder? = some call
  | .awaiting g id _ => (c.settle? g id).isSome
  | .finished _ => false
  | .dropped => false

/-- Whether a call can go on. -/
def canPoll (c : Client) (call : Nat) : Bool := c.calls[call]?.any fun k => c.canGoOn call k.phase

/-- A call goes on to the next point at which it waits. -/
def goOn (c : Client) (call : Nat) (operation : Operation) : Phase → Client
  | .fresh => c.beginCall call operation
  | .queued => proceed call (c.beginTurn operation)
  | .launching g => proceed call (c.afterLaunch g)
  | .initializing g id => proceed call (c.afterHandshake g id)
  | .abandoning g error deadline => proceed call (c.afterAbandoning operation g error deadline)
  | .stopping g id => proceed call (c.afterShutdown g id)
  | .closing g deadline => proceed call (c.afterClosing operation g deadline)
  | .reaping g deadline error? => proceed call (c.afterReaping operation g deadline error?)
  | .watching _ => c.look call
  | .peeking => { c with lock := c.lock.leave call }.look call
  | .awaiting g id goal => c.afterReply call g id goal
  | .finished _ => c
  | .dropped => c

/-- A call goes on, if it can. -/
def poll (c : Client) (call : Nat) : Client :=
  match c.calls[call]? with
  | some k => if c.canGoOn call k.phase then c.goOn call k.operation k.phase else c
  | none => c

end Client
end LanguageClient
