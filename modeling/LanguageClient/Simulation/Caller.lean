import LanguageClient.Simulation.Rehearsal

/-!
# Callers

* `Rehearsal.attend` — a caller goes on with its call as long as it can.
* `Rehearsal.obey` — an order that takes no time is carried out.
* `Rehearsal.begin` — an order begins.
* `Rehearsal.goOn`, `Rehearsal.Job.isReady` — a job goes on, and whether it can.
-/

namespace LanguageClient
namespace Rehearsal

/-- How often a call can go on in one turn. -/
def turnLength : Nat := 32

/-- A call goes on as long as it can, for at most `fuel` times. -/
def callWorks (call : Nat) : Nat → Rehearsal → Rehearsal
  | 0, r => r
  | fuel + 1, r =>
      if r.client.canPoll call then callWorks call fuel (r.happen (.poll call)).launchServers else r

/-- A caller waits for a call, and goes on with it as long as it can. -/
def attend (r : Rehearsal) (call : Nat) : Rehearsal × Job :=
  let r := callWorks call turnLength r
  match r.client.outcome? call with
  | some outcome => (r, .ends (.outcome outcome))
  | none => (r, .waiting call)

/-- A caller asks the client for something. -/
def ask (r : Rehearsal) (operation : Operation) : Rehearsal × Job :=
  let call := r.client.calls.length
  (r.happen (.invoke operation)).attend call

/-- The session that is ready, with what can be told of it. -/
def sessionOf (r : Rehearsal) (g? : Option Nat) : Result :=
  .session? (g?.map fun g => (g, r.client.isAlive g))

/-- What an order misses now. -/
def missing? (r : Rehearsal) (order : Order) : Option Missing :=
  if r.client.released then order.missing? else none

/-- The console as the host of the client. -/
def console (r : Rehearsal) : Console := r.client.workspace.console

/-- The virtual files of the client. -/
def store (r : Rehearsal) : VirtualStore := r.client.workspace.store

/-- Changes the console. -/
def updateConsole (r : Rehearsal) (f : Console → Console) : Rehearsal :=
  { r with
    client := { r.client with workspace := { r.client.workspace with console := f r.console } } }

/-- Whether a method has a handler. -/
def hasHandler (r : Rehearsal) (method : String) : Bool :=
  r.client.workspace.router.isRegistered method

/-- Carries out an order that takes no time. -/
def obey (r : Rehearsal) : Order → Rehearsal × Result
  | .session => (r, r.sessionOf r.client.session?)
  | .hold => ({ r with held? := r.client.session? }, .flag r.client.session?.isSome)
  | .handle => (r, r.sessionOf r.held?)
  | .relayNotification method params => match r.held? with
      | some g =>
          (r.happen (.relayNotification g ⟨method, params⟩),
            .notified ((r.client.relayNotification g ⟨method, params⟩).map fun _ => ()))
      | none => (r, .missing .handle)
  | .onReady tag => (r.happen (.onReady (.observe tag)), .nothing)
  | .routeLog method tag =>
      ({ r with client := r.client.registerHandler method (.observe tag) }, .nothing)
  | .dispatch method params =>
      ({ r with client := r.client.deliver ⟨method, params⟩ }, .flag (r.hasHandler method))
  | .isRegistered method => (r, .flag (r.hasHandler method))
  | .server action => match r.newestActs action with
      | (r, here) => (r, .flag here)
  | .crash => (r.newest?.elim r r.leave, .nothing)
  | .storeGet uri => (r, .file? (r.store.get? uri))
  | .storeSet uri content sourceMap =>
      ({ r with client := r.client.setFile uri content sourceMap }, .nothing)
  | .storeSize => (r, .number r.store.size)
  | .provide uri => (r, .text? (some (r.store.provide uri)))
  | .readDocument uri => (r, .text? (r.console.readDocument? r.store uri))
  | .activeDocument uri? => (r.updateConsole fun c => { c with active := uri? }, .nothing)
  | .cat uri => (r.updateConsole fun c => c.cat r.store uri, .nothing)
  | .commandNames => (r, .texts r.client.workspace.commands.ids)
  | .drop => (r.happen .release, .nothing)
  | .background tag order =>
      ({ r with background := r.background ++ [{ tag, job := .todo order }] }, .nothing)
  | _ => (r, .nothing)

mutual

/-- Begins an order. -/
def start (r : Rehearsal) : Order → Rehearsal × Job
  | .call operation => r.ask operation
  | .deactivate => r.ask .stop
  | .relayRequest method params => match r.held? with
      | some g => r.ask (.relay g method params)
      | none => (r, .ends (.missing .handle))
  | .server (.wait span) =>
      (r, .sleeping (r.client.now + span) (.flag (r.newest?.any r.canWrite)))
  | .advance span => (r, .sleeping (r.client.now + span) .nothing)
  | .join orders => match startAll r orders with
      | (r, jobs) => (r, .group jobs)
  | order => match r.obey order with
      | (r, result) => (r, .ends result)

/-- Begins orders one after the other, except those that miss something. -/
def startAll (r : Rehearsal) : List Order → Rehearsal × List Job
  | [] => (r, [])
  | order :: rest =>
      let (r, job) := match r.missing? order with
        | some what => (r, .ends (.missing what))
        | none => start r order
      let (r, jobs) := startAll r rest
      (r, job :: jobs)

end

/-- Begins an order, unless it misses something. -/
def begin (r : Rehearsal) (order : Order) : Rehearsal × Job :=
  match r.missing? order with
  | some what => (r, .ends (.missing what))
  | none => r.start order

mutual

/-- Whether a job can go on. -/
def Job.isReady (client : Client) : Job → Bool
  | .todo _ => true
  | .waiting call => client.canPoll call
  | .sleeping time _ => time ≤ client.now
  | .group jobs => anyReady client jobs
  | .ends _ => false

/-- Whether one of several jobs can go on. -/
def anyReady (client : Client) : List Job → Bool
  | [] => false
  | job :: rest => job.isReady client || anyReady client rest

end

mutual

/-- A job goes on as long as it can. -/
def goOn (r : Rehearsal) : Job → Rehearsal × Job
  | .todo order => r.begin order
  | .waiting call => r.attend call
  | .sleeping time result =>
      (r, if time ≤ r.client.now then .ends result else .sleeping time result)
  | .group jobs => match goOnAll r jobs with
      | (r, jobs) => (r, .group jobs)
  | .ends result => (r, .ends result)

/-- Jobs go on one after the other. -/
def goOnAll (r : Rehearsal) : List Job → Rehearsal × List Job
  | [] => (r, [])
  | job :: rest =>
      let (r, job) := goOn r job
      let (r, jobs) := goOnAll r rest
      (r, job :: jobs)

end

end Rehearsal
end LanguageClient
