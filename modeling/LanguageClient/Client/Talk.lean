import LanguageClient.Client.Effects
import LanguageClient.Session.Handshake

/-!
# Talking to a server

* `Client.send` — hands in a request and tells its number.
* `Client.notify?` — hands in a notification.
* `Client.settle?` — takes the outcome of a request, once there is one.
* `Client.finish`, `Client.finishCommand` — the ends of a call.
-/

namespace LanguageClient
namespace Client

/-! ### Messages -/

/-- Hands in a request on the connection of a generation, with the time that it may take; its number
comes with the client. -/
def send (c : Client) (g : Nat) (method : String) (params : Json) (span : Nat) : Client × Nat :=
  match c.connection? g with
  | some connection =>
      match connection.request method params (c.now + span) with
      | (connection, id) => (c.updateConnection g fun _ => connection, id)
  | none => (c, 0)

/-- Hands in a notification on the connection of a generation; none when that has ended. -/
def notify? (c : Client) (g : Nat) (message : Notification) : Option Client :=
  match (c.connection? g).bind (Connection.notify? · message) with
  | some connection => some (c.updateConnection g fun _ => connection)
  | none => none

theorem notify?_eq_some_iff {c d : Client} {g : Nat} {message : Notification} :
    c.notify? g message = some d ↔ ∃ before after, c.connection? g = some before ∧
      before.notify? message = some after ∧ d = c.updateConnection g fun _ => after := by
  unfold notify?
  cases c.connection? g with
  | none => simp
  | some before => cases hnotify : before.notify? message <;> simp [hnotify, eq_comm]

/-- The outcome of a request on the connection of a generation, as soon as there is one. -/
def settle? (c : Client) (g id : Nat) : Option (Client × Except SessionError Json) :=
  match (c.connection? g).bind (Connection.settle? · c.now id) with
  | some (connection, outcome) => some (c.updateConnection g fun _ => connection, outcome)
  | none => none

theorem settle?_eq_some_iff {c d : Client} {g id : Nat} {outcome : Except SessionError Json} :
    c.settle? g id = some (d, outcome) ↔ ∃ before after, c.connection? g = some before ∧
      before.settle? c.now id = some (after, outcome) ∧
        d = c.updateConnection g fun _ => after := by
  unfold settle?
  cases c.connection? g with
  | none => simp
  | some before =>
      cases hsettle : before.settle? c.now id with
      | none => simp [hsettle]
      | some settled =>
          simp only [Option.bind_some, hsettle, Option.some.injEq, Prod.mk.injEq]
          constructor
          · rintro ⟨rfl, rfl⟩
            exact ⟨before, settled.1, rfl, hsettle, rfl⟩
          · rintro ⟨_, after, rfl, hsame, rfl⟩
            cases hsettle.symm.trans hsame
            exact ⟨rfl, rfl⟩

/-- The caller of a request goes away. -/
def forget (c : Client) (g id : Nat) : Client := c.updateConnection g (Connection.forget · id)

/-- Whether waiting for the connection of a generation to end is over. -/
def closeIsOver (c : Client) (g deadline : Nat) : Bool :=
  match c.connection? g with
  | some connection => connection.closeIsOver c.now deadline
  | none => true

/-! ### The ends of a call -/

/-- What a call asks for. -/
def operation? (c : Client) (call : Nat) : Option Operation := c.calls[call]?.map Call.operation

/-- Ends a call. -/
def finish (c : Client) (call : Nat) (outcome : Outcome) : Client :=
  c.setPhase call (.finished outcome)

/-- Ends a command; a failure that is to be reported goes to the output channel first. -/
def finishCommand (c : Client) (call : Nat) (result : Except CommandError Unit) : Client :=
  let c := match c.operation? call, result with
    | some (.command _ _ true), .error e => c.say (.appendOutput ("[Error] " ++ e.message))
    | _, _ => c
  c.finish call (.command result)

end Client
end LanguageClient
