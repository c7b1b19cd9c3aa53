import LanguageClient.Proofs.Connection.Transitions

/-!
# What a connection takes in

Bytes arrive, the reader takes frames off them, and the loop handles what the reader has found.  Calls
and answers do not concern the intake of a connection.  Every step is one of a few moves of it.

* `Intake`, `Connection.intake` — the view.
* `Intake.Move`, `Intake.Fails` — what a step can do to it, and what can go wrong.
* **`Connection.intake_step`** — every step of a connection is a move of its intake.
-/

namespace LanguageClient

/-! ### Messages by kind -/

namespace Inbound

/-- The response, if the message is one. -/
def response? : Inbound → Option Response
  | response message => some message
  | _ => none

/-- The notification, if the message is one. -/
def notification? : Inbound → Option Notification
  | notification message => some message
  | _ => none

/-- The request, if the message is one. -/
def request? : Inbound → Option Request
  | request message => some message
  | _ => none

end Inbound

/-- The notification that a value is, if it is one. -/
def Json.notification? (value : Json) : Option Notification :=
  (Inbound.classify? value).bind Inbound.notification?

/-! ### The view -/

/-- What a connection has taken in, and how far it has come with it. -/
structure Intake where
  loop : LoopPhase
  aborted : Bool
  peerReads : Bool
  closed : Bool
  reader : Reader
  inbox : List (Except SessionError Json)
  notifications : List Notification

namespace Intake

/-- What ends the intake, or keeps the reader from going on. -/
inductive Fails (i : Intake) : Prop
  /-- The loop is to be removed. -/
  | aborted (h : i.aborted)
  /-- The server does not read what is written. -/
  | unread (h : i.peerReads = false)
  /-- The reader has found a fault. -/
  | fault (e : SessionError) (rest : List (Except SessionError Json)) (h : i.inbox = .error e :: rest)
  /-- The reader has stopped, and all that it found is handled. -/
  | stopped (hrunning : i.loop = .running) (hstopped : i.reader.active = false)
  /-- The loop does not take what the reader finds. -/
  | unheard (hactive : i.reader.active) (hloop : i.loop ≠ .running)
  /-- There is no frame at the front of the bytes, and there cannot be one. -/
  | unframed (hnothing : (Frame.read i.reader.ended i.reader.buffer).rest? = none)
      (hnever : Frame.read i.reader.ended i.reader.buffer ≠ .incomplete)

/-- What a step does to the intake, with the bytes that arrive and the value that is handled. -/
inductive Move : Intake → List UInt8 → Option Json → Intake → Prop
  | idle (i : Intake) : Move i [] none i
  | receive (i : Intake) (bytes : List UInt8) :
      Move i bytes none { i with reader := { i.reader with buffer := i.reader.buffer ++ bytes } }
  | start (i : Intake) (hcreated : i.loop = .created) :
      Move i [] none { i with loop := .running, reader := { i.reader with active := true } }
  | find (i : Intake) (value : Json) (rest : List UInt8)
      (hread : Frame.read i.reader.ended i.reader.buffer = .message value rest) :
      Move i [] none
        { i with reader := { i.reader with buffer := rest }, inbox := i.inbox ++ [.ok value] }
  | skip (i : Intake) (rest : List UInt8)
      (hread : Frame.read i.reader.ended i.reader.buffer = .invalid rest) :
      Move i [] none { i with reader := { i.reader with buffer := rest } }
  | handle (i : Intake) (value : Json) (rest : List (Except SessionError Json))
      (hfirst : i.inbox = .ok value :: rest) :
      Move i [] (some value)
        { i with inbox := rest, notifications := i.notifications ++ value.notification?.toList }
  | fail (i j : Intake) (h : i.Fails) : Move i [] none j

end Intake

namespace Connection

/-- What a connection has taken in. -/
def intake (c : Connection) : Intake :=
  ⟨c.loop, c.aborted, c.peerReads, c.closed, c.reader, c.inbox, c.notifications⟩

/-- The bytes that arrive. -/
def Action.bytes : Action → List UInt8
  | receive bytes => bytes
  | _ => []

/-- Whether a step is one by which the client or the server ends the connection. -/
def Action.ends : Action → Bool
  | abort => true
  | endOfStream => true
  | stopReading => true
  | _ => false

/-- The value that is handled. -/
def value? (c : Connection) : Action → Option Json
  | .handle => match c.inbox with
      | .ok value :: _ => some value
      | _ => none
  | _ => none

/-- The values that were handled, in order. -/
def handled (c : Connection) (actions : List Action) : List Json := c.observe value? actions

/-! ### Steps -/

/-- A value that is handled brings its notification to the queue, and nothing else to the intake. -/
theorem intake_of_acceptance {c d : Connection} {value : Json} (h : c.Acceptance value d) :
    d.intake = { c.intake with notifications := c.notifications ++ value.notification?.toList } := by
  unfold Json.notification?
  cases h with
  | drop hvalue | stray response hvalue hid =>
      simp [intake, hvalue, Inbound.notification?]
  | answer response id hvalue hid hpending =>
      simp [intake, updateExchange, hvalue, Inbound.notification?]
  | notify message hvalue => simp [intake, hvalue, Inbound.notification?]
  | reply request hvalue => simp [intake, hvalue, Inbound.notification?]

/-- **Every step of a connection that neither side ends is a move of its intake.** -/
theorem intake_step {c d : Connection} {action : Action} (h : c.step? action = some d)
    (hgoes : action.ends = false) : c.intake.Move action.bytes (c.value? action) d.intake := by
  cases transition_of_step h with
  | find value rest hactive hread hruns => exact .find c.intake value rest hread
  | lose value rest hactive hread hruns => exact .fail _ _ (.unheard hactive hruns)
  | skip rest hactive hread => exact .skip c.intake rest hread
  | fail e hactive hread hruns =>
      exact .fail _ _ (.unframed (by rw [intake, hread]; rfl) (by simp [intake, hread]))
  | stop reading hactive hread hnone hfound hsilent =>
      exact .fail _ _ (.unframed (hread ▸ hnone) (hread ▸ hfound))
  | start hcreated hkept => exact .start c.intake hcreated
  | breakOff message hruns hwriting hreads => exact .fail _ _ (.unread hreads)
  | handle value rest after hruns hfree hinbox haccepts =>
      simp only [value?, hinbox, intake_of_acceptance haccepts]
      exact .handle c.intake value rest hinbox
  | fault e rest hruns hfree hinbox =>
      simp only [value?, hinbox]
      exact .fail _ _ (.fault e rest hinbox)
  | finish hruns hfree hinbox hstopped =>
      simp only [value?, hinbox]
      exact .fail _ _ (.stopped (isRunning_iff.mp hruns).1 hstopped)
  | remove haborted hopen => exact .fail _ _ (.aborted haborted)
  | receive bytes htakes hmore => exact .receive c.intake bytes
  | abort | endOfStream | stopReading => cases hgoes
  | request | notify | settle | forget | take | write | wrote => exact .idle _

end Connection
end LanguageClient
