import LanguageClient.Proofs.Connection.Ledger

/-!
# The mail of a connection

What a connection writes is its mail: the calls that wait in the queue, the message in the writer and
the messages written.  Calls come from outside, answers from the loop itself, and both go through the
one writer.  Every step of a connection is one of a few moves of the mail.

* `Mail`, `Connection.mail` — the view.
* `Post`, `Connection.posts` — what a run puts into the mail, and what it cuts short.
* `Mail.Move` — what a step can do to the mail.
* **`Connection.mail_step`** — every step of a connection is a move of its mail.
-/

namespace LanguageClient

/-! ### Calls and answers -/

namespace Outgoing

/-- Whether a message is a request or a notification of a caller. -/
def isCall : Outgoing → Bool
  | answer _ => false
  | _ => true

/-- Whether a message answers a request of the server. -/
def isAnswer (message : Outgoing) : Bool := !message.isCall

end Outgoing

/-! ### The view -/

/-- What a connection has to write and has written. -/
structure Mail where
  /-- The number of the next request. -/
  nextId : Nat := 1
  queue : List Outgoing := []
  writing? : Option Outgoing := none
  written : List Json := []
  isOpen : Bool := true

/-- Something that a step does to the mail. -/
inductive Post where
  /-- A call was taken into the queue. -/
  | accepted (message : Outgoing)
  /-- A request of the server was handled, and its answer went to the writer. -/
  | replied (request : Request)
  /-- The loop ended while it wrote a message. -/
  | cut (message : Outgoing)

namespace Post

/-- The call that was taken. -/
def accepted? : Post → Option Outgoing
  | accepted message => some message
  | _ => none

/-- The request that was handled. -/
def replied? : Post → Option Request
  | replied request => some request
  | _ => none

/-- The message that was not written to its end. -/
def cut? : Post → Option Outgoing
  | cut message => some message
  | _ => none

end Post

namespace Mail

variable (m : Mail)

/-- A request is handed in; it goes to the queue unless the loop has ended. -/
def request (method : String) (params : Json) : Mail :=
  { m with
    nextId := m.nextId + 1
    queue := if m.isOpen then m.queue ++ [.request m.nextId method params] else m.queue }

/-- A notification goes to the queue. -/
def notify (message : Notification) : Mail :=
  { m with queue := m.queue ++ [.notification message] }

/-- The loop ends, and whatever waits is left unwritten. -/
def close : Mail := { m with queue := [], writing? := none, isOpen := false }

/-- What a step does to the mail. -/
inductive Move : Mail → Option Post → Mail → Prop
  | idle (m : Mail) : Move m none m
  | request (m : Mail) (method : String) (params : Json) (hopen : m.isOpen) :
      Move m (some (.accepted (.request m.nextId method params))) (m.request method params)
  | refuse (m : Mail) (method : String) (params : Json) (hended : m.isOpen = false) :
      Move m none (m.request method params)
  | notify (m : Mail) (message : Notification) (hopen : m.isOpen) :
      Move m (some (.accepted (.notification message))) (m.notify message)
  | begin (m : Mail) (message : Outgoing) (rest : List Outgoing) (hopen : m.isOpen)
      (hfree : m.writing? = none) (hfirst : m.queue = message :: rest) :
      Move m none { m with queue := rest, writing? := some message }
  | wrote (m : Mail) (message : Outgoing) (hopen : m.isOpen) (hwriting : m.writing? = some message) :
      Move m none { m with writing? := none, written := m.written ++ [message.toJson] }
  | reply (m : Mail) (request : Request) (hopen : m.isOpen) (hfree : m.writing? = none) :
      Move m (some (.replied request)) { m with writing? := some (.answer (answerFor request)) }
  | close (m : Mail) (hopen : m.isOpen) : Move m (m.writing?.map .cut) m.close

end Mail

namespace Connection

/-- What a connection has to write and has written. -/
def mail (c : Connection) : Mail := ⟨c.nextId, c.outbound, c.writing?, c.written, c.isOpen⟩

/-- What a step does to the mail, if it takes something in or cuts something short. -/
def post? (c : Connection) : Action → Option Post
  | .request method params _ =>
      if c.isOpen then some (.accepted (.request c.nextId method params)) else none
  | .notify message => if c.isOpen then some (.accepted (.notification message)) else none
  | .finish => if c.peerReads then none else c.writing?.map .cut
  | .handle => match c.inbox with
      | .ok value :: _ => match Inbound.classify? value with
          | some (.request request) => some (.replied request)
          | _ => none
      | _ => none
  | .remove => c.writing?.map .cut
  | _ => none

/-- What a sequence of steps does to the mail, the oldest first. -/
def posts (c : Connection) (actions : List Action) : List Post := c.observe post? actions

/-- The calls that were taken into the queue, in order. -/
def accepted (c : Connection) (actions : List Action) : List Outgoing :=
  (c.posts actions).filterMap Post.accepted?

/-- The requests of the server that were handled, in order. -/
def replied (c : Connection) (actions : List Action) : List Request :=
  (c.posts actions).filterMap Post.replied?

/-- The messages whose writing failed, or in whose middle the loop went away. -/
def cutShort (c : Connection) (actions : List Action) : List Outgoing :=
  (c.posts actions).filterMap Post.cut?

/-! ### What the steps do to it -/

theorem mail_request (c : Connection) (method : String) (params : Json) (deadline : Nat) :
    (c.request method params deadline).1.mail = c.mail.request method params := rfl

theorem move_request (c : Connection) (method : String) (params : Json) (deadline : Nat) :
    c.mail.Move (c.post? (.request method params deadline))
      (c.request method params deadline).1.mail := by
  rw [mail_request]
  unfold post?
  cases hopen : c.isOpen with
  | false => exact .refuse c.mail method params hopen
  | true => exact .request c.mail method params hopen

theorem mail_closeCalls (c : Connection) : c.closeCalls.mail = c.mail.close := by
  rw [closeCalls_eq]
  rfl

theorem mail_teardown (c : Connection) : c.teardown.mail = c.mail.close := by
  rw [teardown_eq]
  exact mail_closeCalls c

/-- While the loop handles something nothing is in the writer, so its end cuts nothing short. -/
theorem close_mail {c : Connection} (hruns : c.isRunning) (hfree : c.writing? = none) :
    c.mail.Move none c.teardown.mail := by
  have hmove := Mail.Move.close c.mail (isOpen_of_running hruns)
  have hnothing : c.mail.writing? = none := hfree
  rw [mail_teardown]
  rwa [hnothing, Option.map_none] at hmove

/-- **Every step of a connection is a move of its mail.** -/
theorem mail_step {c d : Connection} {action : Action} (h : c.step? action = some d) :
    c.mail.Move (c.post? action) d.mail := by
  cases transition_of_step h with
  | request method params deadline => exact move_request c method params deadline
  | notify message hopen =>
      rw [post?, if_pos hopen]
      exact .notify c.mail message hopen
  | start hcreated hkept =>
      have hmail : ({ c with
          loop := .running
          reader := { c.reader with active := true } } : Connection).mail = c.mail := by
        simp [mail, isOpen, hcreated]
      rw [hmail]
      exact .idle _
  | write message rest hruns hfree hfirst =>
      exact .begin c.mail message rest (isOpen_of_running hruns) hfree hfirst
  | wrote message hruns hwriting hreads =>
      rw [post?, if_pos hreads]
      exact .wrote c.mail message (isOpen_of_running hruns) hwriting
  | breakOff message hruns hwriting hreads =>
      rw [post?, if_neg (by simp [hreads]), mail_teardown]
      exact .close c.mail (isOpen_of_running hruns)
  | handle value rest after hruns hfree hinbox haccepts =>
      simp only [post?, hinbox]
      -- Of all values only a request is answered.
      cases haccepts with
      | reply request hvalue =>
          rw [hvalue]
          exact .reply c.mail request (isOpen_of_running hruns) hfree
      | drop hvalue | answer response id hvalue hid hpending | stray response hvalue hid
        | notify message hvalue =>
          rw [hvalue]
          exact .idle _
  | fault e rest hruns hfree hinbox =>
      simp only [post?, hinbox]
      exact close_mail hruns hfree
  | finish hruns hfree hinbox hstopped =>
      simp only [post?, hinbox]
      exact close_mail hruns hfree
  | remove haborted hopen =>
      rw [mail_closeCalls]
      exact .close c.mail (by simpa [mail, isOpen] using hopen)
  | settle | forget | take | find | lose | skip | fail | stop | abort | receive | endOfStream
    | stopReading => exact .idle _

end Connection
end LanguageClient
