import LanguageClient.Proofs.Connection.Transitions

/-!
# The ledger of a connection

What a connection knows of its calls is its ledger: the calls, the requests that were written and
those that still are to be, and whether the loop goes on.  Readers, frames and notifications do not
concern it.  Every step of a connection is one of a few moves of the ledger.

* `Ledger`, `Connection.ledger` — the view.
* `Ledger.Move` — what a step can do to it, and with which deed.
* **`Connection.move_step`** — every step of a connection is a move of its ledger.
-/

namespace LanguageClient

/-! ### The ledger -/

/-- What a connection knows of its calls. -/
structure Ledger where
  nextId : Nat
  exchanges : List Exchange
  pending : List Nat
  unwritten : List Nat
  isOpen : Bool

namespace Ledger

/-- Changes the call of a number. -/
def update (l : Ledger) (id : Nat) (f : Exchange → Exchange) : Ledger :=
  { l with exchanges := l.exchanges.map fun e => if e.id = id then f e else e }

/-- A caller makes a request. -/
def request (l : Ledger) (method : String) (deadline : Nat) : Ledger :=
  let reply? := if l.isOpen then none else some Reply.closed
  { l with
    nextId := l.nextId + 1
    exchanges := l.exchanges ++ [{ id := l.nextId, method, deadline, reply? }]
    unwritten := if l.isOpen then l.unwritten ++ [l.nextId] else l.unwritten }

/-- The loop ends, and every call that is open learns of it. -/
def close (l : Ledger) : Ledger :=
  { l with
    exchanges := l.exchanges.map fun e =>
      if e.id ∈ l.pending ++ l.unwritten then e.receive .closed else e
    pending := []
    unwritten := []
    isOpen := false }

/-- What a step does to the ledger, and the deed if there is one. -/
inductive Move : Ledger → Option Deed → Ledger → Prop
  | idle (l : Ledger) : Move l none l
  | request (l : Ledger) (method : String) (deadline : Nat) :
      Move l (some (.requested l.nextId method deadline)) (l.request method deadline)
  | settle (l : Ledger) (now : Nat) (e : Exchange) (outcome : Except SessionError Json)
      (he : e ∈ l.exchanges) (houtcome : Connection.outcome? now e = some outcome) :
      Move l (some (.settled now e.id outcome)) (l.update e.id (·.settle outcome))
  | forget (l : Ledger) (e : Exchange) (he : e ∈ l.exchanges) (hwaits : e.isWaiting) :
      Move l (some (.forgot e.id)) (l.update e.id Exchange.forget)
  | wrote (l : Ledger) (id : Nat) (rest : List Nat) (hopen : l.isOpen)
      (hfirst : l.unwritten = id :: rest) :
      Move l (some (.wrote id)) { l with unwritten := rest, pending := l.pending ++ [id] }
  | answer (l : Ledger) (id : Nat) (response : Response) (hopen : l.isOpen)
      (hpending : id ∈ l.pending) (hid : response.id = .number id) :
      Move l (some (.handled response))
        ({ l with pending := l.pending.erase id }.update id (·.receive (.response response)))
  | stray (l : Ledger) (response : Response) (hopen : l.isOpen)
      (hid : ∀ id ∈ l.pending, response.id ≠ .number id) : Move l (some (.handled response)) l
  | close (l : Ledger) (hopen : l.isOpen) : Move l (some .ended) l.close

end Ledger

namespace Connection

/-- What a connection knows of its calls. -/
def ledger (c : Connection) : Ledger :=
  ⟨c.nextId, c.exchanges, c.pending, c.unwrittenIds, c.isOpen⟩

/-! ### What the steps do to it -/

theorem ledger_request (c : Connection) (method : String) (params : Json) (deadline : Nat) :
    (c.request method params deadline).1.ledger = c.ledger.request method deadline := by
  cases hopen : c.isOpen with
  | false =>
      have hloop : c.loop = .ended := by simpa [isOpen] using hopen
      simp [request, ledger, Ledger.request, unwrittenIds, isOpen, hloop]
  | true =>
      have hloop : c.loop ≠ .ended := by simpa [isOpen] using hopen
      simp [request, ledger, Ledger.request, unwrittenIds, isOpen, hloop, Outgoing.id?]

theorem move_settle {c : Connection} {now id : Nat} {e : Exchange}
    {outcome : Except SessionError Json} (he : c.exchange? id = some e)
    (houtcome : outcome? now e = some outcome) :
    c.ledger.Move (c.deed? (.settle now id)) (c.updateExchange id (·.settle outcome)).ledger := by
  have hsettle : c.settle? now id = some (c.updateExchange id (·.settle outcome), outcome) :=
    settle?_eq_some_iff.mpr ⟨by rw [he, Option.bind_some, houtcome], rfl⟩
  obtain rfl : e.id = id := by simpa using List.find?_some he
  rw [deed?, hsettle, Option.map_some]
  exact .settle c.ledger now e outcome (List.mem_of_find?_eq_some he) houtcome

theorem move_forget (c : Connection) (id : Nat) :
    c.ledger.Move (c.deed? (.forget id)) (c.updateExchange id Exchange.forget).ledger := by
  have hledger : (c.updateExchange id Exchange.forget).ledger =
    c.ledger.update id Exchange.forget := rfl
  rw [hledger]
  unfold deed?
  dsimp only
  split
  · rename_i hany
    obtain ⟨e, he, hboth⟩ := List.any_eq_true.mp hany
    obtain ⟨rfl, hwaits⟩ : e.id = id ∧ e.isWaiting := by simpa using hboth
    exact .forget c.ledger e he hwaits
  · -- Nobody waits for that number, and nothing changes.
    rename_i hnone
    have hmap : c.exchanges.map (fun e => if e.id = id then e.forget else e) = c.exchanges := by
      refine (List.map_congr_left ?_).trans (List.map_id c.exchanges)
      intro e he
      split
      · rename_i hid
        have hstays : e.isWaiting = false := by
          rw [Bool.eq_false_iff]
          intro hwaits
          exact hnone (List.any_eq_true.mpr ⟨e, he, by simp [hid, hwaits]⟩)
        exact Exchange.forget_of_not_waiting hstays
      · rfl
    have hsame : c.ledger.update id Exchange.forget = c.ledger :=
      congrArg (fun exchanges => { c.ledger with exchanges }) hmap
    rw [hsame]
    exact .idle _

theorem ledger_closeCalls (c : Connection) : c.closeCalls.ledger = c.ledger.close := by
  rw [closeCalls_eq]
  rfl

theorem ledger_teardown (c : Connection) : c.teardown.ledger = c.ledger.close := by
  rw [teardown_eq]
  exact ledger_closeCalls c

/-- The request that was being written is the first of the unwritten ones. -/
theorem move_wrote {c : Connection} {message : Outgoing} (hopen : c.isOpen)
    (hwriting : c.writing? = some message) :
    c.ledger.Move (message.id?.map .wrote) ({ c with
      writing? := none
      written := c.written ++ [message.toJson]
      pending := c.pending ++ message.id?.toList } : Connection).ledger := by
  cases hid : message.id? with
  | some id =>
      have hfirst : c.ledger.unwritten = id :: c.outbound.filterMap Outgoing.id? := by
        simp [ledger, unwrittenIds, hwriting, hid]
      exact .wrote c.ledger id _ hopen hfirst
  | none =>
      have hledger : ({ c with
          writing? := none
          written := c.written ++ [message.toJson]
          pending := c.pending ++ (none : Option Nat).toList } : Connection).ledger = c.ledger := by
        simp [ledger, unwrittenIds, isOpen, hwriting, hid]
      rw [hledger]
      exact .idle _

/-- **Every step of a connection is a move of its ledger.** -/
theorem move_step {c d : Connection} {action : Action} (h : c.step? action = some d) :
    c.ledger.Move (c.deed? action) d.ledger := by
  cases transition_of_step h with
  | request method params deadline =>
      rw [ledger_request]
      exact .request c.ledger method deadline
  | notify message hopen =>
      have hledger : ({ c with outbound := c.outbound ++ [.notification message] } :
          Connection).ledger = c.ledger := by
        simp [ledger, unwrittenIds, isOpen, Outgoing.id?]
      rw [hledger]
      exact .idle _
  | settle now id e outcome he houtcome => exact move_settle he houtcome
  | forget id => exact move_forget c id
  | start hcreated hkept =>
      have hledger : ({ c with
          loop := .running
          reader := { c.reader with active := true } } : Connection).ledger = c.ledger := by
        simp [ledger, unwrittenIds, isOpen, hcreated]
      rw [hledger]
      exact .idle _
  | write message rest hruns hfree hfirst =>
      -- The message only goes from the queue to the writer.
      have hledger : ({ c with outbound := rest, writing? := some message } : Connection).ledger =
          c.ledger := by
        simp [ledger, unwrittenIds, isOpen, hfree, hfirst]
      rw [hledger]
      exact .idle _
  | wrote message hruns hwriting hreads =>
      rw [deed?, if_pos hreads, hwriting, Option.bind_some]
      exact move_wrote (isOpen_of_running hruns) hwriting
  | breakOff message hruns hwriting hreads =>
      rw [deed?, if_neg (by simp [hreads]), ledger_teardown]
      exact .close _ (isOpen_of_running hruns)
  | handle value rest after hruns hfree hinbox haccepts =>
      have hopen : c.isOpen := isOpen_of_running hruns
      simp only [deed?, hinbox]
      cases haccepts with
      | drop hvalue =>
          rw [hvalue]
          exact .idle _
      | answer response id hvalue hid hpending =>
          rw [hvalue]
          exact .answer c.ledger id response hopen hpending hid
      | stray response hvalue hid =>
          rw [hvalue]
          exact .stray c.ledger response hopen hid
      | notify message hvalue =>
          rw [hvalue]
          exact .idle _
      | reply request hvalue =>
          -- The answer takes the place of the writer, and is no request.
          have hledger : ({ c with
              inbox := rest
              writing? := some (.answer (answerFor request)) } : Connection).ledger =
                c.ledger := by
            simp [ledger, unwrittenIds, isOpen, hfree, List.filterMap_cons, Outgoing.id?]
          rw [hvalue, hledger]
          exact .idle _
  | fault e rest hruns hfree hinbox =>
      simp only [deed?, hinbox, ledger_teardown]
      exact .close _ (isOpen_of_running hruns)
  | finish hruns hfree hinbox hstopped =>
      simp only [deed?, hinbox, ledger_teardown]
      exact .close _ (isOpen_of_running hruns)
  | remove haborted hopen =>
      rw [ledger_closeCalls]
      exact .close _ (by simpa [ledger, isOpen] using hopen)
  | take | find | lose | skip | fail | stop | abort | receive | endOfStream | stopReading =>
      exact .idle _

end Connection
end LanguageClient
