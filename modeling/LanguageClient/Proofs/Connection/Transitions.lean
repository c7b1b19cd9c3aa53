import LanguageClient.Proofs.Connection.History

/-!
# What each step of a connection changes

All that a step can come to is said here once: on which conditions it can be taken, and the
connection after it as the one before with the parts that change.  Every part that is not named
stays as it was.  Whatever is shown later of some parts of a connection (its calls, what it writes,
what it takes in, its tasks) is read off these transitions, one case for each.

* `Exchange.receive`, `Exchange.settle`, `Exchange.forget` — what can happen to one call.
* `Connection.closeCalls_eq`, `Connection.teardown_eq` — the parts that the end of the loop changes.
* `Connection.Acceptance`, `Connection.acceptance_accept` — what a value of the server changes.
* `Connection.Transition`, **`Connection.transition_of_step`** — what a step changes.
-/

namespace LanguageClient

/-! ### What happens to one call -/

namespace Exchange

/-- A reply reaches the caller, unless an earlier one has. -/
def receive (e : Exchange) (reply : Reply) : Exchange :=
  match e.reply? with
  | none => { e with reply? := some reply }
  | some _ => e

/-- The caller takes its outcome. -/
def settle (e : Exchange) (outcome : Except SessionError Json) : Exchange :=
  { e with state := .settled outcome }

/-- The caller goes away. -/
def forget (e : Exchange) : Exchange :=
  match e.state with
  | .waiting => { e with state := .forgotten }
  | _ => e

@[simp] theorem receive_id (e : Exchange) (reply : Reply) : (e.receive reply).id = e.id := by
  unfold receive
  split <;> rfl

@[simp] theorem receive_receive (e : Exchange) (reply other : Reply) :
    (e.receive reply).receive other = e.receive reply := by
  unfold receive
  cases hreply : e.reply? <;> simp [hreply]

theorem forget_of_not_waiting {e : Exchange} (h : e.isWaiting = false) : e.forget = e := by
  unfold forget
  cases hstate : e.state with
  | waiting => simp [isWaiting, hstate] at h
  | _ => rfl

end Exchange

namespace Connection

variable {c d : Connection}

/-! ### Callers -/

theorem notify?_eq_some_iff {message : Notification} : c.notify? message = some d ↔
    c.isOpen ∧ d = { c with outbound := c.outbound ++ [.notification message] } := by
  unfold notify?
  split
  · rename_i hopen
    simp [hopen, eq_comm]
  · rename_i hended
    simp [hended]

theorem take?_eq_some_iff : c.take? = some d ↔ c.taken = false ∧ d = { c with taken := true } := by
  unfold take?
  cases htaken : c.taken <;> simp [eq_comm]

theorem settle?_eq_some_iff {now id : Nat} {outcome : Except SessionError Json} :
    c.settle? now id = some (d, outcome) ↔
      (c.exchange? id).bind (outcome? now) = some outcome ∧
        d = c.updateExchange id (·.settle outcome) := by
  unfold settle?
  split
  · rename_i found hfound
    rw [hfound, Option.some.injEq, Option.some.injEq, Prod.mk.injEq]
    constructor
    · rintro ⟨rfl, rfl⟩
      exact ⟨rfl, rfl⟩
    · rintro ⟨rfl, rfl⟩
      exact ⟨rfl, rfl⟩
  · rename_i hnone
    simp [hnone]

/-! ### The loop -/

theorem isRunning_iff : c.isRunning ↔ c.loop = .running ∧ c.aborted = false := by
  simp [isRunning]

theorem isAttentive_iff : c.isAttentive ↔ c.isRunning ∧ c.writing? = none := by
  simp [isAttentive]

theorem isOpen_of_running (h : c.isRunning) : c.isOpen := by
  simp [isOpen, (isRunning_iff.mp h).1]

theorem foldl_deliver (c : Connection) (ids : List Nat) (reply : Reply) :
    ids.foldl (fun c id => c.deliver id reply) c =
      { c with exchanges := c.exchanges.map fun e => if e.id ∈ ids then e.receive reply else e } := by
  induction ids generalizing c with
  | nil => simp
  | cons id rest ih =>
      have hdeliver : c.deliver id reply =
          { c with exchanges := c.exchanges.map fun e => if e.id = id then e.receive reply else e } :=
        rfl
      rw [List.foldl_cons, ih, hdeliver]
      simp only [List.map_map]
      congr 1
      refine List.map_congr_left ?_
      intro e he
      by_cases hid : e.id = id <;> by_cases hrest : e.id ∈ rest <;> simp_all

/-- The end of the loop: nothing is pending, written or handled any more, and every open call has its
reply. -/
theorem closeCalls_eq (c : Connection) : c.closeCalls = { c with
    exchanges := c.exchanges.map fun e =>
      if e.id ∈ c.pending ++ c.unwrittenIds then e.receive .closed else e
    pending := []
    writing? := none
    outbound := []
    inbox := []
    loop := .ended } := by
  rw [closeCalls, foldl_deliver]

/-- The loop's own end stops the reader and raises the flag besides. -/
theorem teardown_eq (c : Connection) : c.teardown = { c.closeCalls with
    reader := { c.reader with active := false }
    closed := true } := by
  rw [teardown, closeCalls_eq, closeCalls_eq]
  rfl

/-- What a value of the server changes. -/
inductive Acceptance (c : Connection) (value : Json) : Connection → Prop
  /-- The value is no message. -/
  | drop (hvalue : Inbound.classify? value = none) : Acceptance c value c
  /-- A response reaches the caller of a pending request. -/
  | answer (response : Response) (id : Nat)
      (hvalue : Inbound.classify? value = some (.response response))
      (hid : response.id = .number id) (hpending : id ∈ c.pending) :
      Acceptance c value ({ c with pending := c.pending.erase id }.updateExchange id
        (·.receive (.response response)))
  /-- A response answers no pending request. -/
  | stray (response : Response) (hvalue : Inbound.classify? value = some (.response response))
      (hid : ∀ id ∈ c.pending, response.id ≠ .number id) : Acceptance c value c
  | notify (message : Notification)
      (hvalue : Inbound.classify? value = some (.notification message)) :
      Acceptance c value { c with notifications := c.notifications ++ [message] }
  | reply (request : Request) (hvalue : Inbound.classify? value = some (.request request)) :
      Acceptance c value { c with writing? := some (.answer (answerFor request)) }

theorem acceptance_accept (c : Connection) (value : Json) : c.Acceptance value (c.accept value) := by
  unfold accept
  cases hvalue : Inbound.classify? value with
  | none => exact .drop hvalue
  | some inbound =>
      cases inbound with
      | response response =>
          dsimp only
          unfold Connection.answer
          split
          · rename_i id hfound
            have hid : response.id = .number id := by simpa using List.find?_some hfound
            exact .answer response id hvalue hid (List.mem_of_find?_eq_some hfound)
          · rename_i hnone
            refine .stray response hvalue fun id hid hsame => ?_
            have hnot := List.find?_eq_none.mp hnone id hid
            simp [hsame] at hnot
      | notification message => exact .notify message hvalue
      | request request => exact .reply request hvalue

/-! ### Every step -/

/-- What a step changes, and on what conditions. -/
inductive Transition (c : Connection) : Action → Connection → Prop
  | request (method : String) (params : Json) (deadline : Nat) :
      Transition c (.request method params deadline) (c.request method params deadline).1
  | notify (message : Notification) (hopen : c.isOpen) :
      Transition c (.notify message)
        { c with outbound := c.outbound ++ [.notification message] }
  | settle (now id : Nat) (e : Exchange) (outcome : Except SessionError Json)
      (he : c.exchange? id = some e) (houtcome : outcome? now e = some outcome) :
      Transition c (.settle now id) (c.updateExchange id (·.settle outcome))
  | forget (id : Nat) : Transition c (.forget id) (c.updateExchange id Exchange.forget)
  | take (hfree : c.taken = false) : Transition c .take { c with taken := true }
  /-- The reader takes a value off the stream, and hands it over. -/
  | find (value : Json) (rest : List UInt8) (hactive : c.reader.active)
      (hread : Frame.read c.reader.ended c.reader.buffer = .message value rest)
      (hruns : c.loop = .running) :
      Transition c .read
        { c with reader := { c.reader with buffer := rest }, inbox := c.inbox ++ [.ok value] }
  /-- Nobody takes what the reader finds, and it stops. -/
  | lose (value : Json) (rest : List UInt8) (hactive : c.reader.active)
      (hread : Frame.read c.reader.ended c.reader.buffer = .message value rest)
      (hruns : c.loop ≠ .running) :
      Transition c .read { c with reader := { c.reader with buffer := rest, active := false } }
  /-- A body that is no value is left out. -/
  | skip (rest : List UInt8) (hactive : c.reader.active)
      (hread : Frame.read c.reader.ended c.reader.buffer = .invalid rest) :
      Transition c .read { c with reader := { c.reader with buffer := rest } }
  /-- The reader stops at a fault, and hands it over. -/
  | fail (e : SessionError) (hactive : c.reader.active)
      (hread : Frame.read c.reader.ended c.reader.buffer = .failed e) (hruns : c.loop = .running) :
      Transition c .read { c.stopReader with inbox := c.inbox ++ [.error e] }
  /-- The reader stops without a word. -/
  | stop (reading : Frame.Reading) (hactive : c.reader.active)
      (hread : Frame.read c.reader.ended c.reader.buffer = reading) (hnone : reading.rest? = none)
      (hfound : reading ≠ .incomplete)
      (hsilent : ∀ e, reading = .failed e → c.loop ≠ .running) : Transition c .read c.stopReader
  | start (hcreated : c.loop = .created) (hkept : c.aborted = false) :
      Transition c .start { c with loop := .running, reader := { c.reader with active := true } }
  | write (message : Outgoing) (rest : List Outgoing) (hruns : c.isRunning)
      (hfree : c.writing? = none) (hfirst : c.outbound = message :: rest) :
      Transition c .write { c with outbound := rest, writing? := some message }
  | wrote (message : Outgoing) (hruns : c.isRunning) (hwriting : c.writing? = some message)
      (hreads : c.peerReads = true) :
      Transition c .finish { c with
        writing? := none
        written := c.written ++ [message.toJson]
        pending := c.pending ++ message.id?.toList }
  /-- The message cannot be written, and the loop ends. -/
  | breakOff (message : Outgoing) (hruns : c.isRunning) (hwriting : c.writing? = some message)
      (hreads : c.peerReads = false) : Transition c .finish c.teardown
  | handle (value : Json) (rest : List (Except SessionError Json)) (after : Connection)
      (hruns : c.isRunning) (hfree : c.writing? = none) (hinbox : c.inbox = .ok value :: rest)
      (haccepts : { c with inbox := rest }.Acceptance value after) : Transition c .handle after
  /-- The reader has found a fault, and the loop ends. -/
  | fault (e : SessionError) (rest : List (Except SessionError Json)) (hruns : c.isRunning)
      (hfree : c.writing? = none) (hinbox : c.inbox = .error e :: rest) :
      Transition c .handle c.teardown
  /-- The reader has stopped, all that it found is handled, and the loop ends. -/
  | finish (hruns : c.isRunning) (hfree : c.writing? = none) (hinbox : c.inbox = [])
      (hstopped : c.reader.active = false) : Transition c .handle c.teardown
  | abort : Transition c .abort { c with aborted := true }
  | remove (haborted : c.aborted) (hopen : c.loop ≠ .ended) : Transition c .remove c.closeCalls
  | receive (bytes : List UInt8) (htakes : c.takesBytes) (hmore : c.reader.ended = false) :
      Transition c (.receive bytes)
        { c with reader := { c.reader with buffer := c.reader.buffer ++ bytes } }
  | endOfStream : Transition c .endOfStream { c with reader := { c.reader with ended := true } }
  | stopReading : Transition c .stopReading { c with peerReads := false }

theorem transition_of_read? (h : c.read? = some d) : c.Transition .read d := by
  unfold read? at h
  split at h
  · cases h
  · rename_i hstopped
    have hactive : c.reader.active := by simpa using hstopped
    cases hread : Frame.read c.reader.ended c.reader.buffer with
    | message value rest =>
        rw [hread] at h
        dsimp only at h
        split at h <;> rename_i hruns <;> cases h
        · exact .find value rest hactive hread hruns
        · exact .lose value rest hactive hread hruns
    | invalid rest =>
        rw [hread] at h
        cases h
        exact .skip rest hactive hread
    | failed e =>
        rw [hread] at h
        dsimp only at h
        split at h <;> rename_i hruns <;> cases h
        · exact .fail e hactive hread hruns
        · exact .stop _ hactive hread rfl nofun fun _ _ => hruns
    | finished | tooLarge =>
        rw [hread] at h
        cases h
        exact .stop _ hactive hread rfl nofun nofun
    | incomplete =>
        rw [hread] at h
        cases h

theorem transition_of_handle? (h : c.handle? = some d) : c.Transition .handle d := by
  unfold handle? at h
  split at h
  · cases h
  · rename_i hattentive
    obtain ⟨hruns, hfree⟩ := isAttentive_iff.mp (by simpa using hattentive)
    split at h
    · rename_i value rest hinbox
      cases h
      exact .handle value rest _ hruns hfree hinbox (acceptance_accept _ value)
    · rename_i e rest hinbox
      cases h
      exact .fault e rest hruns hfree hinbox
    · rename_i hinbox
      split at h
      · cases h
      · rename_i hstopped
        cases h
        exact .finish hruns hfree hinbox (by simpa using hstopped)

theorem transition_of_finish? (h : c.finish? = some d) : c.Transition .finish d := by
  unfold finish? at h
  split at h
  · cases h
  · rename_i hrunning
    have hruns : c.isRunning := by simpa using hrunning
    obtain ⟨message, hwriting, hd⟩ := Option.map_eq_some_iff.mp h
    split at hd <;> rename_i hreads <;> subst hd
    · exact .wrote message hruns hwriting hreads
    · exact .breakOff message hruns hwriting (by simpa using hreads)

theorem transition_of_write? (h : c.write? = some d) : c.Transition .write d := by
  unfold write? at h
  split at h
  · cases h
  · rename_i hattentive
    obtain ⟨hruns, hfree⟩ := isAttentive_iff.mp (by simpa using hattentive)
    split at h
    · cases h
    · rename_i message rest hfirst
      cases h
      exact .write message rest hruns hfree hfirst

/-- **Every step of a connection is one of its transitions.** -/
theorem transition_of_step {action : Action} (h : c.step? action = some d) :
    c.Transition action d := by
  cases action with
  | request method params deadline =>
      cases h
      exact .request method params deadline
  | notify message =>
      obtain ⟨hopen, rfl⟩ := notify?_eq_some_iff.mp h
      exact .notify message hopen
  | settle now id =>
      obtain ⟨⟨after, outcome⟩, hsettle, rfl⟩ := Option.map_eq_some_iff.mp h
      obtain ⟨hbind, rfl⟩ := settle?_eq_some_iff.mp hsettle
      obtain ⟨e, he, houtcome⟩ := Option.bind_eq_some_iff.mp hbind
      exact .settle now id e outcome he houtcome
  | forget id =>
      cases h
      exact .forget id
  | take =>
      obtain ⟨hfree, rfl⟩ := take?_eq_some_iff.mp h
      exact .take hfree
  | read => exact transition_of_read? h
  | start =>
      dsimp only [step?, start?] at h
      split at h
      · rename_i hfresh
        simp only [Bool.and_eq_true, decide_eq_true_eq, Bool.not_eq_true'] at hfresh
        cases h
        exact .start hfresh.1 hfresh.2
      · cases h
  | write => exact transition_of_write? h
  | finish => exact transition_of_finish? h
  | handle => exact transition_of_handle? h
  | abort =>
      cases h
      exact .abort
  | remove =>
      dsimp only [step?, remove?] at h
      split at h
      · rename_i hgoes
        rw [Bool.and_eq_true, decide_eq_true_eq] at hgoes
        cases h
        exact .remove hgoes.1 hgoes.2
      · cases h
  | receive bytes =>
      dsimp only [step?] at h
      split at h
      · rename_i htakes
        rw [Bool.and_eq_true, Bool.not_eq_true'] at htakes
        cases h
        exact .receive bytes htakes.1 htakes.2
      · cases h
  | endOfStream =>
      cases h
      exact .endOfStream
  | stopReading =>
      cases h
      exact .stopReading

end Connection
end LanguageClient
