import LanguageClient.Client.Step
import LanguageClient.Proofs.Connection.Ledger

/-!
# Requests that have been answered for good

Once the caller of a request has taken its result, later replies, time-outs and the end of the loop
change nothing about it.

* `Exchange.IsAnswered`, `Connection.Answered` — the caller of a request has an acceptable result,
  which the server has sent.
* `Connection.answered_settle` — whoever takes such a result has it.
* **`Connection.answered_step`** — no step takes it back.
* `Connection.nextId_step` — only a request gives a number away.
* **`Connection.settle?_of_late_request`** — a request on a connection that has ended fails at once.
-/

namespace LanguageClient

/-! ### Answers -/

/-- The caller has taken a result that the server has sent and that tells what it can do. -/
def Exchange.IsAnswered (e : Exchange) : Prop :=
  ∃ (response : Response) (result : Json), e.state = .settled (.ok result) ∧
    e.reply? = some (.response response) ∧ response.outcome = .ok result ∧
    InitializeResult.isAccepted result

namespace Exchange

variable {e : Exchange}

theorem receive_of_isAnswered (h : e.IsAnswered) (reply : Reply) : e.receive reply = e := by
  obtain ⟨response, result, -, hreply, -⟩ := h
  simp [receive, hreply]

@[simp] theorem forget_id (e : Exchange) : e.forget.id = e.id := by
  unfold forget
  split <;> rfl

theorem forget_of_isAnswered (h : e.IsAnswered) : e.forget = e := by
  obtain ⟨response, result, hstate, -⟩ := h
  simp [forget, hstate]

/-- Calls that keep their numbers are found where they were. -/
theorem find?_map {f : Exchange → Exchange} (hf : ∀ e, (f e).id = e.id) (exchanges : List Exchange)
    (id : Nat) :
    (exchanges.map f).find? (·.id = id) = (exchanges.find? (·.id = id)).map f := by
  rw [List.find?_map]
  congr 2
  funext e
  simp [hf]

end Exchange

namespace Ledger

variable {l m : Ledger} {deed? : Option Deed}

/-- A move in which no caller takes an outcome leaves the answered calls as they are. -/
theorem find?_move (hm : l.Move deed? m)
    (hquiet : ∀ now id outcome, deed? ≠ some (.settled now id outcome)) {id : Nat} {e : Exchange}
    (h : l.exchanges.find? (·.id = id) = some e) (he : e.IsAnswered) :
    m.exchanges.find? (·.id = id) = some e := by
  have hupdate : ∀ (p : Exchange → Prop) [DecidablePred p] (f : Exchange → Exchange),
      (∀ e, (f e).id = e.id) → f e = e →
      (l.exchanges.map fun e => if p e then f e else e).find? (·.id = id) = some e := by
    intro p _ f hid hself
    rw [Exchange.find?_map _ l.exchanges id, h, Option.map_some, hself, ite_self]
    intro e
    split
    · exact hid e
    · rfl
  cases hm with
  | idle => exact h
  | request method deadline => simp [request, List.find?_append, h]
  | settle now other outcome _ _ => exact absurd rfl (hquiet now other.id outcome)
  | forget other _ _ =>
      exact hupdate (·.id = other.id) Exchange.forget Exchange.forget_id
        (Exchange.forget_of_isAnswered he)
  | wrote n rest hopen hfirst => exact h
  | answer n response hopen hpending hid =>
      exact hupdate (·.id = n) (·.receive (.response response)) (by simp)
        (Exchange.receive_of_isAnswered he _)
  | stray response hopen hid => exact h
  | close hopen =>
      exact hupdate (·.id ∈ l.pending ++ l.unwritten) (·.receive .closed) (by simp)
        (Exchange.receive_of_isAnswered he _)

/-- Only a request gives a number away. -/
theorem nextId_move (hm : l.Move deed? m)
    (hquiet : ∀ id method deadline, deed? ≠ some (.requested id method deadline)) :
    m.nextId = l.nextId := by
  cases hm with
  | request method deadline => exact absurd rfl (hquiet _ method deadline)
  | _ => rfl

/-- Every request has a number that has been given away. -/
def IsNumbered (l : Ledger) : Prop := ∀ e ∈ l.exchanges, e.id < l.nextId

theorem isNumbered_move (h : l.IsNumbered) (hm : l.Move deed? m) : m.IsNumbered := by
  have hmap : ∀ (p : Exchange → Prop) [DecidablePred p] (f : Exchange → Exchange),
      (∀ e, (f e).id = e.id) →
      ∀ e ∈ l.exchanges.map fun e => if p e then f e else e, e.id < l.nextId := by
    intro p _ f hid e he
    obtain ⟨before, hbefore, rfl⟩ := List.mem_map.mp he
    split
    · rw [hid]
      exact h before hbefore
    · exact h before hbefore
  cases hm with
  | idle => exact h
  | request method deadline =>
      intro e he
      rcases List.mem_append.mp he with hold | hnew
      · exact Nat.lt_succ_of_lt (h e hold)
      · rw [List.mem_singleton.mp hnew]
        exact Nat.lt_succ_self _
  | settle now other outcome _ _ => exact hmap (·.id = other.id) (·.settle outcome) fun _ => rfl
  | forget other _ _ => exact hmap (·.id = other.id) Exchange.forget Exchange.forget_id
  | wrote n rest hopen hfirst => exact h
  | answer n response hopen hpending hid =>
      exact hmap (·.id = n) (·.receive (.response response)) (by simp)
  | stray response hopen hid => exact h
  | close hopen => exact hmap (·.id ∈ l.pending ++ l.unwritten) (·.receive .closed) (by simp)

end Ledger

namespace Connection

variable {c d : Connection} {action : Action} {id : Nat}

/-- Every request has a number that has been given away. -/
def IsNumbered (c : Connection) : Prop := c.ledger.IsNumbered

theorem isNumbered_step (h : c.IsNumbered) (hstep : c.step? action = some d) : d.IsNumbered :=
  Ledger.isNumbered_move h (move_step hstep)

/-- **A request on a connection that has ended fails at once**, and its caller learns why. -/
theorem settle?_of_late_request (h : c.IsNumbered) (hended : c.isOpen = false)
    (method : String) (params : Json) (deadline now : Nat)
    (hexchanges : d.exchanges = (c.request method params deadline).1.exchanges) :
    ∃ e, d.settle? now c.nextId = some (e, .error .connectionClosed) := by
  have hold : c.exchanges.find? (·.id = c.nextId) = none := by
    refine List.find?_eq_none.mpr fun e he => ?_
    have hbelow : e.id < c.nextId := h e he
    simpa using Nat.ne_of_lt hbelow
  have hfound : (d.exchange? c.nextId).bind (outcome? now) = some (.error .connectionClosed) := by
    rw [exchange?, hexchanges, request, List.find?_append, hold]
    simp [hended, outcome?, Reply.outcome]
  rw [settle?, hfound]
  exact ⟨_, rfl⟩

/-- Only a caller takes an outcome, and only a caller makes a request. -/
theorem action_of_deed {deed : Deed} (h : c.deed? action = some deed) :
    (∀ now n outcome, deed = .settled now n outcome → action = .settle now n) ∧
      ∀ n method deadline, deed = .requested n method deadline →
        ∃ params, action = .request method params deadline := by
  cases action with
  | request method params deadline =>
      cases h
      simp
  | settle now n =>
      obtain ⟨r, -, rfl⟩ := Option.map_eq_some_iff.mp h
      simp
  | forget n =>
      simp only [deed?] at h
      split at h <;> cases h
      simp
  | finish =>
      simp only [deed?] at h
      split at h
      · obtain ⟨n, -, rfl⟩ := Option.map_eq_some_iff.mp h
        simp
      · cases h
        simp
  | handle =>
      simp only [deed?] at h
      split at h
      · split at h <;> cases h
        simp
      · cases h
        simp
  | remove =>
      cases h
      simp
  | _ => cases h

/-- The caller of a request has an acceptable result, which the server has sent. -/
def Answered (c : Connection) (id : Nat) : Prop :=
  ∃ e : Exchange, c.exchange? id = some e ∧ e.IsAnswered

theorem exchange?_settle {now n : Nat} {outcome : Except SessionError Json}
    (h : c.settle? now n = some (d, outcome)) (id : Nat) :
    (∃ e, c.exchange? n = some e ∧ outcome? now e = some outcome) ∧
      d.exchange? id = (c.exchange? id).map fun e => if e.id = n then e.settle outcome else e := by
  obtain ⟨hfound, rfl⟩ := settle?_eq_some_iff.mp h
  refine ⟨Option.bind_eq_some_iff.mp hfound, ?_⟩
  refine Exchange.find?_map (f := fun e => if e.id = n then e.settle outcome else e) ?_ c.exchanges id
  intro e
  split <;> rfl

/-- A caller who takes an acceptable result has it. -/
theorem answered_settle {now : Nat} {result : Json} (h : c.settle? now id = some (d, .ok result))
    (haccepted : InitializeResult.isAccepted result) : d.Answered id := by
  obtain ⟨⟨e, he, houtcome⟩, hexchange⟩ := exchange?_settle h id
  have hid : e.id = id := by simpa using List.find?_some he
  refine ⟨e.settle (.ok result), by rw [hexchange, he, Option.map_some, if_pos hid], ?_⟩
  -- Neither the end of the connection nor a time-out brings a result.
  unfold outcome? at houtcome
  split at houtcome
  · split at houtcome
    · rename_i reply hreply
      injection houtcome with houtcome
      cases reply with
      | closed => cases houtcome
      | response response =>
          refine ⟨response, result, rfl, hreply, ?_, haccepted⟩
          have hmapped : response.outcome.mapError SessionError.response = .ok result := houtcome
          cases hresponse : response.outcome with
          | error error =>
              rw [hresponse] at hmapped
              cases hmapped
          | ok found =>
              rw [hresponse] at hmapped
              cases hmapped
              rfl
    · split at houtcome <;> simp at houtcome
  · cases houtcome

/-- **No step takes an answer back.** -/
theorem answered_step (h : c.Answered id) (hstep : c.step? action = some d) : d.Answered id := by
  obtain ⟨e, he, hanswered⟩ := h
  refine ⟨e, ?_, hanswered⟩
  by_cases hsettle : ∃ now n, action = .settle now n
  · obtain ⟨now, n, rfl⟩ := hsettle
    obtain ⟨⟨next, outcome⟩, hr, rfl⟩ := Option.map_eq_some_iff.mp hstep
    obtain ⟨⟨other, hother, houtcome⟩, hexchange⟩ := exchange?_settle hr id
    have hid : e.id = id := by simpa using List.find?_some he
    -- The caller has taken its outcome already, so it is another one that takes one.
    have hne : e.id ≠ n := by
      rintro rfl
      rw [hid, he, Option.some.injEq] at hother
      obtain ⟨response, result, hstate, -⟩ := hanswered
      rw [← hother, outcome?, hstate] at houtcome
      cases houtcome
    rw [hexchange, he, Option.map_some, if_neg hne]
  · refine Ledger.find?_move (move_step hstep) ?_ he hanswered
    intro now n outcome hdeed
    exact hsettle ⟨now, n, (action_of_deed hdeed).1 now n outcome rfl⟩

/-- Only a request gives a number away. -/
theorem nextId_step (h : c.step? action = some d)
    (hquiet : ∀ method params deadline, action ≠ .request method params deadline) :
    d.nextId = c.nextId := by
  refine Ledger.nextId_move (move_step h) ?_
  intro n method deadline hdeed
  obtain ⟨params, hrequest⟩ := (action_of_deed hdeed).2 n method deadline rfl
  exact hquiet method params deadline hrequest

end Connection
end LanguageClient
