import Mathlib.Data.List.Nodup
import LanguageClient.Proofs.Connection.Answers
import LanguageClient.Proofs.Connection.Framed

/-!
# Requests that are left unanswered

A request is pending from when it was written until a response with its number is handled or the loop
ends.  Its caller has no say in that: when its time is up or when it goes away, its request stays
where it is, and so a server that does not answer makes the list of pending requests longer with each
request.

* `Exchange.IsLeft` — a call that its caller has left without a reply.
* `Ledger.IsOwned`, `Ledger.isOwned_move` — every request on its way belongs to a call.
* `Connection.caller_of_pending` — the caller of a pending request waits, or has left its call.
* **`Connection.pending_requests_are_unanswered`** — the pending requests of every run.
* **`Connection.requests_pile_up`** — there is no bound to those that nobody waits for.
-/

namespace LanguageClient

/-! ### Calls that were left -/

namespace Exchange

/-- The caller has left its call without a reply: its time was up, or it has gone away. -/
def IsLeft (e : Exchange) : Prop :=
  e.state = .settled (.error (.timeout e.method)) ∨ e.state = .forgotten

/-- Calls that keep their numbers. -/
theorem map_id_update {f : Exchange → Exchange} (hf : ∀ e, (f e).id = e.id) (p : Exchange → Prop)
    [DecidablePred p] (exchanges : List Exchange) :
    (exchanges.map fun e => if p e then f e else e).map Exchange.id =
      exchanges.map Exchange.id := by
  rw [List.map_map]
  refine List.map_congr_left fun e _ => ?_
  dsimp only [Function.comp]
  split
  · exact hf e
  · rfl

end Exchange

/-- What has been answered stays answered, whatever is done. -/
theorem answer?_append {id : Nat} {history : List Deed} {response : Response}
    (h : answer? id history = some response) (more : List Deed) :
    answer? id (history ++ more) = some response := by
  induction more generalizing history with
  | nil => rwa [List.append_nil]
  | cons deed more ih =>
      rw [List.append_cons]
      exact ih (answer?_keeps h)

/-! ### Requests and their calls -/

namespace Ledger

variable {l m : Ledger} {history : List Deed} {deed? : Option Deed}

/-- Every request that is on its way belongs to a call. -/
def IsOwned (l : Ledger) : Prop :=
  ∀ id ∈ l.pending ++ l.unwritten, id ∈ l.exchanges.map Exchange.id

theorem isOwned_request (h : l.IsOwned) (method : String) (deadline : Nat) :
    (l.request method deadline).IsOwned := by
  intro id hid
  have hnew : id ∈ l.pending ++ l.unwritten ∨ id = l.nextId := by
    cases hopen : l.isOpen <;> simp_all [request, or_assoc]
  simp only [request, List.map_append, List.mem_append, List.map_cons, List.map_nil,
    List.mem_singleton]
  exact hnew.imp_left (h id)

/-- **Every move keeps the owners of the requests on their way.** -/
theorem isOwned_move (h : l.IsOwned) (hm : l.Move deed? m) : m.IsOwned := by
  have hids : ∀ (f : Exchange → Exchange) (p : Exchange → Prop) [DecidablePred p],
      (∀ e, (f e).id = e.id) → ∀ id ∈ l.pending ++ l.unwritten,
        id ∈ (l.exchanges.map fun e => if p e then f e else e).map Exchange.id := by
    intro f p _ hf id hid
    rw [Exchange.map_id_update hf p]
    exact h id hid
  cases hm with
  | idle => exact h
  | request method deadline => exact isOwned_request h method deadline
  | settle now e outcome he houtcome => exact hids (·.settle outcome) (·.id = e.id) fun _ => rfl
  | forget e he hwaits => exact hids Exchange.forget (·.id = e.id) Exchange.forget_id
  | wrote id rest hopen hfirst =>
      intro i hi
      refine h i ?_
      simpa [hfirst] using hi
  | answer id response hopen hpending hid =>
      intro i hi
      refine hids (·.receive (.response response)) (·.id = id) (by simp) i ?_
      exact (List.mem_append.mp hi).elim
        (fun hold => List.mem_append_left _ (List.mem_of_mem_erase hold))
        (List.mem_append_right _)
  | stray response hopen hid => exact h
  | close hopen => exact List.forall_mem_nil _

/-- Two calls of one number are the same. -/
theorem eq_of_id (h : l.Called history) {e other : Exchange} (he : e ∈ l.exchanges)
    (hother : other ∈ l.exchanges) (hid : e.id = other.id) : e = other :=
  List.inj_on_of_nodup_map h.ids he hother hid

end Ledger

namespace Connection

variable {c d : Connection} {history : List Deed} {id : Nat}

theorem isOwned_run {actions : List Action} (h : c.ledger.IsOwned) (hrun : c.run? actions = some d) :
    d.ledger.IsOwned :=
  run_keeps (P := fun c => c.ledger.IsOwned)
    (fun h hstep => Ledger.isOwned_move h (move_step hstep)) h hrun

/-- As long as something is pending, the loop goes on. -/
theorem isOpen_of_pending (h : c.ledger.Accounts history) (hid : id ∈ c.pending) : c.isOpen := by
  by_contra hclosed
  have hnothing := h.placed.empty (Bool.not_eq_true _ ▸ hclosed)
  have hmem : id ∈ c.ledger.pending ++ c.ledger.unwritten := List.mem_append_left _ hid
  rw [hnothing] at hmem
  cases hmem

/-- The caller of a pending request waits, or has left its call: an outcome that comes from a
response or from the end of the loop leaves nothing pending. -/
theorem caller_of_pending (h : c.ledger.Accounts history) {e : Exchange} (he : e ∈ c.exchanges)
    (hid : e.id ∈ c.pending) : e.state = .waiting ∨ e.IsLeft := by
  have hnone : answer? e.id history = none := h.replied.pending e.id hid
  have hagree := h.called.states e he
  unfold Exchange.StateAgrees at hagree
  split at hagree
  · rename_i hwaits
    exact .inl hwaits
  · rename_i outcome hstate
    obtain ⟨now, hsettled⟩ := hagree
    obtain ⟨before, after, rfl⟩ := List.append_of_mem hsettled
    -- Its outcome was justified when the caller took it, and no response has come until now.
    cases h.fair before now e.id outcome after rfl with
    | answered response hanswer =>
        rw [answer?_append hanswer] at hnone
        cases hnone
    | closed hnever hended =>
        have hclosed := h.placed.ended.mpr (List.mem_append_left _ hended)
        have hopen : c.ledger.isOpen := isOpen_of_pending h hid
        rw [hclosed] at hopen
        cases hopen
    | timeout method deadline hnever hopen hrequested =>
        obtain ⟨other, hother, hsame, rfl, -⟩ :=
          h.called.made e.id method deadline (List.mem_append_left _ hrequested)
        obtain rfl := Ledger.eq_of_id h.called hother he hsame
        exact .inr (.inl hstate)
  · rename_i hstate
    exact .inr (.inr hstate)

/-- **The pending requests.**  In every run of a connection the pending requests are those that were
written and not answered since, each of them once, as long as the loop goes on.  Each belongs to a
call whose caller waits, or whose caller has left it: its time was up, or it has gone away.  So when
every caller has a reply or has learnt of the end of the connection, nothing is pending. -/
theorem pending_requests_are_unanswered (actions : List Action) (c : Connection)
    (hrun : ({} : Connection).run? actions = some c) :
    let history := ({} : Connection).history actions
    c.pending.Nodup ∧
      (∀ id, id ∈ c.pending ↔ c.isOpen ∧ isWritten id history ∧ answer? id history = none) ∧
      (∀ id ∈ c.pending, ∃ e ∈ c.exchanges, e.id = id ∧ (e.state = .waiting ∨ e.IsLeft)) ∧
      ((∀ e ∈ c.exchanges, e.state ≠ .waiting ∧ ¬ e.IsLeft) → c.pending = []) := by
  intro history
  have h : c.ledger.Accounts history := accounts_run Ledger.accounts_empty hrun
  have howned : c.ledger.IsOwned := by
    refine isOwned_run ?_ hrun
    simp [Ledger.IsOwned, ledger, unwrittenIds]
  have hcaller : ∀ id ∈ c.pending, ∃ e ∈ c.exchanges, e.id = id ∧
      (e.state = .waiting ∨ e.IsLeft) := by
    intro id hid
    obtain ⟨e, he, rfl⟩ := List.mem_map.mp (howned id (List.mem_append_left _ hid))
    exact ⟨e, he, rfl, caller_of_pending h he hid⟩
  refine ⟨(List.nodup_append.mp h.placed.nodup).1, fun id => ⟨fun hid => ?_, ?_⟩, hcaller, ?_⟩
  · exact ⟨isOpen_of_pending h hid, h.placed.written id hid, h.replied.pending id hid⟩
  · rintro ⟨hopen, hwritten, hnone⟩
    exact pending_of_run (c := {}) Ledger.accounts_empty hrun (by simp [isWritten]) hopen hwritten
      hnone
  · intro hall
    refine List.eq_nil_iff_forall_not_mem.mpr fun id hid => ?_
    obtain ⟨e, he, -, hwaits | hleft⟩ := hcaller id hid
    · exact (hall e he).1 hwaits
    · exact (hall e he).2 hleft

/-- The first of four requests is answered.  The caller of the second has run out of time, the caller
of the third waits, and the fourth is not written yet. -/
theorem two_of_four_requests_are_pending :
    let reply : List UInt8 := [67, 111, 110, 116, 101, 110, 116, 45, 76, 101, 110, 103, 116, 104, 58,
      32, 51, 56, 13, 10, 13, 10, 123, 34, 106, 115, 111, 110, 114, 112, 99, 34, 58, 34, 50, 46, 48,
      34, 44, 34, 105, 100, 34, 58, 49, 44, 34, 114, 101, 115, 117, 108, 116, 34, 58, 116, 114, 117,
      101, 125]
    let actions : List Action := [.start, .request "first" .null 50, .request "second" .null 50,
      .write, .finish, .write, .finish, .receive reply, .read, .handle, .settle 10 1, .settle 60 2,
      .request "third" .null 90, .request "fourth" .null 90, .write, .finish, .write]
    let history := ({} : Connection).history actions
    ∃ c : Connection, ({} : Connection).run? actions = some c ∧ c.pending = [2, 3] ∧
      (∀ id, id ∈ c.pending ↔ c.isOpen ∧ isWritten id history ∧ answer? id history = none) ∧
      ∀ id ∈ c.pending, ∃ e ∈ c.exchanges, e.id = id ∧ (e.state = .waiting ∨ e.IsLeft) := by
  intro reply actions history
  have hpending : (({} : Connection).run? actions).map pending = some [2, 3] := by decide +kernel
  obtain ⟨c, hrun, htwo⟩ := Option.map_eq_some_iff.mp hpending
  obtain ⟨-, hwhich, hcallers, -⟩ := pending_requests_are_unanswered actions c hrun
  exact ⟨c, hrun, htwo, hwhich, hcallers⟩

/-- Of two requests that the server does not answer, the caller of one runs out of time, and the
caller of the other goes away.  Nobody waits for them, and both stay. -/
theorem nobody_waits_for_what_is_pending :
    let actions : List Action := [.start, .request "slow" .null 50, .request "slower" .null 50,
      .write, .finish, .write, .finish, .settle 50 1, .forget 2]
    ∃ c : Connection, ({} : Connection).run? actions = some c ∧
      (∀ e ∈ c.exchanges, e.isWaiting = false) ∧ c.pending = [1, 2] := by
  intro actions
  have hends : (({} : Connection).run? actions).map
      (fun c => (c.exchanges.map Exchange.isWaiting, c.pending)) =
        some ([false, false], [1, 2]) := by decide +kernel
  obtain ⟨c, hrun, hboth⟩ := Option.map_eq_some_iff.mp hends
  obtain ⟨hwaiting, hpending⟩ := Prod.mk.inj hboth
  refine ⟨c, hrun, fun e he => ?_, hpending⟩
  have hmem : e.isWaiting ∈ c.exchanges.map Exchange.isWaiting := List.mem_map_of_mem he
  rw [hwaiting] at hmem
  simpa using hmem

/-! ### No bound -/

/-- The call of a request whose caller has run out of time at once. -/
def outOfTime (id : Nat) (method : String) : Exchange :=
  { id, method, deadline := 0, state := .settled (.error (.timeout method)) }

/-- A request that is written, and whose caller runs out of time. -/
theorem run?_outOfTime (hattentive : c.isAttentive) (hreads : c.peerReads)
    (hnothing : c.outbound = []) (hnew : ∀ e ∈ c.exchanges, e.id ≠ c.nextId) (method : String) :
    c.run? [.request method .null 0, .write, .finish, .settle 0 c.nextId] = some { c with
      nextId := c.nextId + 1
      written := c.written ++ [(Outgoing.request c.nextId method .null).toJson]
      pending := c.pending ++ [c.nextId]
      exchanges := c.exchanges ++ [outOfTime c.nextId method] } := by
  obtain ⟨⟨hruns, haborted⟩, hidle⟩ : (c.loop = .running ∧ c.aborted = false) ∧ c.writing? = none := by
    simpa [isAttentive, isRunning] using hattentive
  obtain ⟨nextId, exchanges, outbound, writing?, pending, loop, aborted, reader, inbox, notifications,
    taken, closed, peerReads, written⟩ := c
  dsimp only at hruns haborted hidle hreads hnothing hnew
  subst hruns haborted hidle hreads hnothing
  let call : Exchange := { id := nextId, method, deadline := 0 }
  have hfound : (exchanges ++ [call]).find? (·.id = nextId) = some call := by
    have hnone : exchanges.find? (·.id = nextId) = none :=
      List.find?_eq_none.mpr fun e he => by simpa using hnew e he
    simp [List.find?_append, hnone, call]
  have hothers : (exchanges.map fun e =>
      if e.id = nextId then { e with state := .settled (.error (.timeout method)) } else e) =
        exchanges := by
    refine (List.map_congr_left fun e he => ?_).trans (List.map_id _)
    rw [if_neg (hnew e he), id]
  simp [run?, step?, request, isOpen, write?, isAttentive, isRunning, finish?, settle?, exchange?,
    updateExchange, hfound, hothers, outcome?, Outgoing.id?, outOfTime, call]

/-- **Requests pile up.**  For every number there is a run after which so many requests are pending,
and the callers of all that were ever made have run out of time. -/
theorem requests_pile_up (n : Nat) : ∃ (actions : List Action) (c : Connection),
    ({} : Connection).run? actions = some c ∧
      (∀ e ∈ c.exchanges, e.state = .settled (.error (.timeout e.method))) ∧
      c.pending.length = n := by
  suffices h : ∃ (actions : List Action) (c : Connection), ({} : Connection).run? actions = some c ∧
      (∀ e ∈ c.exchanges, e.state = .settled (.error (.timeout e.method))) ∧ c.pending.length = n ∧
      c.isAttentive ∧ c.peerReads ∧ c.outbound = [] by
    obtain ⟨actions, c, hrun, hstates, hlength, -⟩ := h
    exact ⟨actions, c, hrun, hstates, hlength⟩
  induction n with
  | zero => exact ⟨[.start], _, rfl, List.forall_mem_nil _, rfl, rfl, rfl, rfl⟩
  | succ n ih =>
      obtain ⟨actions, c, hrun, hstates, hlength, hattentive, hreads, hnothing⟩ := ih
      have h : c.ledger.Accounts _ := accounts_run Ledger.accounts_empty hrun
      have hnew : ∀ e ∈ c.exchanges, e.id ≠ c.nextId := fun e he => (h.called.below e he).ne
      refine ⟨_, _, (run?_append hrun _).trans (run?_outOfTime hattentive hreads hnothing hnew "slow"),
        ?_, ?_, hattentive, hreads, hnothing⟩
      · intro e he
        rcases List.mem_append.mp he with hold | hlast
        · exact hstates e hold
        · cases List.mem_singleton.mp hlast
          rfl
      · simp [hlength]

end Connection
end LanguageClient
