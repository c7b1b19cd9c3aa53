import LanguageClient.Proofs.Connection.Accounts

/-!
# The outcomes of calls

* `Connection.accounts_run` — ledger and history agree after every run.
* **`Connection.outcomes_of_calls`** — for every run: a call gets at most one outcome, the right one,
  and none is missing after the loop has ended.
-/

namespace LanguageClient
namespace Connection

/-! ### Runs -/

theorem accounts_run {c d : Connection} {actions : List Action} {before : List Deed}
    (h : c.ledger.Accounts before) (hrun : c.run? actions = some d) :
    d.ledger.Accounts (before ++ c.history actions) := by
  induction actions generalizing c before with
  | nil =>
      cases hrun
      simpa [history] using h
  | cons action rest ih =>
      obtain ⟨next, hstep, hrest⟩ := Option.bind_eq_some_iff.mp hrun
      have hnext := ih (Ledger.accounts_move h (move_step hstep)) hrest
      rw [history, hstep, ← List.append_assoc]
      exact hnext

/-! ### After the end -/

theorem find?_of_nodup {exchanges : List Exchange} (h : (exchanges.map Exchange.id).Nodup)
    {e : Exchange} (he : e ∈ exchanges) : exchanges.find? (·.id = e.id) = some e := by
  induction exchanges with
  | nil => cases he
  | cons first rest ih =>
      rw [List.map_cons, List.nodup_cons] at h
      rcases List.mem_cons.mp he with rfl | hrest
      · simp
      · have hne : first.id ≠ e.id := fun heq => h.1 (heq ▸ List.mem_map_of_mem hrest)
        rw [List.find?_cons_of_neg (by simpa using hne)]
        exact ih h.2 hrest

/-- What is left for a call after the end of the loop: the response that was handled, else that the
connection has ended. -/
def outcomeAtEnd (id : Nat) (history : List Deed) : Except SessionError Json :=
  match answer? id history with
  | some response => response.outcome.mapError .response
  | none => .error .connectionClosed

/-- A call that waits after the end of the loop has its outcome at once. -/
theorem settle?_of_ended {c : Connection} {history : List Deed} (h : c.ledger.Accounts history)
    (hended : c.loop = .ended) {e : Exchange} (he : e ∈ c.exchanges) (hwaits : e.state = .waiting)
    (now : Nat) :
    ∃ d, c.settle? now e.id = some (d, outcomeAtEnd e.id history) := by
  have hexchange : c.exchange? e.id = some e := find?_of_nodup h.called.ids he
  have hclosed : c.ledger.isOpen = false := by simp [ledger, isOpen, hended]
  have houtcome : outcome? now e = some (outcomeAtEnd e.id history) := by
    have hagrees := h.replied.agrees e he
    unfold Exchange.ReplyAgrees at hagrees
    split at hagrees
    · -- After the end no request is on its way.
      rw [h.placed.empty hclosed] at hagrees
      cases hagrees
    · rename_i response hreply
      simp [outcome?, outcomeAtEnd, hwaits, hreply, hagrees, Reply.outcome]
    · rename_i hreply
      simp [outcome?, outcomeAtEnd, hwaits, hreply, hagrees.2, Reply.outcome]
  refine ⟨c.updateExchange e.id fun k => { k with state := .settled (outcomeAtEnd e.id history) }, ?_⟩
  simp only [settle?, hexchange, Option.bind_some, houtcome]

/-- **The outcomes of calls.**  In every run of a connection a call gets at most one outcome, and
that is the first response to its own request that was handled after the request was written; else,
that the connection has ended, if it has; else, that its time is up.  Once the loop has ended, every
call has had its outcome, or its caller has gone away, or it gets its outcome as soon as the caller
looks: the response that was handled, else that the connection has ended. -/
theorem outcomes_of_calls (actions : List Action) (c : Connection)
    (hrun : ({} : Connection).run? actions = some c) :
    let history := ({} : Connection).history actions
    (∀ id, (history.filter (Deed.settles id)).length ≤ 1) ∧
      (∀ before now id outcome after, history = before ++ .settled now id outcome :: after →
        Justified before now id outcome) ∧
      (c.loop = .ended → ∀ id method deadline, .requested id method deadline ∈ history →
        (∃ now outcome, .settled now id outcome ∈ history) ∨ .forgot id ∈ history ∨
          ∀ now, ∃ d, c.settle? now id = some (d, outcomeAtEnd id history)) := by
  intro history
  have h : c.ledger.Accounts history := accounts_run Ledger.accounts_empty hrun
  refine ⟨h.called.once, h.fair, ?_⟩
  intro hended id method deadline hrequested
  obtain ⟨e, he, rfl, -, -⟩ := h.called.made id method deadline hrequested
  have hagree := h.called.states e he
  unfold Exchange.StateAgrees at hagree
  -- Its caller waits, has its outcome, or has gone away.
  split at hagree
  · rename_i hwaits
    exact .inr (.inr (settle?_of_ended h hended he hwaits))
  · obtain ⟨now, hsettled⟩ := hagree
    exact .inl ⟨now, _, hsettled⟩
  · exact .inr (.inl hagree)

/-- One call is answered, one waits for its response when the loop goes away, and one comes
afterwards. -/
theorem outcomes_of_three_calls :
    let reply : List UInt8 := [67, 111, 110, 116, 101, 110, 116, 45, 76, 101, 110, 103, 116, 104, 58,
      32, 51, 56, 13, 10, 13, 10, 123, 34, 106, 115, 111, 110, 114, 112, 99, 34, 58, 34, 50, 46, 48,
      34, 44, 34, 105, 100, 34, 58, 49, 44, 34, 114, 101, 115, 117, 108, 116, 34, 58, 116, 114, 117,
      101, 125]
    let actions : List Action := [.start, .request "first" .null 50, .request "second" .null 50,
      .write, .finish, .write, .finish, .receive reply, .read, .handle, .settle 10 1, .abort, .remove,
      .request "third" .null 50]
    let history := ({} : Connection).history actions
    ∃ c : Connection, ({} : Connection).run? actions = some c ∧ c.loop = .ended ∧
      (history.filter (Deed.settles 1)).length = 1 ∧
      (∀ id, (history.filter (Deed.settles id)).length ≤ 1) ∧
      (∀ before now id outcome after, history = before ++ .settled now id outcome :: after →
        Justified before now id outcome) ∧
      ∀ id method deadline, .requested id method deadline ∈ history →
        (∃ now outcome, .settled now id outcome ∈ history) ∨ .forgot id ∈ history ∨
          ∀ now, ∃ d, c.settle? now id = some (d, outcomeAtEnd id history) := by
  intro reply actions history
  have hends : (({} : Connection).run? actions).map loop = some .ended := by decide +kernel
  obtain ⟨c, hrun, hended⟩ := Option.map_eq_some_iff.mp hends
  have hsettles : (history.filter (Deed.settles 1)).length = 1 := by decide +kernel
  obtain ⟨honce, hfair, hrest⟩ := outcomes_of_calls actions c hrun
  exact ⟨c, hrun, hended, hsettles, honce, hfair, hrest hended⟩

end Connection
end LanguageClient
