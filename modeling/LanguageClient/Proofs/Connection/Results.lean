import LanguageClient.Proofs.Connection.Answers

/-!
# Results that wait for their callers

A result comes to the caller of a request when the loop handles the response, and it waits there until
the caller takes it or goes away.  Nothing else brings one.

* `Exchange.untaken?`, `Connection.untaken?` — the result that waits for the caller of a request.
* `Connection.settle?_of_untaken?` — the caller can take it.
* `Connection.brought?`, **`Connection.untaken_step`** — only a response brings a result.
* `Connection.BringsNothing`, `Connection.bringsNothing_step?` — what callers do brings nothing.
-/

namespace LanguageClient

/-! ### What waits for a caller -/

/-- The result that a caller can take. -/
def Exchange.untaken? (e : Exchange) : Option Json :=
  match e.state, e.reply? with
  | .waiting, some (.response response) => response.outcome.toOption
  | _, _ => none

namespace Exchange

variable {e : Exchange} {value : Json}

theorem untaken?_eq_some_iff : e.untaken? = some value ↔ e.state = .waiting ∧
    ∃ response : Response, e.reply? = some (.response response) ∧ response.outcome = .ok value := by
  obtain ⟨id, method, deadline, reply?, state⟩ := e
  rcases state with _ | outcome | _ <;> rcases reply? with _ | response | _ <;> simp [untaken?]
  cases response.outcome <;> simp [Except.toOption]

/-- A caller that has a result takes it, and no other outcome. -/
theorem outcome?_of_untaken? (h : e.untaken? = some value) (now : Nat) :
    Connection.outcome? now e = some (.ok value) := by
  obtain ⟨hstate, response, hreply, hvalue⟩ := untaken?_eq_some_iff.mp h
  simp only [Connection.outcome?, hstate, hreply, Reply.outcome, hvalue]
  rfl

theorem untaken?_of_outcome? {now : Nat} (h : Connection.outcome? now e = some (.ok value)) :
    e.untaken? = some value := by
  unfold Connection.outcome? at h
  split at h
  · rename_i hstate
    split at h
    · rename_i reply hreply
      cases reply with
      | closed => cases h
      | response response =>
          rw [untaken?_eq_some_iff]
          refine ⟨hstate, response, hreply, ?_⟩
          rw [Option.some.injEq, Reply.outcome] at h
          cases houtcome : response.outcome with
          | error e =>
              rw [houtcome] at h
              cases h
          | ok result =>
              rw [houtcome] at h
              injection h with h
              rw [h]
    · split at h <;> cases h
  · cases h

theorem untaken?_of_forget (h : e.forget.untaken? = some value) : e.untaken? = some value := by
  unfold forget at h
  split at h
  · cases h
  · exact h

/-- What a reply brings is in that reply, and it is the first one. -/
theorem untaken?_receive {reply : Reply} (h : (e.receive reply).untaken? = some value) :
    e.untaken? = some value ∨ e.untaken? = none ∧
      ∃ response : Response, reply = .response response ∧ response.outcome = .ok value := by
  unfold receive at h
  split at h
  · rename_i hnone
    obtain ⟨-, response, hreply, hvalue⟩ := untaken?_eq_some_iff.mp h
    refine .inr ⟨?_, response, Option.some.inj hreply, hvalue⟩
    cases hstate : e.state <;> simp [untaken?, hstate, hnone]
  · exact .inl h

end Exchange

/-! ### What brings a result -/

namespace Ledger

variable {l m : Ledger} {deed? : Option Deed} {id : Nat} {value : Json}

/-- The result that waits for the caller of a request. -/
def untaken? (l : Ledger) (id : Nat) : Option Json :=
  (l.exchanges.find? (·.id = id)).bind Exchange.untaken?

/-- Where calls change, each of them may come to a result. -/
theorem untaken?_of_map {f : Exchange → Exchange} (hid : ∀ e, (f e).id = e.id)
    (h : ((l.exchanges.map f).find? (·.id = id)).bind Exchange.untaken? = some value) :
    ∃ e, l.exchanges.find? (·.id = id) = some e ∧ e.id = id ∧ (f e).untaken? = some value := by
  rw [Exchange.find?_map hid] at h
  obtain ⟨after, hafter, hvalue⟩ := Option.bind_eq_some_iff.mp h
  obtain ⟨e, he, rfl⟩ := Option.map_eq_some_iff.mp hafter
  exact ⟨e, he, by simpa using List.find?_some he, hvalue⟩

/-- **Only a response brings a result**, its own and to a caller who had none. -/
theorem untaken_move (hm : l.Move deed? m) (h : m.untaken? id = some value) :
    l.untaken? id = some value ∨ l.untaken? id = none ∧ ∃ response : Response,
      deed? = some (.handled response) ∧ response.id = .number id ∧ response.outcome = .ok value := by
  have hkept : ∀ e, l.exchanges.find? (·.id = id) = some e → e.untaken? = some value →
      l.untaken? id = some value := fun e he hvalue => by rw [untaken?, he, Option.bind_some, hvalue]
  cases hm with
  | idle => exact .inl h
  | request method deadline =>
      left
      obtain ⟨e, he, hvalue⟩ := Option.bind_eq_some_iff.mp h
      rw [Ledger.request, List.find?_append] at he
      cases hold : l.exchanges.find? (·.id = id) with
      | some found =>
          rw [hold, Option.some_or, Option.some.injEq] at he
          exact hkept found hold (he ▸ hvalue)
      | none =>
          -- A request that is new has no reply, or it has failed.
          rw [hold, Option.none_or, List.find?_singleton] at he
          obtain ⟨-, he⟩ := Option.ite_none_right_eq_some.mp he
          obtain rfl := Option.some.inj he
          cases hopen : l.isOpen <;> simp [hopen, Exchange.untaken?] at hvalue
  | settle now other outcome hother houtcome =>
      left
      obtain ⟨e, he, -, hvalue⟩ := untaken?_of_map (fun e => by split <;> rfl) h
      dsimp only at hvalue
      split at hvalue
      · cases hvalue
      · exact hkept e he hvalue
  | forget other hother hwaits =>
      left
      obtain ⟨e, he, -, hvalue⟩ := untaken?_of_map (fun e => by split <;> simp) h
      split at hvalue
      · exact hkept e he (Exchange.untaken?_of_forget hvalue)
      · exact hkept e he hvalue
  | wrote n rest hopen hfirst => exact .inl h
  | answer n response hopen hpending hnumber =>
      obtain ⟨e, he, hid, hvalue⟩ := untaken?_of_map (fun e => by split <;> simp) h
      dsimp only at hvalue
      split at hvalue
      · rename_i hsame
        rcases Exchange.untaken?_receive hvalue with hvalue | ⟨hnone, _, hreply, hvalue⟩
        · exact .inl (hkept e he hvalue)
        · cases hreply
          refine .inr ⟨?_, response, rfl, by rw [hnumber, ← hsame, hid], hvalue⟩
          rw [untaken?, he, Option.bind_some, hnone]
      · exact .inl (hkept e he hvalue)
  | stray response hopen hnumber => exact .inl h
  | close hopen =>
      left
      obtain ⟨e, he, -, hvalue⟩ := untaken?_of_map (fun e => by split <;> simp) h
      split at hvalue
      · rcases Exchange.untaken?_receive hvalue with hvalue | ⟨-, _, hreply, -⟩
        · exact hkept e he hvalue
        · cases hreply
      · exact hkept e he hvalue

end Ledger

namespace Connection

variable {c d : Connection} {action : Action} {id : Nat} {value : Json}

/-- The result that waits for the caller of a request. -/
def untaken? (c : Connection) (id : Nat) : Option Json := (c.exchange? id).bind Exchange.untaken?

/-- The result that a step brings to the caller of a request. -/
def brought? (c : Connection) (action : Action) (id : Nat) : Option Json :=
  match c.deed? action with
  | some (.handled response) =>
      if response.id = .number id then response.outcome.toOption else none
  | _ => none

theorem untaken_step (hstep : c.step? action = some d) (h : d.untaken? id = some value) :
    c.untaken? id = some value ∨
      c.untaken? id = none ∧ c.brought? action id = some value := by
  refine (Ledger.untaken_move (move_step hstep) h).imp_right ?_
  rintro ⟨hnone, response, hdeed, hid, hvalue⟩
  refine ⟨hnone, ?_⟩
  simp only [brought?, hdeed, hid, if_true, hvalue]
  rfl

/-- A caller takes the result that waits for it. -/
theorem settle?_of_untaken? (h : c.untaken? id = some value) (now : Nat) :
    ∃ d, c.settle? now id = some (d, .ok value) := by
  obtain ⟨e, he, hvalue⟩ := Option.bind_eq_some_iff.mp h
  have houtcome : (c.exchange? id).bind (outcome? now) = some (.ok value) := by
    rw [he, Option.bind_some, Exchange.outcome?_of_untaken? hvalue]
  rw [settle?, houtcome]
  exact ⟨_, rfl⟩

theorem untaken?_of_settle? {now : Nat} (h : c.settle? now id = some (d, .ok value)) :
    c.untaken? id = some value := by
  obtain ⟨⟨e, he, houtcome⟩, -⟩ := exchange?_settle h id
  rw [untaken?, he, Option.bind_some, Exchange.untaken?_of_outcome? houtcome]

/-- No request has a result before it is made. -/
theorem untaken?_of_isNumbered (h : c.IsNumbered) : c.untaken? c.nextId = none := by
  have hnone : c.exchange? c.nextId = none := by
    refine List.find?_eq_none.mpr fun e he => ?_
    have hbelow : e.id < c.nextId := h e he
    simpa using Nat.ne_of_lt hbelow
  rw [untaken?, hnone, Option.bind_none]

/-! ### What brings nothing -/

/-- No notification is queued or taken, and no result comes. -/
structure BringsNothing (c d : Connection) : Prop where
  notifications : d.notifications = c.notifications
  results : ∀ (id : Nat) (value : Json), d.untaken? id = some value → c.untaken? id = some value

theorem bringsNothing_refl (c : Connection) : c.BringsNothing c := ⟨rfl, fun _ _ h => h⟩

theorem BringsNothing.trans {e : Connection} (h : c.BringsNothing d) (h' : d.BringsNothing e) :
    c.BringsNothing e where
  notifications := h'.notifications.trans h.notifications
  results id value hvalue := h.results id value (h'.results id value hvalue)

/-- Where nothing comes, a caller who had no result has none. -/
theorem untaken?_of_bringsNothing (h : c.BringsNothing d) (hnone : c.untaken? id = none) :
    d.untaken? id = none := by
  rw [Option.eq_none_iff_forall_ne_some] at hnone ⊢
  exact fun value hvalue => hnone value (h.results id value hvalue)

/-- What a caller does brings nothing. -/
theorem bringsNothing_step? (haction : action.isSpontaneous = false) (h : c.step? action = some d) :
    c.BringsNothing d where
  notifications := by
    cases transition_of_step h with
    | request | notify | settle | forget | take | abort => rfl
    | _ => cases haction
  results id value hvalue := by
    refine (untaken_step h hvalue).resolve_right fun ⟨_, hbrought⟩ => ?_
    cases action with
    | settle now n =>
        simp only [brought?, deed?] at hbrought
        cases hsettle : c.settle? now n <;> simp [hsettle] at hbrought
    | forget n =>
        simp only [brought?, deed?] at hbrought
        split at hbrought
        · rename_i hdeed
          split at hdeed <;> cases hdeed
        · cases hbrought
    | request => cases hbrought
    | notify => cases hbrought
    | take => cases hbrought
    | abort => cases hbrought
    | _ => cases haction

end Connection
end LanguageClient
