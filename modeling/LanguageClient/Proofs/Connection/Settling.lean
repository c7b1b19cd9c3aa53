import LanguageClient.Proofs.Connection.Unanswered
import LanguageClient.Proofs.Message.Classified

/-!
# What settles a request

A pending request is settled by the response to it and by nothing else that the server sends.  For a
value that is no array that can be read off its members: its identifier is the number of the request,
it has no method, and its error, if there is one, is well-formed.  A response whose error is malformed
is dropped as a whole, like any value that is no message.

* `Json.IsError`, `ResponseError.isSome_ofJson?_iff` — the well-formed errors.
* `Json.Answers`, `Json.answer` — the values that settle a request, and what they bring its caller.
* `Inbound.exists_response_iff` — these are the ones that are classified as responses to it.
* `Connection.leavesRequest_accept`, `Connection.accept_of_answers` — what a value does to a pending
  request.
* **`Connection.settled_by_its_response`** — for every pending request of every run.
-/

namespace LanguageClient

open Json (optional?)

variable {value : Json} {id : Nat}

/-! ### Values that are no arrays -/

/-- The value writes an error: its code is an integer that fits a signed word, its message a text. -/
structure Json.IsError (value : Json) : Prop where
  size : value.MayWrite 3
  code : ∃ n, (value.field? "code" 0).bind Json.asInt64? = some n
  message : ∃ s, (value.field? "message" 1).bind Json.asString? = some s

/-- The value is the response to the request of a number: it has that identifier and no method, and
its error, if it has one that is not null, is well-formed. -/
structure Json.Answers (value : Json) (id : Nat) : Prop where
  number : (value.get? "id").bind Json.asInt64? = some (id : Int)
  noMethod : value.get? "method" = none
  error : ∀ e, value.get? "error" = some e → e = .null ∨ e.IsError

/-- The value is an object with the identifier of a request and without a method. -/
def Json.IsResponseTo (value : Json) (id : Nat) : Prop :=
  ∃ members, value = .obj members ∧ Json.lookup "id" members = some (.ofInt id) ∧
    Json.lookup "method" members = none

/-- What a response brings the caller of its request: its error, else its result, null if that is
missing. -/
def Json.answer (value : Json) : Except ResponseError Json :=
  match (value.get? "error").bind ResponseError.ofJson? with
  | some e => .error e
  | none => .ok ((value.get? "result").getD .null)

/-- Where any value will do, there is no obstacle. -/
theorem Json.exists_optional?_some (value? : Option Json) :
    ∃ read, optional? some value? = some read :=
  Option.isSome_iff_exists.mp (Json.isSome_optional?_iff.mpr fun _ _ => .inr rfl)

theorem ResponseError.isSome_ofJson?_iff : (ResponseError.ofJson? value).isSome ↔ value.IsError := by
  rw [Option.isSome_iff_exists]
  constructor
  · rintro ⟨e, he⟩
    obtain ⟨hsize, hcode, hmessage, -⟩ := ofJson?_eq_some_iff.mp he
    exact ⟨hsize, ⟨_, hcode⟩, ⟨_, hmessage⟩⟩
  · rintro ⟨hsize, ⟨code, hcode⟩, message, hmessage⟩
    obtain ⟨data, hdata⟩ := Json.exists_optional?_some (value.field? "data" 2)
    exact ⟨⟨code, message, data⟩, ofJson?_eq_some_iff.mpr ⟨hsize, hcode, hmessage, hdata⟩⟩

theorem Json.field?_of_no_array (h : value.asArray? = none) (name : String) (place : Nat) :
    value.field? name place = value.get? name := by
  cases value with
  | arr items => cases h
  | _ => rfl

theorem Json.mayWrite_of_get? {s : String} (h : (value.get? s).isSome) (size : Nat) :
    value.MayWrite size := by
  cases value with
  | obj members => trivial
  | _ => cases h

theorem RequestId.ofJson?_eq_number_iff {n : Int} :
    RequestId.ofJson? value = some (.number n) ↔ value.asInt64? = some n := by
  unfold RequestId.ofJson?
  cases value.asInt64? <;> simp

namespace Inbound

/-- A value that is no array is classified as a response when it has no method, and every member of
it is read. -/
theorem classify?_eq_response_iff (harray : value.asArray? = none) {r : Response} :
    classify? value = some (.response r) ↔ value.get? "method" = none ∧
      (value.get? "id").bind RequestId.ofJson? = some r.id ∧
      optional? some (value.get? "result") = some r.result ∧
      optional? ResponseError.ofJson? (value.get? "error") = some r.error := by
  unfold classify? hasMethod
  cases hmethod : value.get? "method" with
  | some method =>
      simp only [Option.isSome_some, if_true]
      split <;> simp [Option.map_eq_some_iff]
  | none =>
      simp only [Option.isSome_none, Bool.false_eq_true, if_false, Option.map_eq_some_iff,
        Inbound.response.injEq, exists_eq_right, true_and, Response.ofJson?_eq_some_iff,
        Json.field?_of_no_array harray]
      refine and_iff_right_of_imp fun h => Json.mayWrite_of_get? (s := "id") ?_ 3
      cases hid : value.get? "id" with
      | some _ => rfl
      | none =>
          rw [hid] at h
          cases h.1

/-- The values that are classified as responses to a request. -/
theorem exists_response_iff (harray : value.asArray? = none) :
    (∃ r, classify? value = some (.response r) ∧ r.id = .number id) ↔ value.Answers id := by
  constructor
  · rintro ⟨r, hr, hid⟩
    obtain ⟨hmethod, hnumber, -, herror⟩ := (classify?_eq_response_iff harray).mp hr
    rw [hid] at hnumber
    obtain ⟨number, hgiven, hnumber⟩ := Option.bind_eq_some_iff.mp hnumber
    refine ⟨?_, hmethod, ?_⟩
    · rw [hgiven]
      exact RequestId.ofJson?_eq_number_iff.mp hnumber
    · intro e he
      rw [← ResponseError.isSome_ofJson?_iff]
      exact Json.isSome_optional?_iff.mp (Option.isSome_of_mem herror) e he
  · rintro ⟨hnumber, hmethod, herror⟩
    obtain ⟨number, hgiven, hnumber⟩ := Option.bind_eq_some_iff.mp hnumber
    obtain ⟨result, hresult⟩ := Json.exists_optional?_some (value.get? "result")
    have hreadable : (optional? ResponseError.ofJson? (value.get? "error")).isSome := by
      refine Json.isSome_optional?_iff.mpr fun e he => ?_
      rw [ResponseError.isSome_ofJson?_iff]
      exact herror e he
    obtain ⟨error, hread⟩ := Option.isSome_iff_exists.mp hreadable
    refine ⟨⟨.number id, result, error⟩, ?_, rfl⟩
    refine (classify?_eq_response_iff harray).mpr ⟨hmethod, ?_, hresult, hread⟩
    rw [hgiven]
    exact RequestId.ofJson?_eq_number_iff.mpr hnumber

/-- What a response brings is what its value says. -/
theorem outcome_of_classify? (harray : value.asArray? = none) {r : Response}
    (h : classify? value = some (.response r)) : r.outcome = value.answer := by
  obtain ⟨-, -, hresult, herror⟩ := (classify?_eq_response_iff harray).mp h
  unfold Response.outcome Json.answer
  cases hread : r.error with
  | some e =>
      rw [hread] at herror
      obtain ⟨written, hgiven, -, he⟩ := Json.optional?_eq_some_some_iff.mp herror
      rw [hgiven, Option.bind_some, he]
  | none =>
      rw [hread] at herror
      have hnone : (value.get? "error").bind ResponseError.ofJson? = none := by
        rcases Json.optional?_eq_some_none_iff.mp herror with hnone | hnull
        · rw [hnone]
          rfl
        · rw [hnull]
          rfl
      have hsame : r.result.getD .null = (value.get? "result").getD .null := by
        cases hfound : r.result with
        | some result =>
            rw [hfound] at hresult
            obtain ⟨written, hgiven, -, hread⟩ := Json.optional?_eq_some_some_iff.mp hresult
            rw [hgiven, ← Option.some.inj hread]
        | none =>
            rw [hfound] at hresult
            rcases Json.optional?_eq_some_none_iff.mp hresult with hnone | hnull
            · rw [hnone]
            · rw [hnull]
              rfl
      rw [hnone, hsame]

end Inbound

/-! ### What a value does to a pending request -/

namespace Connection

variable {c d : Connection}

theorem exchange?_deliver (c : Connection) (other : Nat) (reply : Reply) (id : Nat) :
    (c.deliver other reply).exchange? id =
      (c.exchange? id).map fun e => if e.id = other then e.receive reply else e := by
  refine Exchange.find?_map (f := fun e => if e.id = other then e.receive reply else e) ?_
    c.exchanges id
  intro e
  split
  · exact Exchange.receive_id e reply
  · rfl

theorem exchange?_deliver_of_ne {other : Nat} (h : id ≠ other) (reply : Reply) :
    (c.deliver other reply).exchange? id = c.exchange? id := by
  rw [exchange?_deliver]
  cases hexchange : c.exchange? id with
  | none => rfl
  | some e =>
      have hid : e.id = id := by simpa using List.find?_some hexchange
      rw [Option.map_some, if_neg (by rwa [hid])]

/-- The value that the loop handles next. -/
def found? (c : Connection) : Option Json :=
  match c.inbox with
  | .ok value :: _ => some value
  | _ => none

/-- A pending request and its call are left as they were. -/
def LeavesRequest (c : Connection) (id : Nat) (d : Connection) : Prop :=
  id ∈ d.pending ∧ d.exchange? id = c.exchange? id

/-- A value that is no response to a pending request leaves it alone. -/
theorem leavesRequest_accept (hid : id ∈ c.pending) (harray : value.asArray? = none)
    (hanswers : ¬ value.Answers id) : c.LeavesRequest id (c.accept value) := by
  have haccepts := c.acceptance_accept value
  generalize c.accept value = d at haccepts
  cases haccepts with
  | answer r other hvalue hother hpending =>
      have hne : id ≠ other := by
        rintro rfl
        exact hanswers ((Inbound.exists_response_iff harray).mp ⟨r, hvalue, hother⟩)
      exact ⟨(List.mem_erase_of_ne hne).mpr hid, exchange?_deliver_of_ne hne _⟩
  | drop | stray | notify | reply => exact ⟨hid, rfl⟩

/-- A response to a pending request is brought to its caller. -/
theorem accept_of_answers (hid : id ∈ c.pending) (harray : value.asArray? = none)
    (hanswers : value.Answers id) :
    ∃ r, c.accept value = { c with pending := c.pending.erase id }.deliver id (.response r) ∧
      r.outcome = value.answer := by
  obtain ⟨r, hvalue, hr⟩ := (Inbound.exists_response_iff harray).mpr hanswers
  refine ⟨r, ?_, Inbound.outcome_of_classify? harray hvalue⟩
  have hfound : c.pending.find? (fun id : Nat => r.id = .number id) = some id := by
    cases hfound : c.pending.find? (fun id : Nat => r.id = .number id) with
    | none =>
        have hnot := List.find?_eq_none.mp hfound id hid
        simp [hr] at hnot
    | some other =>
        have hother : r.id = .number other := by simpa using List.find?_some hfound
        rw [hr, RequestId.number.injEq, Int.ofNat_inj] at hother
        rw [hother]
  simp only [accept, hvalue, answer, hfound]

/-- A value without a method that is no response to a pending request is dropped. -/
theorem accept_eq_self (harray : value.asArray? = none) (hmethod : value.get? "method" = none)
    (hnone : ∀ id ∈ c.pending, ¬ value.Answers id) : c.accept value = c := by
  have hresponse : Inbound.classify? value = (Response.ofJson? value).map .response := by
    rw [Inbound.classify?, Inbound.hasMethod, hmethod]
    rfl
  unfold accept
  cases hread : Response.ofJson? value with
  | none =>
      rw [hread] at hresponse
      rw [hresponse]
      rfl
  | some r =>
      rw [hread] at hresponse
      rw [hresponse]
      have hfound : c.pending.find? (fun id : Nat => r.id = .number id) = none := by
        refine List.find?_eq_none.mpr fun id hid hr => hnone id hid ?_
        exact (Inbound.exists_response_iff harray).mp ⟨r, hresponse, by simpa using hr⟩
      simp only [Option.map_some, answer, hfound]

/-- The caller of a pending request has no reply. -/
theorem exchange?_of_pending {actions : List Action} (hrun : ({} : Connection).run? actions = some c)
    (hid : id ∈ c.pending) : ∃ e, c.exchange? id = some e ∧ e.id = id ∧ e.reply? = none := by
  have h : c.ledger.Accounts _ := accounts_run Ledger.accounts_empty hrun
  have howned : c.ledger.IsOwned :=
    isOwned_run (by simp [Ledger.IsOwned, ledger, unwrittenIds]) hrun
  obtain ⟨e, he, rfl⟩ := List.mem_map.mp (howned id (List.mem_append_left _ hid))
  -- A reply would have come by a response, which ends the pending, or by the end of the connection.
  refine ⟨e, find?_of_nodup h.called.ids he, rfl, ?_⟩
  have hagrees := h.replied.agrees e he
  unfold Exchange.ReplyAgrees at hagrees
  split at hagrees
  · assumption
  · have hnone := h.replied.pending e.id hid
    rw [hagrees] at hnone
    cases hnone
  · have hopen : c.ledger.isOpen := isOpen_of_pending h hid
    rw [hagrees.1] at hopen
    cases hopen

/-- **A pending request is settled by its response.**  In every run of a connection, when the loop
handles a value that is no array, a pending request is pending no more exactly when the value is the
response to it.  Its caller then has the error of the response, else its result, and takes it at once
if it still waits.  Otherwise the request and its call are as they were; and a value that has no
method and answers no pending request, such as a response whose error is malformed, changes nothing
at all. -/
theorem settled_by_its_response (actions : List Action) (c : Connection)
    (hrun : ({} : Connection).run? actions = some c) (hattentive : c.isAttentive) (value : Json)
    (hfound : c.found? = some value) (harray : value.asArray? = none) :
    ∃ d, c.step? .handle = some d ∧
      (∀ id ∈ c.pending,
        (id ∉ d.pending ↔ value.Answers id) ∧
        (value.Answers id → ∃ e r, c.exchange? id = some e ∧
          d.exchange? id = some { e with reply? := some (.response r) } ∧
          r.outcome = value.answer ∧
          (e.state = .waiting → ∀ now, (d.settle? now id).map Prod.snd =
            some (value.answer.mapError .response))) ∧
        (¬ value.Answers id → d.exchange? id = c.exchange? id)) ∧
      (value.get? "method" = none → (∀ id ∈ c.pending, ¬ value.Answers id) →
        d = { c with inbox := c.inbox.tail }) := by
  obtain ⟨rest, hinbox⟩ : ∃ rest, c.inbox = .ok value :: rest := by
    unfold found? at hfound
    split at hfound
    · rename_i rest hinbox
      cases hfound
      exact ⟨rest, hinbox⟩
    · cases hfound
  rw [hinbox, List.tail_cons]
  have hnodup : c.pending.Nodup :=
    (List.nodup_append.mp (accounts_run Ledger.accounts_empty hrun).placed.nodup).1
  have hstep : c.step? .handle = some ({ c with inbox := rest }.accept value) := by
    simp [step?, handle?, hattentive, hinbox]
  refine ⟨_, hstep, fun id hid => ?_, accept_eq_self (c := { c with inbox := rest }) harray⟩
  by_cases hanswers : value.Answers id
  · obtain ⟨r, haccept, houtcome⟩ :=
      accept_of_answers (c := { c with inbox := rest }) hid harray hanswers
    obtain ⟨e, hexchange, hself, hreply⟩ := exchange?_of_pending hrun hid
    -- The reply that it did not have yet is this response.
    have hbrought : ({ c with inbox := rest }.accept value).exchange? id =
        some { e with reply? := some (.response r) } := by
      rw [haccept, exchange?_deliver]
      change (c.exchange? id).map _ = _
      rw [hexchange, Option.map_some, if_pos hself, Exchange.receive, hreply]
    refine ⟨⟨fun _ => hanswers, fun _ => ?_⟩, fun _ => ⟨e, r, hexchange, hbrought, houtcome, ?_⟩,
      fun hnot => absurd hanswers hnot⟩
    · rw [haccept]
      -- A pending identifier is there once, so it is gone when it is erased.
      exact hnodup.not_mem_erase
    · intro hwaits now
      simp [settle?, hbrought, outcome?, hwaits, Reply.outcome, houtcome]
  · obtain ⟨hpending, hexchange⟩ :=
      leavesRequest_accept (c := { c with inbox := rest }) hid harray hanswers
    exact ⟨⟨fun hnot => absurd hpending hnot, fun h => absurd h hanswers⟩,
      fun h => absurd h hanswers, fun _ => hexchange⟩

/-- Of two pending requests the second is answered. -/
theorem second_of_two_requests_is_settled :
    let reply : List UInt8 :=
      [67, 111, 110, 116, 101, 110, 116, 45, 76, 101, 110, 103, 116, 104, 58, 32, 51, 56, 13, 10,
        13, 10, 123, 34, 106, 115, 111, 110, 114, 112, 99, 34, 58, 34, 50, 46, 48, 34, 44, 34,
        105, 100, 34, 58, 50, 44, 34, 114, 101, 115, 117, 108, 116, 34, 58, 116, 114, 117, 101,
        125]
    let actions : List Action := [.start, .request "first" .null 50, .request "second" .null 50,
      .write, .finish, .write, .finish, .receive reply, .read]
    ∃ (c d : Connection) (value : Json), ({} : Connection).run? actions = some c ∧ c.isAttentive ∧
      c.found? = some value ∧ value.asArray? = none ∧ c.pending = [1, 2] ∧ value.Answers 2 ∧
      c.step? .handle = some d ∧ 1 ∈ d.pending ∧ 2 ∉ d.pending := by
  intro reply actions
  have hends : (({} : Connection).run? actions).any (fun c => c.isAttentive &&
      c.pending == [1, 2] && c.found?.any fun value => value.asArray?.isNone &&
        (value.get? "id").bind Json.asInt64? == some 2 && (value.get? "method").isNone &&
        (value.get? "error").isNone) := by decide +kernel
  obtain ⟨c, hrun, hfacts⟩ := (Option.any_eq_true _ _).mp hends
  simp only [Bool.and_eq_true, beq_iff_eq, Option.any_eq_true, Option.isNone_iff_eq_none] at hfacts
  obtain ⟨⟨hattentive, hpending⟩, value, hfound, ⟨⟨harray, hnumber⟩, hmethod⟩, herror⟩ := hfacts
  have hanswers : value.Answers 2 := by
    refine ⟨hnumber, hmethod, fun e he => ?_⟩
    rw [herror] at he
    cases he
  have hother : ¬ value.Answers 1 := by
    intro h
    have hsame := h.number
    rw [hnumber] at hsame
    cases hsame
  obtain ⟨d, hstep, hrequests, -⟩ :=
    settled_by_its_response actions c hrun hattentive value hfound harray
  refine ⟨c, d, value, hrun, hattentive, hfound, harray, hpending, hanswers, hstep, ?_, ?_⟩
  · exact not_not.mp fun hnot => hother ((hrequests 1 (by simp [hpending])).1.mp hnot)
  · exact (hrequests 2 (by simp [hpending])).1.mpr hanswers

/-- An array settles a request, and a response whose error is no object settles none. -/
theorem array_settles_and_malformed_error_does_not :
    let array : Json := .arr [.ofInt 1, .str "x"]
    let malformed : Json := .obj [("error", .str "boom"), ("id", .ofInt 2)]
    let actions : List Action := [.start, .request "first" .null 50, .request "second" .null 50,
      .write, .finish, .write, .finish]
    ∃ c : Connection, ({} : Connection).run? actions = some c ∧ c.isAttentive ∧ c.pending = [1, 2] ∧
      (¬ array.IsResponseTo 1 ∧ 1 ∉ (c.accept array).pending) ∧
      malformed.IsResponseTo 2 ∧ 2 ∈ (c.accept malformed).pending ∧
        (c.accept malformed).settle? 0 2 = none := by
  intro array malformed actions
  have hends : (({} : Connection).run? actions).map (fun c =>
      (c.isAttentive, c.pending, (c.accept array).pending, (c.accept malformed).pending,
        ((c.accept malformed).settle? 0 2).isNone)) =
      some (true, [1, 2], [2], [1, 2], true) := by decide +kernel
  obtain ⟨c, hrun, hfacts⟩ := Option.map_eq_some_iff.mp hends
  simp only [Prod.mk.injEq] at hfacts
  obtain ⟨hattentive, hpending, harray, hmalformed, hnone⟩ := hfacts
  refine ⟨c, hrun, hattentive, hpending, ⟨?_, ?_⟩, ⟨_, rfl, rfl, rfl⟩, ?_, ?_⟩
  · rintro ⟨members, hobject, -⟩
    change Json.arr _ = _ at hobject
    cases hobject
  · simp [harray]
  · simp [hmalformed]
  · exact Option.isNone_iff_eq_none.mp hnone

end Connection
end LanguageClient
