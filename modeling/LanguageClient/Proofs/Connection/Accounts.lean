import LanguageClient.Proofs.Connection.Ledger

/-!
# Every call gets the outcome that it has a right to

A request can wait in the queue, in the writer or for its response when the loop ends, and responses
can come twice, late or for nobody.  The ledger and the history of a connection agree at every
moment, so no call is forgotten and none gets what belongs to another one.

* `Ledger.Placed` — which requests are written and which wait for it.
* `Ledger.Called` — whose callers wait, have their outcome or have gone away.
* `Ledger.Replied` — what has reached the callers.
* `Justified` — the right outcome of a call, read off the history.
* `Ledger.Fair` — no caller has taken any other outcome.
* **`Ledger.accounts_move`** — every move keeps all of this.
-/

namespace LanguageClient

/-! ### What the history says of one call -/

/-- A call without what has reached its caller. -/
def Exchange.caller (e : Exchange) : Exchange := { e with reply? := none }

@[simp] theorem Exchange.caller_receive (e : Exchange) (reply : Reply) :
    (e.receive reply).caller = e.caller := by
  unfold receive
  split <;> rfl

/-- A reply reaches some callers and changes none. -/
theorem Exchange.map_caller_receive (p : Exchange → Prop) [DecidablePred p] (reply : Reply)
    (exchanges : List Exchange) :
    (exchanges.map fun e => if p e then e.receive reply else e).map Exchange.caller =
      exchanges.map Exchange.caller := by
  rw [List.map_map]
  refine List.map_congr_left ?_
  intro e _
  dsimp only [Function.comp]
  split
  · exact caller_receive e reply
  · rfl

theorem Exchange.eq_of_caller {e other : Exchange} (h : e.caller = other.caller) :
    e.id = other.id ∧ e.method = other.method ∧ e.deadline = other.deadline ∧
      e.state = other.state := by
  simp only [caller, Exchange.mk.injEq] at h
  exact ⟨h.1, h.2.1, h.2.2.1, h.2.2.2.2⟩

/-- The state of a call agrees with the history. -/
def Exchange.StateAgrees (e : Exchange) (history : List Deed) : Prop :=
  match e.state with
  | .waiting => history.filter (Deed.settles e.id) = []
  | .settled outcome => ∃ now, .settled now e.id outcome ∈ history
  | .forgotten => .forgot e.id ∈ history

/-- The reply that has reached a caller agrees with the history; as long as there is none, the
request is on its way. -/
def Exchange.ReplyAgrees (e : Exchange) (l : Ledger) (history : List Deed) : Prop :=
  match e.reply? with
  | none => e.id ∈ l.pending ++ l.unwritten
  | some (.response response) => answer? e.id history = some response
  | some .closed => l.isOpen = false ∧ answer? e.id history = none

/-- The right outcome of a call at a time after a history. -/
inductive Justified (history : List Deed) (now id : Nat) : Except SessionError Json → Prop
  /-- The first response to the request, if one was handled since it was written. -/
  | answered (response : Response) (h : answer? id history = some response)
      (hid : response.id = .number id) :
      Justified history now id (response.outcome.mapError .response)
  /-- Else, that the connection has ended, if it has. -/
  | closed (h : answer? id history = none) (hended : .ended ∈ history) :
      Justified history now id (.error .connectionClosed)
  /-- Else, that the time is up. -/
  | timeout (method : String) (deadline : Nat) (h : answer? id history = none)
      (hopen : .ended ∉ history) (hrequested : .requested id method deadline ∈ history)
      (hdeadline : deadline ≤ now) : Justified history now id (.error (.timeout method))

namespace Ledger

variable {l m : Ledger} {history : List Deed} {deed : Deed}

/-! ### Where requests are -/

/-- Every open request is written and waits for its response, or is not yet written. -/
structure Placed (l : Ledger) (history : List Deed) : Prop where
  nodup : (l.pending ++ l.unwritten).Nodup
  below : ∀ id ∈ l.pending ++ l.unwritten, id < l.nextId
  written : ∀ id ∈ l.pending, isWritten id history
  unwritten : ∀ id ∈ l.unwritten, isWritten id history = false
  past : ∀ id, isWritten id history → id < l.nextId
  ended : l.isOpen = false ↔ .ended ∈ history
  empty : l.isOpen = false → l.pending ++ l.unwritten = []

/-- The next number is new to the history. -/
theorem Placed.nextId_not_written (h : l.Placed history) : isWritten l.nextId history = false := by
  rw [Bool.eq_false_iff]
  intro hwritten
  exact Nat.lt_irrefl _ (h.past _ hwritten)

theorem placed_update (h : l.Placed history) (id : Nat) (f : Exchange → Exchange) :
    (l.update id f).Placed history :=
  ⟨h.nodup, h.below, h.written, h.unwritten, h.past, h.ended, h.empty⟩

/-- A deed that neither writes a request nor ends the loop moves no request. -/
theorem placed_snoc (h : l.Placed history) (hwrite : ∀ id, deed.isWriteOf id = false)
    (hend : deed ≠ .ended) : l.Placed (history ++ [deed]) := by
  have hsame : ∀ id, isWritten id (history ++ [deed]) = isWritten id history := by
    intro id
    rw [isWritten_snoc, hwrite, Bool.or_false]
  refine ⟨h.nodup, h.below, ?_, ?_, ?_, ?_, h.empty⟩
  · intro id hid
    rw [hsame]
    exact h.written id hid
  · intro id hid
    rw [hsame]
    exact h.unwritten id hid
  · intro id hid
    rw [hsame] at hid
    exact h.past id hid
  · rw [h.ended, List.mem_append, List.mem_singleton]
    exact ⟨.inl, fun hmem => hmem.resolve_right fun heq => hend heq.symm⟩

theorem placed_request (h : l.Placed history) (method : String) (deadline : Nat) :
    (l.request method deadline).Placed history := by
  cases hopen : l.isOpen with
  | false =>
      refine ⟨?_, ?_, h.written, ?_, ?_, h.ended, ?_⟩ <;> simp only [request, hopen]
      · exact h.nodup
      · intro id hid
        exact Nat.lt_succ_of_lt (h.below id hid)
      · exact h.unwritten
      · intro id hid
        exact Nat.lt_succ_of_lt (h.past id hid)
      · exact fun _ => h.empty hopen
  | true =>
      -- The new number comes to the end of those that wait to be written.
      refine ⟨?_, ?_, h.written, ?_, ?_, h.ended, ?_⟩ <;>
        simp only [request, hopen, if_true, ← List.append_assoc]
      · rw [List.nodup_append]
        refine ⟨h.nodup, by simp, ?_⟩
        intro i hi j hj hij
        rw [List.mem_singleton] at hj
        have hlt := h.below i hi
        omega
      · intro id hid
        rcases List.mem_append.mp hid with hold | hlast
        · exact Nat.lt_succ_of_lt (h.below id hold)
        · rw [List.mem_singleton] at hlast
          omega
      · intro id hid
        rcases List.mem_append.mp hid with hold | hlast
        · exact h.unwritten id hold
        · rw [List.mem_singleton] at hlast
          rw [hlast]
          exact h.nextId_not_written
      · intro id hid
        exact Nat.lt_succ_of_lt (h.past id hid)
      · intro hclosed
        cases hclosed

theorem placed_wrote (h : l.Placed history) {id : Nat} {rest : List Nat} (hopen : l.isOpen)
    (hfirst : l.unwritten = id :: rest) :
    ({ l with unwritten := rest, pending := l.pending ++ [id] } : Ledger).Placed
      (history ++ [.wrote id]) := by
  -- The same requests are on their way; one of them has gone from one list to the other.
  have hlists : l.pending ++ [id] ++ rest = l.pending ++ l.unwritten := by simp [hfirst]
  have hwrite : ∀ i, isWritten i (history ++ [.wrote id]) =
      (isWritten i history || decide (id = i)) := fun i => isWritten_snoc i history _
  have hid : id ∉ rest := by
    have hnodup := (List.nodup_append.mp h.nodup).2.1
    rw [hfirst, List.nodup_cons] at hnodup
    exact hnodup.1
  refine ⟨by rw [hlists]; exact h.nodup, by rw [hlists]; exact h.below, ?_, ?_, ?_, ?_, ?_⟩
  · intro i hi
    rw [hwrite]
    rcases List.mem_append.mp hi with hold | hlast
    · rw [h.written i hold, Bool.true_or]
    · rw [List.mem_singleton] at hlast
      simp [hlast]
  · intro i hi
    have hne : id ≠ i := fun heq => hid (heq ▸ hi)
    rw [hwrite, h.unwritten i (by rw [hfirst]; exact List.mem_cons_of_mem _ hi)]
    simp [hne]
  · intro i hi
    rw [hwrite, Bool.or_eq_true, decide_eq_true_eq] at hi
    rcases hi with hold | rfl
    · exact h.past i hold
    · exact h.below id (by simp [hfirst])
  · rw [List.mem_append, List.mem_singleton]
    refine h.ended.trans ⟨.inl, fun hmem => hmem.resolve_right ?_⟩
    simp
  · intro hclosed
    have hclosed' : l.isOpen = false := hclosed
    rw [hopen] at hclosed'
    cases hclosed'

theorem placed_erase (h : l.Placed history) (id : Nat) (hopen : l.isOpen) :
    ({ l with pending := l.pending.erase id } : Ledger).Placed history := by
  have hsub : (l.pending.erase id ++ l.unwritten).Sublist (l.pending ++ l.unwritten) :=
    List.erase_sublist.append (List.Sublist.refl _)
  refine ⟨h.nodup.sublist hsub, fun i hi => h.below i (hsub.subset hi), ?_, h.unwritten, h.past,
    h.ended, ?_⟩
  · intro i hi
    exact h.written i (List.mem_of_mem_erase hi)
  · intro hclosed
    have hclosed' : l.isOpen = false := hclosed
    rw [hopen] at hclosed'
    cases hclosed'

theorem placed_close (h : l.Placed history) : l.close.Placed (history ++ [.ended]) where
  nodup := List.nodup_nil
  below := by simp [close]
  written := by simp [close]
  unwritten := by simp [close]
  past id hid := by
    have hwrite : Deed.ended.isWriteOf id = false := rfl
    rw [isWritten_snoc, hwrite, Bool.or_false] at hid
    exact h.past id hid
  ended := by simp [close]
  empty := by simp [close]

theorem placed_move (h : l.Placed history) {deed? : Option Deed} (hm : l.Move deed? m) :
    m.Placed (history ++ deed?.toList) := by
  cases hm with
  | idle => simpa using h
  | request method deadline =>
      exact placed_snoc (placed_request h method deadline) (fun _ => rfl) (by simp)
  | settle now e outcome he houtcome =>
      exact placed_snoc (placed_update h _ _) (fun _ => rfl) (by simp)
  | forget e he hwaits => exact placed_snoc (placed_update h _ _) (fun _ => rfl) (by simp)
  | wrote id rest hopen hfirst => exact placed_wrote h hopen hfirst
  | answer id response hopen hpending hid =>
      exact placed_snoc (placed_update (placed_erase h id hopen) _ _) (fun _ => rfl) (by simp)
  | stray response hopen hid => exact placed_snoc h (fun _ => rfl) (by simp)
  | close hopen => exact placed_close h

/-! ### Callers -/

/-- Every request has one call, whose caller waits, has taken its one outcome or has gone away. -/
structure Called (l : Ledger) (history : List Deed) : Prop where
  ids : (l.exchanges.map Exchange.id).Nodup
  below : ∀ e ∈ l.exchanges, e.id < l.nextId
  made : ∀ id method deadline, .requested id method deadline ∈ history →
    ∃ e ∈ l.exchanges, e.id = id ∧ e.method = method ∧ e.deadline = deadline
  requested : ∀ e ∈ l.exchanges, .requested e.id e.method e.deadline ∈ history
  states : ∀ e ∈ l.exchanges, e.StateAgrees history
  past : ∀ id, history.filter (Deed.settles id) ≠ [] → id < l.nextId
  once : ∀ id, (history.filter (Deed.settles id)).length ≤ 1

theorem stateAgrees_of_caller {e other : Exchange} (h : e.caller = other.caller)
    (hagree : other.StateAgrees history) : e.StateAgrees history := by
  obtain ⟨hid, -, -, hstate⟩ := Exchange.eq_of_caller h
  unfold Exchange.StateAgrees at hagree ⊢
  rw [hstate, hid]
  exact hagree

theorem stateAgrees_snoc {e : Exchange} (h : e.StateAgrees history)
    (hsettle : deed.settles e.id = false) :
    e.StateAgrees (history ++ [deed]) := by
  unfold Exchange.StateAgrees at h ⊢
  split at h
  · simp [List.filter_append, h, hsettle]
  · obtain ⟨now, hmem⟩ := h
    exact ⟨now, List.mem_append_left _ hmem⟩
  · exact List.mem_append_left _ h

/-- What reaches the callers does not change who they are. -/
theorem called_of_same (h : l.Called history) (hnext : m.nextId = l.nextId)
    (hsame : m.exchanges.map Exchange.caller = l.exchanges.map Exchange.caller) :
    m.Called history := by
  -- Every call was there before, with the same caller.
  have hback : ∀ e ∈ m.exchanges, ∃ other ∈ l.exchanges, other.caller = e.caller := by
    intro e he
    have hmem := List.mem_map_of_mem (f := Exchange.caller) he
    rw [hsame] at hmem
    exact List.mem_map.mp hmem
  have hids : m.exchanges.map Exchange.id = l.exchanges.map Exchange.id := by
    have hmap := congrArg (List.map Exchange.id) hsame
    rwa [List.map_map, List.map_map] at hmap
  refine ⟨hids ▸ h.ids, ?_, ?_, ?_, ?_, hnext ▸ h.past, h.once⟩
  · intro e he
    obtain ⟨other, hother, hcaller⟩ := hback e he
    rw [hnext, ← (Exchange.eq_of_caller hcaller).1]
    exact h.below other hother
  · intro id method deadline hmade
    obtain ⟨e, he, hid, hmethod, hdeadline⟩ := h.made id method deadline hmade
    have hmem := List.mem_map_of_mem (f := Exchange.caller) he
    rw [← hsame] at hmem
    obtain ⟨other, hother, hcaller⟩ := List.mem_map.mp hmem
    obtain ⟨hid', hmethod', hdeadline', -⟩ := Exchange.eq_of_caller hcaller
    exact ⟨other, hother, hid'.trans hid, hmethod'.trans hmethod, hdeadline'.trans hdeadline⟩
  · intro e he
    obtain ⟨other, hother, hcaller⟩ := hback e he
    have hrequested := h.requested other hother
    obtain ⟨hid, hmethod, hdeadline, -⟩ := Exchange.eq_of_caller hcaller
    rwa [hid, hmethod, hdeadline] at hrequested
  · intro e he
    obtain ⟨other, hother, hcaller⟩ := hback e he
    exact stateAgrees_of_caller hcaller.symm (h.states other hother)

/-- A deed that neither makes a request nor settles one concerns no caller. -/
theorem called_snoc (h : l.Called history) (hsettle : ∀ id, deed.settles id = false)
    (hrequest : ∀ id method deadline, deed ≠ .requested id method deadline) :
    l.Called (history ++ [deed]) := by
  have hfilter : ∀ id, (history ++ [deed]).filter (Deed.settles id) =
      history.filter (Deed.settles id) := by
    intro id
    simp [List.filter_append, hsettle]
  refine ⟨h.ids, h.below, ?_, ?_, ?_, ?_, ?_⟩
  · intro id method deadline hmade
    rcases List.mem_append.mp hmade with hold | hlast
    · exact h.made id method deadline hold
    · rw [List.mem_singleton] at hlast
      exact absurd hlast.symm (hrequest id method deadline)
  · intro e he
    exact List.mem_append_left _ (h.requested e he)
  · intro e he
    exact stateAgrees_snoc (h.states e he) (hsettle e.id)
  · intro id hid
    rw [hfilter] at hid
    exact h.past id hid
  · intro id
    rw [hfilter]
    exact h.once id

theorem called_request (h : l.Called history) (method : String) (deadline : Nat) :
    (l.request method deadline).Called (history ++ [.requested l.nextId method deadline]) := by
  have hfilter : ∀ id, (history ++ [Deed.requested l.nextId method deadline]).filter
      (Deed.settles id) = history.filter (Deed.settles id) := by
    intro id
    simp [List.filter_append, Deed.settles]
  refine ⟨?_, ?_, ?_, ?_, ?_, ?_, ?_⟩
  · simp only [request, List.map_append, List.map_cons, List.map_nil]
    rw [List.nodup_append]
    refine ⟨h.ids, by simp, ?_⟩
    intro i hi j hj hij
    obtain ⟨e, he, rfl⟩ := List.mem_map.mp hi
    rw [List.mem_singleton] at hj
    have hlt := h.below e he
    omega
  · intro e he
    rcases List.mem_append.mp he with hold | hlast
    · exact Nat.lt_succ_of_lt (h.below e hold)
    · rw [List.mem_singleton] at hlast
      rw [hlast]
      exact Nat.lt_succ_self _
  · intro id method' deadline' hmade
    rcases List.mem_append.mp hmade with hold | hlast
    · obtain ⟨e, he, hsame⟩ := h.made id method' deadline' hold
      exact ⟨e, List.mem_append_left _ he, hsame⟩
    · rw [List.mem_singleton, Deed.requested.injEq] at hlast
      obtain ⟨rfl, rfl, rfl⟩ := hlast
      exact ⟨_, List.mem_append_right _ (List.mem_singleton.mpr rfl), rfl, rfl, rfl⟩
  · intro e he
    rcases List.mem_append.mp he with hold | hlast
    · exact List.mem_append_left _ (h.requested e hold)
    · rw [List.mem_singleton] at hlast
      rw [hlast]
      exact List.mem_append_right _ (List.mem_singleton.mpr rfl)
  · intro e he
    rcases List.mem_append.mp he with hold | hlast
    · exact stateAgrees_snoc (h.states e hold) rfl
    · -- Nobody has settled a request that has just been made.
      rw [List.mem_singleton] at hlast
      have hnone : history.filter (Deed.settles l.nextId) = [] := by
        refine Decidable.byContradiction fun hsome => ?_
        exact Nat.lt_irrefl _ (h.past l.nextId hsome)
      rw [hlast]
      exact (hfilter l.nextId).trans hnone
  · intro id hid
    rw [hfilter] at hid
    exact Nat.lt_succ_of_lt (h.past id hid)
  · intro id
    rw [hfilter]
    exact h.once id

/-- A call changes its state, and the deed tells so. -/
theorem called_update (h : l.Called history) {e : Exchange} (he : e ∈ l.exchanges)
    {f : Exchange → Exchange} (hf : ∀ e, (f e).id = e.id ∧ (f e).method = e.method ∧
      (f e).deadline = e.deadline)
    (hrequest : ∀ id method deadline, deed ≠ .requested id method deadline)
    (hothers : ∀ id, id ≠ e.id → deed.settles id = false)
    (hself : ∀ other ∈ l.exchanges, other.id = e.id → (f other).StateAgrees (history ++ [deed]))
    (honce : ((history ++ [deed]).filter (Deed.settles e.id)).length ≤ 1) :
    (l.update e.id f).Called (history ++ [deed]) := by
  -- Every call was there before, and either its state is told by the deed or it has not changed.
  have hback : ∀ e' ∈ (l.update e.id f).exchanges, ∃ other ∈ l.exchanges,
      e'.id = other.id ∧ e'.method = other.method ∧ e'.deadline = other.deadline ∧
        e'.StateAgrees (history ++ [deed]) := by
    intro e' he'
    obtain ⟨other, hother, rfl⟩ := List.mem_map.mp he'
    refine ⟨other, hother, ?_⟩
    split
    · rename_i hid
      obtain ⟨hfid, hfmethod, hfdeadline⟩ := hf other
      exact ⟨hfid, hfmethod, hfdeadline, hself other hother hid⟩
    · rename_i hid
      exact ⟨rfl, rfl, rfl, stateAgrees_snoc (h.states other hother) (hothers other.id hid)⟩
  have hids : (l.update e.id f).exchanges.map Exchange.id = l.exchanges.map Exchange.id := by
    simp only [update, List.map_map]
    refine List.map_congr_left ?_
    intro other _
    dsimp only [Function.comp]
    split
    · exact (hf other).1
    · rfl
  refine ⟨hids ▸ h.ids, ?_, ?_, ?_, ?_, ?_, ?_⟩
  · intro e' he'
    obtain ⟨other, hother, hid, -⟩ := hback e' he'
    rw [hid]
    exact h.below other hother
  · intro id method deadline hmade
    rcases List.mem_append.mp hmade with hold | hlast
    · obtain ⟨other, hother, hid, hmethod, hdeadline⟩ := h.made id method deadline hold
      refine ⟨_, List.mem_map_of_mem hother, ?_⟩
      split
      · obtain ⟨hfid, hfmethod, hfdeadline⟩ := hf other
        exact ⟨hfid.trans hid, hfmethod.trans hmethod, hfdeadline.trans hdeadline⟩
      · exact ⟨hid, hmethod, hdeadline⟩
    · rw [List.mem_singleton] at hlast
      exact absurd hlast.symm (hrequest id method deadline)
  · intro e' he'
    obtain ⟨other, hother, hid, hmethod, hdeadline, -⟩ := hback e' he'
    rw [hid, hmethod, hdeadline]
    exact List.mem_append_left _ (h.requested other hother)
  · intro e' he'
    obtain ⟨other, hother, -, -, -, hagree⟩ := hback e' he'
    exact hagree
  · intro id hid
    by_cases hself' : id = e.id
    · rw [hself']
      exact h.below e he
    · have hfilter : (history ++ [deed]).filter (Deed.settles id) =
          history.filter (Deed.settles id) := by simp [List.filter_append, hothers id hself']
      rw [hfilter] at hid
      exact h.past id hid
  · intro id
    by_cases hself' : id = e.id
    · rw [hself']
      exact honce
    · simp only [List.filter_append, List.filter_cons, hothers id hself']
      simpa using h.once id

theorem isWaiting_of_outcome? {now : Nat} {e : Exchange} {outcome : Except SessionError Json}
    (h : Connection.outcome? now e = some outcome) : e.isWaiting := by
  unfold Exchange.isWaiting
  cases hstate : e.state with
  | waiting => rfl
  | _ => simp [Connection.outcome?, hstate] at h

theorem not_settled_of_isWaiting {e : Exchange} (h : e.StateAgrees history) (hwaits : e.isWaiting) :
    history.filter (Deed.settles e.id) = [] := by
  unfold Exchange.StateAgrees at h
  unfold Exchange.isWaiting at hwaits
  split at h
  · exact h
  · rename_i hstate
    simp [hstate] at hwaits
  · rename_i hstate
    simp [hstate] at hwaits

theorem called_move (h : l.Called history) {deed? : Option Deed} (hm : l.Move deed? m) :
    m.Called (history ++ deed?.toList) := by
  cases hm with
  | idle => simpa using h
  | request method deadline => exact called_request h method deadline
  | settle now e outcome he houtcome =>
      -- Its caller waited until now, so this is its first outcome.
      have hnone := not_settled_of_isWaiting (h.states e he) (isWaiting_of_outcome? houtcome)
      refine called_update h he (fun _ => ⟨rfl, rfl, rfl⟩) (by simp) ?_ ?_ ?_
      · intro id hid
        simpa [Deed.settles] using Ne.symm hid
      · intro other hother hid
        exact ⟨now, List.mem_append_right _ (by simp [Exchange.settle, hid])⟩
      · simp [List.filter_append, hnone, Deed.settles]
  | forget e he hwaits =>
      have hfields : ∀ e : Exchange, e.forget.id = e.id ∧ e.forget.method = e.method ∧
          e.forget.deadline = e.deadline := by
        intro e
        unfold Exchange.forget
        split <;> exact ⟨rfl, rfl, rfl⟩
      have hfilter : ∀ id, (history ++ [Deed.forgot e.id]).filter (Deed.settles id) =
          history.filter (Deed.settles id) := fun id => by simp [List.filter_append, Deed.settles]
      refine called_update h he hfields (by simp) (fun _ _ => rfl) ?_ ?_
      · intro other hother hid
        by_cases hother' : other.isWaiting
        · have hstate : other.forget = { other with state := .forgotten } := by
            unfold Exchange.forget
            unfold Exchange.isWaiting at hother'
            split at hother' <;> simp_all
          rw [hstate]
          exact List.mem_append_right _ (by simp [hid])
        · rw [Exchange.forget_of_not_waiting (by simpa using hother')]
          exact stateAgrees_snoc (h.states other hother) rfl
      · rw [hfilter]
        exact h.once e.id
  | wrote id rest hopen hfirst =>
      exact called_snoc (called_of_same h rfl rfl) (fun _ => rfl) (by simp)
  | answer id response hopen hpending hid =>
      have hsame := Exchange.map_caller_receive (·.id = id) (.response response) l.exchanges
      exact called_snoc (called_of_same h rfl hsame) (fun _ => rfl) (by simp)
  | stray response hopen hid => exact called_snoc h (fun _ => rfl) (by simp)
  | close hopen =>
      have hsame := Exchange.map_caller_receive (·.id ∈ l.pending ++ l.unwritten) .closed l.exchanges
      exact called_snoc (called_of_same h rfl hsame) (fun _ => rfl) (by simp)

/-! ### Replies -/

/-- A written request waits until it is answered, and every caller has been told the answer. -/
structure Replied (l : Ledger) (history : List Deed) : Prop where
  pending : ∀ id ∈ l.pending, answer? id history = none
  agrees : ∀ e ∈ l.exchanges, e.ReplyAgrees l history

/-- A request that is on its way has not been answered. -/
theorem answer?_of_open (h : l.Replied history) (hp : l.Placed history) {id : Nat}
    (hid : id ∈ l.pending ++ l.unwritten) : answer? id history = none := by
  rcases List.mem_append.mp hid with hpending | hunwritten
  · exact h.pending id hpending
  · exact answer?_of_not_written (hp.unwritten id hunwritten)

/-- What has reached the callers stays, and so do the requests on their way. -/
theorem replyAgrees_snoc {e : Exchange} (h : e.ReplyAgrees l history)
    (hother : deed.responseTo? e.id = none)
    (hopen : e.id ∈ l.pending ++ l.unwritten → e.id ∈ m.pending ++ m.unwritten)
    (hclosed : l.isOpen = false → m.isOpen = false) : e.ReplyAgrees m (history ++ [deed]) := by
  unfold Exchange.ReplyAgrees at h ⊢
  split at h
  · exact hopen h
  · exact answer?_keeps h
  · obtain ⟨hl, hnone⟩ := h
    exact ⟨hclosed hl, (answer?_snoc_of_other hother).trans hnone⟩

/-- As long as the loop goes on, nobody has been told that it has ended. -/
theorem replyAgrees_snoc_of_open {e : Exchange} (h : e.ReplyAgrees l history) (hl : l.isOpen)
    (hopen : e.id ∈ l.pending ++ l.unwritten → e.id ∈ m.pending ++ m.unwritten) :
    e.ReplyAgrees m (history ++ [deed]) := by
  unfold Exchange.ReplyAgrees at h ⊢
  split at h
  · exact hopen h
  · exact answer?_keeps h
  · rw [hl] at h
    cases h.1

theorem replied_request (h : l.Replied history) (hp : l.Placed history) (method : String)
    (deadline : Nat) :
    (l.request method deadline).Replied (history ++ [.requested l.nextId method deadline]) where
  pending id hid := (answer?_snoc_of_other rfl).trans (h.pending id hid)
  agrees e he := by
    rcases List.mem_append.mp he with hold | hlast
    · refine replyAgrees_snoc (h.agrees e hold) rfl ?_ id
      intro hid
      cases hopen : l.isOpen with
      | false => simpa [request, hopen] using hid
      | true =>
          simp only [request, hopen, if_true, ← List.append_assoc]
          exact List.mem_append_left _ hid
    · rw [List.mem_singleton] at hlast
      subst hlast
      cases hopen : l.isOpen with
      | true => simp [Exchange.ReplyAgrees, request, hopen]
      | false =>
          -- The call is told of the end at once, and no response can have been for it.
          have hnone : answer? l.nextId
              (history ++ [Deed.requested l.nextId method deadline]) = none :=
            (answer?_snoc_of_other rfl).trans (answer?_of_not_written hp.nextId_not_written)
          simp [Exchange.ReplyAgrees, request, hopen, hnone]

/-- The state of a call is no matter of the replies. -/
theorem replied_update (h : l.Replied history) (id : Nat) {f : Exchange → Exchange}
    (hf : ∀ e, (f e).id = e.id ∧ (f e).reply? = e.reply?)
    (hother : ∀ id, deed.responseTo? id = none) : (l.update id f).Replied (history ++ [deed]) where
  pending i hi := (answer?_snoc_of_other (hother i)).trans (h.pending i hi)
  agrees e he := by
    obtain ⟨other, hmem, rfl⟩ := List.mem_map.mp he
    have hagrees : other.ReplyAgrees (l.update id f) (history ++ [deed]) :=
      replyAgrees_snoc (h.agrees other hmem) (hother other.id) (fun hi => hi) fun hl => hl
    split
    · obtain ⟨hid, hreply⟩ := hf other
      unfold Exchange.ReplyAgrees at hagrees ⊢
      rwa [hid, hreply]
    · exact hagrees

theorem replied_wrote (h : l.Replied history) (hp : l.Placed history) {id : Nat} {rest : List Nat}
    (hopen : l.isOpen) (hfirst : l.unwritten = id :: rest) :
    ({ l with unwritten := rest, pending := l.pending ++ [id] } : Ledger).Replied
      (history ++ [.wrote id]) where
  pending i hi := by
    have hon : i ∈ l.pending ++ l.unwritten := by
      rw [hfirst]
      simp only [List.mem_append, List.mem_cons, List.not_mem_nil] at hi ⊢
      grind
    exact (answer?_snoc_of_other rfl).trans (answer?_of_open h hp hon)
  agrees e he := by
    refine replyAgrees_snoc_of_open (h.agrees e he) hopen ?_
    intro hid
    simpa [hfirst] using hid

/-- The first response to a written request reaches its caller, and nobody else. -/
theorem replied_answer (h : l.Replied history) (hp : l.Placed history) {id : Nat}
    {response : Response} (hopen : l.isOpen) (hpending : id ∈ l.pending)
    (hid : response.id = .number id) :
    ({ l with pending := l.pending.erase id }.update id
      (·.receive (.response response))).Replied (history ++ [Deed.handled response]) where
  pending i hi := by
    have hnodup : l.pending.Nodup := (List.nodup_append.mp hp.nodup).1
    have hmem : i ∈ l.pending.erase id := hi
    obtain ⟨hne, hi'⟩ := hnodup.mem_erase_iff.mp hmem
    have hother : Deed.responseTo? i (.handled response) = none := by
      have hnot : response.id ≠ .number i := by
        rw [hid]
        intro heq
        injection heq with heq
        exact hne (by omega)
      simp [Deed.responseTo?, hnot]
    exact (answer?_snoc_of_other hother).trans (h.pending i hi')
  agrees e he := by
    obtain ⟨other, hmem, rfl⟩ := List.mem_map.mp he
    have hagrees := h.agrees other hmem
    split
    · -- The call itself: its request was pending, so nothing has reached it before.
      rename_i hsame
      subst hsame
      have hnone := h.pending other.id hpending
      have hanswer : answer? other.id (history ++ [Deed.handled response]) = some response := by
        rw [answer?_snoc (hp.written other.id hpending), hnone]
        simp [Deed.responseTo?, hid]
      unfold Exchange.ReplyAgrees at hagrees
      split at hagrees
      · rename_i hreply
        simp [Exchange.ReplyAgrees, Exchange.receive, hreply, hanswer]
      · rw [hnone] at hagrees
        cases hagrees
      · rw [hopen] at hagrees
        cases hagrees.1
    · -- Another call: its request stays where it is.
      rename_i hne
      refine replyAgrees_snoc_of_open hagrees hopen ?_
      intro hon
      rcases List.mem_append.mp hon with hold | hunwritten
      · exact List.mem_append_left _ ((List.mem_erase_of_ne hne).mpr hold)
      · exact List.mem_append_right _ hunwritten

/-- The end of the loop reaches every caller whose request is on its way. -/
theorem replied_close (h : l.Replied history) (hp : l.Placed history) (hopen : l.isOpen) :
    l.close.Replied (history ++ [.ended]) where
  pending := by simp [close]
  agrees e he := by
    obtain ⟨other, hmem, rfl⟩ := List.mem_map.mp he
    have hagrees := h.agrees other hmem
    unfold Exchange.ReplyAgrees at hagrees
    split at hagrees
    · -- Its request was on its way, so there was no response to it.
      rename_i hreply
      have hother : Deed.ended.responseTo? other.id = none := rfl
      have hnone := (answer?_snoc_of_other hother).trans (answer?_of_open h hp hagrees)
      rw [if_pos hagrees]
      simp [Exchange.ReplyAgrees, Exchange.receive, hreply, close, hnone]
    · -- A response that has reached it stays.
      rename_i response hreply
      have hsame : other.receive .closed = other := by simp [Exchange.receive, hreply]
      rw [hsame, ite_self]
      simp only [Exchange.ReplyAgrees, hreply]
      exact answer?_keeps hagrees
    · rw [hopen] at hagrees
      cases hagrees.1

theorem replied_move (h : l.Replied history) (hp : l.Placed history) {deed? : Option Deed}
    (hm : l.Move deed? m) : m.Replied (history ++ deed?.toList) := by
  cases hm with
  | idle => simpa using h
  | request method deadline => exact replied_request h hp method deadline
  | settle now e outcome he houtcome =>
      exact replied_update h e.id (fun _ => ⟨rfl, rfl⟩) fun _ => rfl
  | forget e he hwaits =>
      refine replied_update h e.id ?_ fun _ => rfl
      intro e
      unfold Exchange.forget
      split <;> exact ⟨rfl, rfl⟩
  | wrote id rest hopen hfirst => exact replied_wrote h hp hopen hfirst
  | answer id response hopen hpending hid => exact replied_answer h hp hopen hpending hid
  | stray response hopen hid =>
      refine ⟨?_, fun e he => replyAgrees_snoc_of_open (h.agrees e he) hopen fun hi => hi⟩
      intro i hi
      have hother : Deed.responseTo? i (.handled response) = none := by
        simp [Deed.responseTo?, hid i hi]
      exact (answer?_snoc_of_other hother).trans (h.pending i hi)
  | close hopen => exact replied_close h hp hopen

/-! ### Outcomes -/

/-- Every outcome that a caller has taken was the right one at that time. -/
def Fair (history : List Deed) : Prop :=
  ∀ before now id outcome after, history = before ++ .settled now id outcome :: after →
    Justified before now id outcome

/-- All that the ledger and the history of a connection have in common. -/
structure Accounts (l : Ledger) (history : List Deed) : Prop where
  placed : l.Placed history
  called : l.Called history
  replied : l.Replied history
  fair : Fair history

theorem justified_of_outcome? (h : l.Accounts history) {now : Nat} {e : Exchange}
    {outcome : Except SessionError Json} (he : e ∈ l.exchanges)
    (houtcome : Connection.outcome? now e = some outcome) : Justified history now e.id outcome := by
  have hagrees := h.replied.agrees e he
  unfold Exchange.ReplyAgrees at hagrees
  unfold Connection.outcome? at houtcome
  split at houtcome
  · split at hagrees
    · rename_i hreply
      rw [hreply] at houtcome
      dsimp only at houtcome
      split at houtcome
      · rename_i hdeadline
        cases houtcome
        refine .timeout e.method e.deadline (answer?_of_open h.replied h.placed hagrees) ?_
          (h.called.requested e he) hdeadline
        -- Had the loop ended, no request would be on its way.
        intro hended
        rw [h.placed.empty (h.placed.ended.mpr hended)] at hagrees
        cases hagrees
      · cases houtcome
    · rename_i response hreply
      rw [hreply] at houtcome
      cases houtcome
      exact .answered response hagrees (id_of_answer? hagrees)
    · rename_i hreply
      rw [hreply] at houtcome
      cases houtcome
      exact .closed hagrees.2 (h.placed.ended.mp hagrees.1)
  · cases houtcome

theorem fair_snoc (h : Fair history)
    (hlast : ∀ now id outcome, deed = .settled now id outcome → Justified history now id outcome) :
    Fair (history ++ [deed]) := by
  intro before now id outcome after hsplit
  -- The outcome was taken by the last deed or by one before it.
  rcases List.eq_nil_or_concat after with rfl | ⟨rest, last, rfl⟩
  · obtain ⟨rfl, heq⟩ := List.append_inj' hsplit rfl
    injection heq with hdeed
    exact hlast now id outcome hdeed
  · rw [List.concat_eq_append, ← List.cons_append, ← List.append_assoc] at hsplit
    obtain ⟨rfl, -⟩ := List.append_inj' hsplit rfl
    exact h before now id outcome rest rfl

theorem accounts_move (h : l.Accounts history) {deed? : Option Deed} (hm : l.Move deed? m) :
    m.Accounts (history ++ deed?.toList) where
  placed := placed_move h.placed hm
  called := called_move h.called hm
  replied := replied_move h.replied h.placed hm
  fair := by
    cases hm with
    | idle => simpa using h.fair
    | settle now e outcome he houtcome =>
        refine fair_snoc h.fair ?_
        intro now' id outcome' heq
        cases heq
        exact justified_of_outcome? h he houtcome
    | _ => exact fair_snoc h.fair (by simp)

theorem accounts_empty : ({} : Connection).ledger.Accounts [] where
  placed := ⟨List.nodup_nil, by simp [Connection.ledger, Connection.unwrittenIds],
    by simp [Connection.ledger], by simp [Connection.ledger, Connection.unwrittenIds],
    by simp [isWritten], by simp [Connection.ledger, Connection.isOpen],
    by simp [Connection.ledger, Connection.unwrittenIds]⟩
  called := ⟨List.nodup_nil, by simp [Connection.ledger], by simp, by simp [Connection.ledger],
    by simp [Connection.ledger], by simp, by simp⟩
  replied := ⟨by simp [Connection.ledger], by simp [Connection.ledger]⟩
  fair := by simp [Fair]

end Ledger

end LanguageClient
