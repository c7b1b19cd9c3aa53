import LanguageClient.Proofs.Session.Commute

/-!
# First come, first served

Calls have their turns in the order in which they asked for the lock.  Those that have asked and not
yet had their turn form the queue: the line of the lock without the call that has its turn and
without those that only want to look again.

* `Life.queue` — who waits for a turn.
* `Client.asks?` — the call that asks for the lock by an event.
* `Life.KeepsOthersInLine` — one call goes on, and the order of the others in line is kept.
* **`Client.queue_step`** — who asks comes to the end of the queue, and whose turn begins in the view
  has stood at its head.
-/

namespace LanguageClient

/-- Whether a call waits for its turn. -/
def Phase.isQueued : Phase → Bool
  | queued => true
  | _ => false

theorem Phase.not_isQueued_of_isTurn {phase : Phase} (h : phase.isTurn) :
    phase.isQueued = false := by
  cases phase with
  | queued => cases h
  | _ => rfl

theorem Phase.not_isQueued_of_isInLine {phase : Phase} (h : phase.isInLine = false) :
    phase.isQueued = false := by
  cases phase with
  | queued => cases h
  | _ => rfl

namespace Life

variable {l m : Life} {k : Nat} {call : Call}

/-! ### The queue -/

/-- Who waits for a turn, the first one first. -/
def queue (l : Life) : List Nat :=
  l.lock.line.filter fun k => l.calls[k]?.any fun call => call.phase.isQueued

theorem queue_tidy (l : Life) : l.tidy.queue = l.queue := by
  unfold tidy
  split <;> rfl

theorem not_mem_queue (hcall : l.calls[k]? = some call) (hphase : call.phase.isQueued = false) :
    k ∉ l.queue := by simp [queue, hcall, hphase]

/-- When the lock is free, nobody waits. -/
theorem queue_of_free (h : l.lock.Orderly) (hfree : l.lock.isFree) : l.queue = [] := by
  simp [queue, Lock.line_eq_nil h hfree]

/-- The holder of the lock stands at the head of the queue when it waits for its turn. -/
theorem queue_of_holder? (h : l.lock.Orderly) (hholder : l.lock.holder? = some k)
    (hcall : l.calls[k]? = some call) (hphase : call.phase.isQueued) :
    l.queue = k :: l.queue.filter (· ≠ k) := by
  have hline : l.lock.line = k :: l.lock.waiting := by simp [Lock.line, hholder]
  have hk : k ∉ l.lock.waiting := by
    have hnodup := h.nodup
    rw [hline, List.nodup_cons] at hnodup
    exact hnodup.1
  have hrest : (l.lock.waiting.filter fun i =>
      l.calls[i]?.any fun call => call.phase.isQueued).filter (· ≠ k) =
      l.lock.waiting.filter fun i => l.calls[i]?.any fun call => call.phase.isQueued := by
    refine List.filter_eq_self.mpr ?_
    intro i hi
    have hmem := (List.mem_filter.mp hi).1
    simpa using fun hik : i = k => hk (hik ▸ hmem)
  have hqueue : l.queue = k :: l.lock.waiting.filter fun i =>
      l.calls[i]?.any fun call => call.phase.isQueued := by
    unfold queue
    rw [hline, List.filter_cons_of_pos (by simp [hcall, hphase])]
  rw [hqueue, List.filter_cons_of_neg (by simp), hrest]

/-- Who asks for a turn and waits comes to the end of the queue. -/
theorem queue_enqueue (h : l.Orderly) (hcall : l.calls[k]? = some call)
    (hline : call.phase.isInLine = false) : (l.enqueue k .queued).queue = l.queue ++ [k] := by
  have hk := not_mem_line h hcall hline
  have hself := getElem?_setPhase_self hcall .queued
  have hlock : (l.enqueue k .queued).lock.line = l.lock.line ++ [k] := Lock.line_acquire h.lock k
  have hcalls : (l.enqueue k .queued).calls = (l.setPhase k .queued).calls := rfl
  unfold queue
  rw [hlock, hcalls, List.filter_append]
  congr 1
  · refine List.filter_congr ?_
    intro i hi
    have hne : k ≠ i := fun hki => hk (hki ▸ hi)
    rw [getElem?_setPhase_ne l hne]
  · simp [hself, Phase.isQueued]

/-! ### One call goes on -/

/-- A call comes to a phase in which it does not wait for a turn, and the others in line keep their
order. -/
structure KeepsOthersInLine (l : Life) (k : Nat) (m : Life) : Prop where
  calls : ∃ phase : Phase, phase.isQueued = false ∧ m.calls = (l.setPhase k phase).calls
  line : m.lock.line.filter (· ≠ k) = l.lock.line.filter (· ≠ k)

theorem keepsOthersInLine_setPhase (l : Life) (k : Nat) {phase : Phase}
    (hphase : phase.isQueued = false) :
    l.KeepsOthersInLine k (l.setPhase k phase) := ⟨⟨phase, hphase, rfl⟩, rfl⟩

theorem line_leave_filter (h : l.lock.Orderly) (k : Nat) :
    (l.lock.leave k).line.filter (· ≠ k) = l.lock.line.filter (· ≠ k) := by
  rw [Lock.line_leave h, List.filter_filter]
  simp

theorem line_acquire_filter (h : l.lock.Orderly) (k : Nat) :
    (l.lock.acquire k).line.filter (· ≠ k) = l.lock.line.filter (· ≠ k) := by
  rw [Lock.line_acquire h, List.filter_append]
  simp

theorem keepsOthersInLine_leave (h : l.lock.Orderly) (k : Nat) {phase : Phase}
    (hphase : phase.isQueued = false) : l.KeepsOthersInLine k (l.leave k phase) :=
  ⟨⟨phase, hphase, rfl⟩, line_leave_filter h k⟩

theorem keepsOthersInLine_proceed (h : l.lock.Orderly) (k : Nat) (t : Course) (operation : Operation)
    {next : Next} (hnext : t.MatchesNext next) :
    l.KeepsOthersInLine k ({ l with course := t }.proceed k operation next) := by
  cases next with
  | waits phase =>
      have hphase := Phase.not_isQueued_of_isTurn (hnext.waits phase rfl).turn
      exact ⟨⟨phase, hphase, rfl⟩, rfl⟩
  | ends outcome =>
      exact ⟨⟨.finished (operation.concluded outcome), rfl, rfl⟩, line_leave_filter h k⟩

/-- What the call does after it has left the line or joined it does not matter to the others. -/
theorem keepsOthersInLine_of_lock {lock : Lock}
    (hline : lock.line.filter (· ≠ k) = l.lock.line.filter (· ≠ k))
    (hm : ({ l with lock } : Life).KeepsOthersInLine k m) : l.KeepsOthersInLine k m :=
  ⟨hm.calls, hm.line.trans hline⟩

/-- The queue loses nobody but the call that goes on, and keeps its order. -/
theorem KeepsOthersInLine.queue (h : l.KeepsOthersInLine k m) : m.queue = l.queue.filter (· ≠ k) := by
  obtain ⟨phase, hphase, hcalls⟩ := h.calls
  -- Whether another call waits has not changed, and the one that goes on does not wait.
  have hwaits : ∀ i, (m.calls[i]?.any fun call => call.phase.isQueued) =
      (decide (i ≠ k) && l.calls[i]?.any fun call => call.phase.isQueued) := by
    intro i
    rw [hcalls]
    by_cases hi : k = i
    · subst hi
      cases hcall : l.calls[k]? with
      | none => simp [setPhase, hcall]
      | some call => simp [setPhase, hcall, hphase]
    · rw [getElem?_setPhase_ne l hi]
      simp [Ne.symm hi]
  unfold Life.queue
  have hm : (fun i => m.calls[i]?.any fun call => call.phase.isQueued) =
      fun i => (l.calls[i]?.any fun call => call.phase.isQueued) && decide (i ≠ k) := by
    funext i
    rw [hwaits, Bool.and_comm]
  rw [hm, ← List.filter_filter, h.line, List.filter_filter, List.filter_filter]
  congr 1
  funext i
  rw [Bool.and_comm]

end Life

namespace Client

variable {c d : Client} {k : Nat} {call : Call}

theorem keepsOthersInLine_look (h : c.lock.Orderly) (k : Nat) :
    c.life.KeepsOthersInLine k (c.look k).life := by
  rcases life_look c k with ⟨phase, hphase, hlife⟩ | hlife
  · rw [hlife]
    exact Life.keepsOthersInLine_setPhase c.life k (Phase.not_isQueued_of_isInLine hphase)
  · rw [hlife]
    exact ⟨⟨.peeking, rfl, rfl⟩, Life.line_acquire_filter (l := c.life) h k⟩

theorem keepsOthersInLine_askSession (c : Client) (k : Nat) (method : String) (params : Json)
    (goal : RequestGoal) : c.life.KeepsOthersInLine k (c.askSession k method params goal).life := by
  obtain ⟨phase, hphase, hlife⟩ := life_askSession c k method params goal
  rw [hlife]
  exact Life.keepsOthersInLine_setPhase c.life k (Phase.not_isQueued_of_isInLine hphase)

theorem keepsOthersInLine_proceed {part : Client → Client × Next} (hpart : IsLocal part)
    (h : c.lock.Orderly) (hcall : c.calls[k]? = some call)
    (hfits : (part c).1.course.MatchesNext (part c).2) :
    c.life.KeepsOthersInLine k (proceed k (part c)).life := by
  rw [life_proceed hpart hcall]
  exact Life.keepsOthersInLine_proceed (l := c.life) h k _ _ hfits

theorem keepsOthersInLine_beginTurn (h : c.lock.Orderly) (howns : c.course.Owns)
    (hcall : c.calls[k]? = some call) (operation : Operation) :
    c.life.KeepsOthersInLine k (proceed k (c.beginTurn operation)).life :=
  keepsOthersInLine_proceed (local_beginTurn operation) h hcall
    (Course.matchesNext_begins howns (begins_beginTurn c operation))

/-- A call that has not begun asks for a turn while the lock is free. -/
theorem keepsOthersInLine_askTurn (h : c.life.Orderly) (hcall : c.calls[k]? = some call)
    (hphase : call.phase = .fresh) (hfree : c.lock.isFree) (operation : Operation) :
    c.life.KeepsOthersInLine k (c.askTurn k operation).life := by
  have hk := Life.not_mem_line h hcall (by rw [hphase]; rfl)
  have hline := Life.line_acquire_filter (l := c.life) h.lock k
  rw [askTurn_of_free hfree]
  exact Life.keepsOthersInLine_of_lock hline
    (keepsOthersInLine_beginTurn (c := { c with lock := c.lock.acquire k })
    (Lock.orderly_acquire h.lock hk) h.owns hcall operation)

theorem keepsOthersInLine_beginCall (h : c.life.Orderly) (hp : c.Plain)
    (hcall : c.calls[k]? = some call)
    (hphase : call.phase = .fresh) (hfree : call.operation.takesTurn → c.lock.isFree) :
    c.life.KeepsOthersInLine k (c.beginCall k call.operation).life := by
  have hplain := (hp k call hcall).plain
  cases hop : call.operation with
  | start => exact keepsOthersInLine_askTurn h hcall hphase (hfree (by rw [hop]; rfl)) .start
  | stop => exact keepsOthersInLine_askTurn h hcall hphase (hfree (by rw [hop]; rfl)) .stop
  | restart => exact keepsOthersInLine_askTurn h hcall hphase (hfree (by rw [hop]; rfl)) .restart
  | activate => rw [hop] at hplain; cases hplain
  | command id args reported => rw [hop] at hplain; cases hplain
  | ready => exact keepsOthersInLine_look h.lock k
  | request method params shape => exact keepsOthersInLine_askSession c k _ _ _
  | showVirtualFile source => exact keepsOthersInLine_askSession c k _ _ _
  | relay g method params =>
      simp only [beginCall]
      split
      · obtain ⟨id, hlife⟩ := life_ask c k g method params .relay
        rw [hlife]
        exact Life.keepsOthersInLine_setPhase c.life k rfl
      · exact Life.keepsOthersInLine_setPhase c.life k rfl

/-- A call that goes on keeps the order of the others, unless it asks for a lock that is held. -/
theorem keepsOthersInLine_goOn (h : c.life.Orderly) (hp : c.Plain) (hcall : c.calls[k]? = some call)
    (hcan : c.canGoOn k call.phase)
    (hfree : call.phase = .fresh → call.operation.takesTurn → c.lock.isFree) :
    c.life.KeepsOthersInLine k (c.goOn k call.operation call.phase).life := by
  by_cases hturn : call.phase.isTurn
  · obtain ⟨part, hpart, hgo⟩ := exists_isPart k call.operation hturn
    rw [hgo]
    exact keepsOthersInLine_proceed hpart.isLocal h.lock hcall (matchesNext_part h hcall hturn hpart)
  cases hphase : call.phase with
  | fresh => exact keepsOthersInLine_beginCall h hp hcall hphase (hfree hphase)
  | queued => exact keepsOthersInLine_beginTurn h.lock h.owns hcall call.operation
  | watching seen => exact keepsOthersInLine_look h.lock k
  | peeking =>
      have hlock := Lock.orderly_leave h.lock k
      exact Life.keepsOthersInLine_of_lock (Life.line_leave_filter (l := c.life) h.lock k)
        (keepsOthersInLine_look (c := { c with lock := c.lock.leave k }) hlock k)
  | awaiting g id goal =>
      have hsettle : (c.settle? g id).isSome := by simpa [hphase, canGoOn] using hcan
      obtain ⟨⟨d, reply⟩, hsettle⟩ := Option.isSome_iff_exists.mp hsettle
      obtain ⟨outcome, hlife⟩ := life_useReply d k reply goal
      have hafter : c.afterReply k g id goal = d.useReply k reply goal := by
        unfold afterReply
        rw [hsettle]
      simp only [goOn]
      rw [hafter, hlife, life_settle? hsettle]
      exact Life.keepsOthersInLine_setPhase c.life k rfl
  | finished outcome => simp [hphase, canGoOn] at hcan
  | dropped => simp [hphase, canGoOn] at hcan
  | reaping g deadline error? =>
      exact absurd (by rw [hphase]; exact Phase.isTurn_reaping g deadline error?) hturn
  | _ => exact absurd (by rw [hphase]; rfl) hturn

/-! ### Asking -/

/-- The call that asks for a turn by an event. -/
def asks? (c : Client) : Event → Option Nat
  | .poll k =>
      if c.calls[k]?.any fun call => !call.phase.hasBegun && call.operation.takesTurn then some k
      else none
  | _ => none

/-- Whether an event is that the caller of a call goes away that waits for its turn or has it. -/
def dropsPlace (c : Client) : Event → Bool
  | .cancel k => c.calls[k]?.any fun call => call.phase.isQueued || call.phase.isTurn
  | _ => false

theorem dropsTurn_of_dropsPlace {event : Event} (h : c.dropsPlace event = false) :
    c.dropsTurn event = false := by
  cases event with
  | cancel k =>
      cases hcall : c.calls[k]? with
      | none => simp [dropsTurn, hcall]
      | some call =>
          have hphase : (call.phase.isQueued || call.phase.isTurn) = false := by
            simpa [dropsPlace, hcall] using h
          simpa [dropsTurn, hcall] using (Bool.or_eq_false_iff.mp hphase).2
  | _ => rfl

/-- After a poll, a call that takes turns waits only if it waits in the queue. -/
theorem isPatient_of_keepsOthersInLine (hcall : c.calls[k]? = some call)
    (hop : call.operation.takesTurn)
    (hd : d.Plain) (h : c.life.KeepsOthersInLine k d.life) : d.isPatient k = false := by
  obtain ⟨phase, hphase, hcalls⟩ := h.calls
  have hself : d.calls[k]? = some { call with phase } := by
    rw [show d.calls = _ from hcalls]
    exact Life.getElem?_setPhase_self (l := c.life) hcall phase
  simp only [isPatient, hself, Option.any_some]
  rw [Bool.eq_false_iff]
  intro hpatient
  obtain rfl : phase = .queued := (hd k _ hself).eq_queued hop hpatient
  cases hphase

/-- Who asks in the view: a call that has done nothing but wait. -/
theorem asks?_unqueued (hcall : c.calls[k]? = some call) :
    c.unqueued.asks? (.poll k) =
      if !call.phase.unqueued.hasBegun && call.operation.takesTurn then some k else none := by
  have hview : c.unqueued.calls[k]? = some call.unqueued := by
    rw [getElem?_unqueued, hcall]
    rfl
  simp [asks?, hview, Call.unqueued]

theorem asks?_poll (hcall : c.calls[k]? = some call) :
    c.asks? (.poll k) =
      if !call.phase.hasBegun && call.operation.takesTurn then some k else none := by
  simp [asks?, hcall]

/-- A call that asks for a lock that is held takes a place at the end of the queue. -/
theorem queue_ask (h : c.life.Orderly) (hcall : c.calls[k]? = some call)
    (hphase : call.phase = .fresh) (hop : call.operation.takesTurn) (hheld : c.lock.isFree = false) :
    (c.goOn k call.operation call.phase).isPatient k ∧
      (c.goOn k call.operation call.phase).life.queue = c.life.queue ++ [k] := by
  have hgo : c.goOn k call.operation call.phase =
      ({ c with lock := c.lock.acquire k } : Client).setPhase k .queued := by
    rw [hphase, ← askTurn_of_held hheld k call.operation, ← beginCall_of_takesTurn hop]
    rfl
  rw [hgo]
  exact ⟨by simp [isPatient, setPhase, hcall, Phase.isPatient],
    Life.queue_enqueue h hcall (by rw [hphase]; rfl)⟩

/-- A call that goes on and need not wait for its turn asks in the view when its turn begins. -/
theorem queue_goOn (h : c.life.Orderly) (hp : c.Plain) (hcall : c.calls[k]? = some call)
    (hcan : c.canGoOn k call.phase)
    (hfree : call.phase = .fresh → call.operation.takesTurn → c.lock.isFree) :
    c.life.queue ++ (c.asks? (.poll k)).toList =
      (if (c.goOn k call.operation call.phase).isPatient k then []
        else (c.unqueued.asks? (.poll k)).toList) ++
        (c.goOn k call.operation call.phase).life.queue := by
  have hkeepsLine := keepsOthersInLine_goOn h hp hcall hcan hfree
  have hplain := hp k call hcall
  rw [hkeepsLine.queue, asks?_poll hcall, asks?_unqueued hcall]
  have hstays : call.phase.isQueued = false →
      c.life.queue.filter (· ≠ k) = c.life.queue := by
    intro hphase
    refine List.filter_eq_self.mpr ?_
    intro i hi
    simpa using fun hik : i = k => Life.not_mem_queue hcall hphase (hik ▸ hi)
  cases hop : call.operation.takesTurn with
  | false =>
      -- Only calls that take turns stand in the queue.
      have hphase : call.phase.isQueued = false := by
        rw [Bool.eq_false_iff]
        intro hqueued
        have hturn := hplain.turn (.inl (by
          cases hphase : call.phase <;> simp_all [Phase.isQueued]))
        rw [hop] at hturn
        cases hturn
      rw [hstays hphase]
      simp
  | true =>
      have hpatient :=
        isPatient_of_keepsOthersInLine hcall hop (viewAfter_goOn h hp hcall hcan).plain hkeepsLine
      rw [hpatient]
      cases hphase : call.phase with
      | fresh =>
          -- Its turn begins at once, and nobody has waited before it.
          have hnil : c.life.queue = [] := Life.queue_of_free h.lock (hfree hphase hop)
          simp [hnil, Phase.hasBegun, Phase.unqueued, Phase.isPatient]
      | queued =>
          -- It has stood at the head, and asks in the view only now.
          have hholder : c.lock.holder? = some k := by simpa [hphase, canGoOn] using hcan
          have hqueue := Life.queue_of_holder? h.lock hholder hcall (by rw [hphase]; rfl)
          simpa [Phase.hasBegun, Phase.unqueued, Phase.isPatient] using hqueue
      | watching seen => simp [hplain.eq_queued hop (by rw [hphase]; rfl)] at hphase
      | peeking => simp [hplain.eq_queued hop (by rw [hphase]; rfl)] at hphase
      | _ =>
          -- Its turn has begun before.
          have hqueue := hstays (by rw [hphase]; rfl)
          simpa [Phase.hasBegun, Phase.unqueued, Phase.isPatient] using hqueue.symm

/-- What a poll does to the queue: the call takes its place at the end, or leaves the head and asks
in the view, or the queue stays as it was. -/
theorem queue_poll (h : c.life.Orderly) (hp : c.Plain) (k : Nat) :
    c.life.queue ++ (c.asks? (.poll k)).toList =
      (if (c.poll k).isPatient k then [] else (c.unqueued.asks? (.poll k)).toList) ++
        (c.poll k).life.queue := by
  cases hcall : c.calls[k]? with
  | none =>
      have hsame : c.poll k = c := by simp [poll, hcall]
      have hview : c.unqueued.calls[k]? = none := by rw [getElem?_unqueued, hcall]; rfl
      simp [hsame, asks?, hcall, hview]
  | some call =>
      rw [poll_eq hcall]
      cases hcan : c.canGoOn k call.phase with
      | false =>
          have hbegun : call.phase.hasBegun = true := by
            cases hphase : call.phase <;> simp_all [canGoOn, Phase.hasBegun]
          have hpatient : c.isPatient k = call.phase.isPatient := by simp [isPatient, hcall]
          simp only [Bool.false_eq_true, if_false]
          rw [asks?_poll hcall, asks?_unqueued hcall, hpatient]
          cases hwaits : call.phase.isPatient <;> simp [Phase.unqueued, hwaits, hbegun]
      | true =>
          rw [if_pos rfl]
          by_cases hwaits : call.phase = .fresh ∧ call.operation.takesTurn ∧ c.lock.isFree = false
          · obtain ⟨hphase, hop, hheld⟩ := hwaits
            obtain ⟨hpatient, hqueue⟩ := queue_ask h hcall hphase hop hheld
            rw [hpatient, hqueue, asks?_poll hcall]
            simp [hphase, hop, Phase.hasBegun]
          · refine queue_goOn h hp hcall hcan ?_
            intro hphase hop
            simpa [hphase, hop] using hwaits

/-! ### Every event -/

theorem queue_of_beside {f : Client → Client} (hf : IsBeside f) (c : Client) :
    (f c).life.queue = c.life.queue := by
  have hsame := eq_amid_of_beside hf c
  rw [hsame]
  rfl

theorem queue_invoke (h : c.life.Orderly) (operation : Operation) :
    (c.invoke operation).life.queue = c.life.queue := by
  unfold invoke
  split
  · refine List.filter_congr ?_
    intro i hi
    obtain ⟨call, hcall, -⟩ := (h.line i).mp hi
    have hcall' : c.calls[i]? = some call := hcall
    have hlt := (List.getElem?_eq_some_iff.mp hcall').1
    simp [life, List.getElem?_append_left hlt]
  · rfl

theorem queue_cancel (h : c.life.Orderly) (hkeeps : c.dropsPlace (.cancel k) = false) :
    (c.cancel k).life.queue = c.life.queue := by
  rcases cancel_cases c k with ⟨hsame, -⟩ | ⟨call, -, hcall, hover, -⟩
  · rw [hsame]
  · have hphase : (call.phase.isQueued || call.phase.isTurn) = false := by
      simpa [dropsPlace, hcall] using hkeeps
    rw [life_cancel hcall hover, (Life.keepsOthersInLine_leave h.lock k rfl).queue]
    refine List.filter_eq_self.mpr ?_
    intro i hi
    have hk := Life.not_mem_queue (l := c.life) hcall (Bool.or_eq_false_iff.mp hphase).1
    simpa using fun hik : i = k => hk (hik ▸ hi)

theorem queue_act (h : c.life.Orderly) {event : Event} (hkeeps : c.dropsPlace event = false)
    (hpoll : ∀ k, event ≠ .poll k) : (c.act event).life.queue = c.life.queue := by
  cases hbeside : event.isBeside with
  | true => exact queue_of_beside (isBeside_act hbeside) c
  | false =>
      cases event with
      | invoke operation => exact queue_invoke h operation
      | poll k => exact absurd rfl (hpoll k)
      | cancel k => exact queue_cancel h hkeeps
      | relayNotification g message => rw [life_act_relayNotification]
      | release => rfl
      | _ => cases hbeside

/-- **First come, first served.**  The queue together with who asks now is who asks in the view
together with the queue afterwards. -/
theorem queue_step (h : c.life.Orderly) (hp : c.Plain) {event : Event}
    (hkeeps : c.dropsPlace event = false) :
    c.life.queue ++ (c.asks? event).toList =
      (if c.postpones event then [] else (c.unqueued.asks? event).toList) ++
        (c.step event).life.queue := by
  have htidy : (c.step event).life.queue = (c.act event).life.queue := by
    rw [step, life_tidy, Life.queue_tidy]
  rw [htidy]
  cases event with
  | poll k =>
      have hpatient : c.postpones (.poll k) = (c.poll k).isPatient k := by
        simp [postpones, isPatient, step, act]
      rw [hpatient]
      exact queue_poll h hp k
  | _ =>
      rw [queue_act h hkeeps (by simp)]
      simp [postpones, asks?]

end Client
end LanguageClient
