import LanguageClient.Proofs.Session.Handing
import LanguageClient.Proofs.Session.Turns

/-!
# How the calls that take a turn end

A start, a stop and a restart wait for their turn, have it and are over: nothing else becomes of
them, whatever callers go away.  So when one of them ends, that is the end of its turn, and the
outcome tells what the turn has done.

* `Call.IsFitting` — a call in a phase to which its operation can come.
* `Course.Advances` — a turn begins or goes on, by what its phase says.
* **`Client.fitting_reached`** — every call is in a fitting phase after any events.
* **`Client.ended_step`** — an event that ends a start, a stop or a restart ends its turn.
* `Client.launches_step` — which events launch a server.
-/

namespace LanguageClient

/-! ### Operations and phases -/

/-- Whether an operation may ask for a turn, at its beginning or later. -/
def Operation.asksTurn : Operation → Bool
  | activate => true
  | command _ _ _ => true
  | operation => operation.takesTurn

namespace Call

/-- A call in a phase to which its operation can come: one that takes a turn waits for that, has it
or is over, and only one that asks for a turn waits for it or has it. -/
structure IsFitting (call : Call) : Prop where
  waits : call.operation.takesTurn → call.phase = .fresh ∨ call.phase = .queued ∨
    call.phase.isTurn ∨ call.phase.isOver
  turn : call.phase = .queued ∨ call.phase.isTurn → call.operation.asksTurn

variable {call : Call} {phase : Phase}

theorem isFitting_of_over (hover : phase.isOver) : ({ call with phase } : Call).IsFitting where
  waits _ := .inr (.inr (.inr hover))
  turn h := by
    rcases h with h | h
    · have hqueued : phase = .queued := h
      rw [hqueued] at hover
      cases hover
    · have hturn : phase.isTurn := h
      rw [Phase.not_isTurn_of_isOver hover] at hturn
      cases hturn

theorem isFitting_of_turn (hop : call.operation.asksTurn) (h : phase = .queued ∨ phase.isTurn) :
    ({ call with phase } : Call).IsFitting where
  waits _ := .inr (h.imp_right .inl)
  turn _ := hop

/-- A command or an activation may be in any phase. -/
theorem isFitting_of_asksTurn (hop : call.operation.asksTurn)
    (hnot : call.operation.takesTurn = false) : ({ call with phase } : Call).IsFitting where
  waits h := by
    rw [hnot] at h
    cases h
  turn _ := hop

theorem isFitting_outside (hop : call.operation.takesTurn = false) (hqueued : phase ≠ .queued)
    (hturn : phase.isTurn = false) : ({ call with phase } : Call).IsFitting where
  waits h := by
    rw [hop] at h
    cases h
  turn h := by
    rcases h with h | h
    · exact absurd h hqueued
    · rw [hturn] at h
      cases h

end Call

namespace Course

/-- What a turn does next in a phase of its call: it begins, or the start or the stop goes on. -/
inductive Advances (s : Course) (operation : Operation) (phase : Phase) : Course → Next → Prop
  | begins {t : Course} {next : Next} (hphase : phase = .fresh ∨ phase = .queued)
      (h : s.Begins operation t next) : Advances s operation phase t next
  | starts (g : Nat) {t : Course} {next : Next} (hphase : phase.startOf? = some g)
      (h : s.Starts g t next) : Advances s operation phase t next
  | stops (g : Nat) {t : Course} {next : Next} (hphase : phase.stopOf? = some g)
      (h : s.Stops operation g t next) : Advances s operation phase t next

variable {s t : Course} {g : Nat} {next : Next} {operation : Operation} {phase : Phase}

theorem matchesNext_advances (howns : s.Owns) (hmatches : phase.isTurn → s.MatchesPhase phase)
    (h : s.Advances operation phase t next) : t.MatchesNext next := by
  cases h with
  | begins hphase h => exact matchesNext_begins howns h
  | starts g hphase h =>
      exact matchesNext_starts ((hmatches (Phase.isTurn_of_startOf? hphase)).starting g hphase) h
  | stops g hphase h =>
      exact matchesNext_stops ((hmatches (Phase.isTurn_of_stopOf? hphase)).stopping g hphase) h

/-- A stop that comes to its end leaves nothing that is owned. -/
theorem slot_of_stopped (hmatches : phase.isTurn → s.MatchesPhase phase)
    (h : s.Advances .stop phase t (.ends .done)) : t.slot = none := by
  cases h with
  | begins hphase h =>
      cases h with
      | starts hop h => cases hop
      | idle hop h => exact h
      | restarts hop hstop h hopens => exact absurd rfl hstop
  | starts g hphase h => cases h
  | stops g hphase h =>
      cases h with
      | stopped hop => exact ((hmatches (Phase.isTurn_of_stopOf? hphase)).stopping g hphase).slot
      | restarts hop h => exact absurd rfl hop

/-- A stop launches nothing. -/
theorem launches_of_stop (h : s.Advances .stop phase t next) : t.launches = s.launches := by
  cases h with
  | begins hphase h =>
      cases h with
      | starts hop h => cases hop
      | takes g phase hop h hphase => rfl
      | idle hop h => rfl
      | restarts hop hstop h hopens => exact absurd rfl hstop
  | starts g hphase h => exact launches_starts h
  | stops g hphase h =>
      cases h with
      | waits phase h => rfl
      | stopped hop => rfl
      | restarts hop h => exact absurd rfl hop

/-- A turn ends with a session that a start has made ready or, in a start, with the one that is
owned already. -/
theorem session_of_advances (howns : s.Owns)
    (h : s.Advances operation phase t (.ends (.session g))) :
    phase.startOf? = some g ∧ t = s.ready g ∨
      operation.isStart ∧ (phase = .fresh ∨ phase = .queued) ∧ s.slot = some g ∧ t = s := by
  cases h with
  | begins hphase h =>
      cases h with
      | starts hop h =>
          cases h with
          | reuse g h => exact .inr ⟨hop, hphase, by rwa [← session?_of_owns howns], rfl⟩
      | restarts hop hstop h hopens =>
          cases hopens with
          | reuse g hg =>
              rw [session?_of_owns howns, h] at hg
              cases hg
  | starts n hphase h =>
      cases h with
      | ready => exact .inl ⟨hphase, rfl⟩
  | stops n hphase h =>
      cases h with
      | restarts hop h =>
          -- What has just been published as stopped is not ready.
          cases h with
          | reuse g h => simp [session?, Status.isReady] at h

end Course

namespace Client

variable {c d : Client} {k g : Nat} {call : Call}

/-! ### Calls that ask for no turn -/

/-- A call comes to a phase without a turn, and the sessions stay as they are. -/
def StaysOutside (c : Client) (k : Nat) (d : Client) : Prop :=
  d.course = c.course ∧ (d.calls = c.calls ∨ ∃ phase : Phase, phase ≠ .queued ∧
    phase.isTurn = false ∧ d.calls = (c.setPhase k phase).calls)

theorem staysOutside_of_setPhase {phase : Phase} (hphase : phase.isInLine = false)
    (h : d.life = c.life.setPhase k phase) : c.StaysOutside k d := by
  refine ⟨congrArg Life.course h, .inr ⟨phase, ?_, Life.not_isTurn_of_isInLine hphase,
    congrArg Life.calls h⟩⟩
  rintro rfl
  cases hphase

theorem staysOutside_look (c : Client) (k : Nat) : c.StaysOutside k (c.look k) := by
  rcases life_look c k with ⟨phase, hphase, hlife⟩ | hlife
  · exact staysOutside_of_setPhase hphase hlife
  · exact ⟨congrArg Life.course hlife, .inr ⟨.peeking, by simp, rfl, congrArg Life.calls hlife⟩⟩

theorem staysOutside_askSession (c : Client) (k : Nat) (method : String) (params : Json)
    (goal : RequestGoal) : c.StaysOutside k (c.askSession k method params goal) := by
  obtain ⟨phase, hphase, hlife⟩ := life_askSession c k method params goal
  exact staysOutside_of_setPhase hphase hlife

/-- A call that asks for no turn goes on without one. -/
theorem staysOutside_goOn (hfit : call.IsFitting) (hop : call.operation.asksTurn = false) (c : Client)
    (k : Nat) : c.StaysOutside k (c.goOn k call.operation call.phase) := by
  have hnot : ¬ (call.phase = .queued ∨ call.phase.isTurn) := by
    intro h
    have hasks := hfit.turn h
    rw [hop] at hasks
    cases hasks
  have hsame : c.StaysOutside k c := ⟨rfl, .inl rfl⟩
  cases hphase : call.phase with
  | fresh =>
      cases hoperation : call.operation with
      | ready => exact staysOutside_look c k
      | request method params shape => exact staysOutside_askSession c k _ _ _
      | relay g method params =>
          simp only [goOn, beginCall]
          split
          · obtain ⟨id, hlife⟩ := life_ask c k g method params .relay
            exact staysOutside_of_setPhase rfl hlife
          · exact staysOutside_of_setPhase rfl (life_finish c k _)
      | showVirtualFile source => exact staysOutside_askSession c k _ _ _
      | _ => rw [hoperation] at hop; cases hop
  | watching seen => exact staysOutside_look c k
  | peeking => exact staysOutside_look { c with lock := c.lock.leave k } k
  | awaiting g id goal =>
      rcases life_afterReply c k g id goal with hlife | ⟨outcome, hlife⟩
      · exact ⟨congrArg Life.course hlife, .inl (congrArg Life.calls hlife)⟩
      · exact staysOutside_of_setPhase rfl hlife
  | finished outcome => exact hsame
  | dropped => exact hsame
  | queued => exact absurd (.inl hphase) hnot
  | reaping g deadline error? =>
      exact absurd (.inr (by rw [hphase]; exact Phase.isTurn_reaping g deadline error?)) hnot
  | _ => exact absurd (.inr (by rw [hphase]; rfl)) hnot

/-! ### Calls that take a turn -/

/-- A call that takes a turn gets in line for it, or does the next part of it. -/
theorem goOn_of_takesTurn (hfit : call.IsFitting) (hop : call.operation.takesTurn)
    (hholder : call.phase.isTurn → c.lock.holder? = some k) (hcan : c.canGoOn k call.phase) :
    (∃ lock : Lock, c.goOn k call.operation call.phase =
        ({ c with lock } : Client).setPhase k .queued) ∨
      ∃ (lock : Lock) (part : Client → Client × Next),
        (c.lock.isFree ∨ c.lock.holder? = some k) ∧ IsLocal part ∧
        c.goOn k call.operation call.phase = proceed k (part { c with lock }) ∧
        c.course.Advances call.operation call.phase (part { c with lock }).1.course
          (part { c with lock }).2 := by
  have hbegins : ∀ lock : Lock, c.course.Begins call.operation
      (({ c with lock } : Client).beginTurn call.operation).1.course
      (({ c with lock } : Client).beginTurn call.operation).2 :=
    fun lock => begins_beginTurn { c with lock } call.operation
  rcases hfit.waits hop with hphase | hphase | hturn | hover
  · rw [hphase, goOn, beginCall_of_takesTurn hop]
    cases hfree : c.lock.isFree with
    | true =>
        rw [askTurn_of_free hfree]
        exact .inr ⟨_, (beginTurn · call.operation), .inl rfl, local_beginTurn call.operation, rfl,
          .begins (.inl rfl) (hbegins _)⟩
    | false =>
        rw [askTurn_of_held hfree]
        exact .inl ⟨_, rfl⟩
  · have hself : c.lock.holder? = some k := by simpa [hphase, canGoOn] using hcan
    rw [hphase]
    exact .inr ⟨c.lock, (beginTurn · call.operation), .inr hself, local_beginTurn call.operation, rfl,
      .begins (.inr rfl) (hbegins c.lock)⟩
  · obtain ⟨part, hpart, hgo⟩ := exists_isPart k call.operation hturn
    refine .inr ⟨c.lock, part, .inr (hholder hturn), hpart.isLocal, hgo c, ?_⟩
    rcases Phase.start_or_stop_of_isTurn hturn with ⟨g, hg⟩ | ⟨g, hg⟩
    · exact .starts g hg (hpart.starts c g hg)
    · exact .stops g hg (hpart.stops c g hg)
  · cases hphase : call.phase <;> simp_all [Phase.isOver, canGoOn]

/-! ### Fitting phases -/

/-- Every call is in a phase to which its operation can come. -/
def Fitting (c : Client) : Prop :=
  ∀ (k : Nat) (call : Call), c.calls[k]? = some call → call.IsFitting

theorem fitting_of_calls (hf : c.Fitting) (h : d.calls = c.calls) : d.Fitting := by
  intro i other hother
  exact hf i other (h ▸ hother)

theorem fitting_setPhase (hf : c.Fitting) (hcall : c.calls[k]? = some call) {phase : Phase}
    (h : d.calls = (c.setPhase k phase).calls) (hfit : ({ call with phase } : Call).IsFitting) :
    d.Fitting := by
  intro i other hother
  rw [h] at hother
  rcases Life.call_of_setPhase (l := c.life) hcall hother with ⟨-, rfl⟩ | ⟨-, hother⟩
  · exact hfit
  · exact hf i other hother

theorem fitting_goOn (h : c.life.Orderly) (hf : c.Fitting) (hcall : c.calls[k]? = some call)
    (hcan : c.canGoOn k call.phase) : (c.goOn k call.operation call.phase).Fitting := by
  have hfit := hf k call hcall
  cases hasks : call.operation.asksTurn with
  | false =>
      have hop : call.operation.takesTurn = false := by
        cases hoperation : call.operation <;> simp_all [Operation.asksTurn, Operation.takesTurn]
      rcases (staysOutside_goOn hfit hasks c k).2 with hcalls | ⟨phase, hqueued, hturn, hcalls⟩
      · exact fitting_of_calls hf hcalls
      · exact fitting_setPhase hf hcall hcalls (Call.isFitting_outside hop hqueued hturn)
  | true =>
      cases hop : call.operation.takesTurn with
      | false =>
          rcases entersPhase_goOn h hcall with ⟨phase, hcalls, -⟩ | hcalls
          · exact fitting_setPhase hf hcall hcalls (Call.isFitting_of_asksTurn hasks hop)
          · exact fitting_of_calls hf hcalls
      | true =>
          rcases goOn_of_takesTurn hfit hop (fun hturn => (h.turn k call hcall hturn).1) hcan with
            ⟨lock, hgo⟩ | ⟨lock, part, -, hpart, hgo, hadvances⟩
          · rw [hgo]
            exact fitting_setPhase hf hcall rfl (Call.isFitting_of_turn hasks (.inl rfl))
          · have hfits := Course.matchesNext_advances h.owns
              (fun hturn => (h.turn k call hcall hturn).2) hadvances
            have hlife := life_proceed hpart (c := { c with lock }) hcall
            rw [hgo]
            cases hnext : (part { c with lock }).2 with
            | waits phase =>
                rw [hnext] at hlife
                exact fitting_setPhase hf hcall (congrArg Life.calls hlife)
                  (Call.isFitting_of_turn hasks (.inr (hfits.waits phase hnext).turn))
            | ends outcome =>
                rw [hnext] at hlife
                exact fitting_setPhase hf hcall (congrArg Life.calls hlife)
                  (Call.isFitting_of_over rfl)

/-- An event other than a poll leaves the calls as they are, adds one that has not begun, or drops
one. -/
theorem calls_act (c : Client) {event : Event} (hpoll : ∀ k, event ≠ .poll k) :
    (c.act event).calls = c.calls ∨
      (∃ operation : Operation, event = .invoke operation ∧
        (c.act event).calls = c.calls ++ [({ operation } : Call)]) ∨
      ∃ (k : Nat) (call : Call), c.calls[k]? = some call ∧
        (c.act event).calls = (c.setPhase k .dropped).calls := by
  cases hbeside : event.isBeside with
  | true =>
      left
      rw [eq_amid_of_beside (isBeside_act hbeside) c]
      rfl
  | false =>
      cases event with
      | invoke operation =>
          rw [act, invoke]
          split
          · exact .inr (.inl ⟨operation, rfl, rfl⟩)
          · exact .inl rfl
      | poll k => exact absurd rfl (hpoll k)
      | cancel k =>
          rcases cancel_cases c k with ⟨hsame, -⟩ | ⟨call, -, hcall, hover, -⟩
          · exact .inl (congrArg calls hsame)
          · exact .inr (.inr ⟨k, call, hcall, congrArg Life.calls (life_cancel hcall hover)⟩)
      | relayNotification g message =>
          exact .inl (congrArg Life.calls (life_act_relayNotification c g message))
      | release => exact .inl rfl
      | _ => cases hbeside

theorem fitting_step (h : c.life.Orderly) (hf : c.Fitting) (event : Event) :
    (c.step event).Fitting := by
  refine fitting_of_calls ?_ (tidy_calls _)
  by_cases hpoll : ∃ k, event = .poll k
  · obtain ⟨k, rfl⟩ := hpoll
    rw [act, poll]
    split
    · rename_i call hcall
      split
      · rename_i hcan
        exact fitting_goOn h hf hcall hcan
      · exact hf
    · exact hf
  · rcases calls_act c (fun k hk => hpoll ⟨k, hk⟩) with
      hcalls | ⟨operation, -, hcalls⟩ | ⟨k, call, hcall, hcalls⟩
    · exact fitting_of_calls hf hcalls
    · intro i other hother
      rw [hcalls, List.getElem?_append] at hother
      split at hother
      · exact hf i other hother
      · obtain ⟨-, rfl⟩ := by simpa [List.getElem?_singleton] using hother
        exact ⟨fun _ => .inl rfl, fun h => by rcases h with h | h <;> cases h⟩
    · exact fitting_setPhase hf hcall hcalls (Call.isFitting_of_over rfl)

theorem fitting_run (h : c.life.Orderly) (hf : c.Fitting) (events : List Event) :
    (c.run events).Fitting := by
  induction events generalizing c with
  | nil => exact hf
  | cons event rest ih => exact ih (orderly_step h event) (fitting_step h hf event)

/-- **Every call is in a phase to which its operation can come**, after any events. -/
theorem fitting_reached (options : SessionOptions) (processId : Nat) (workspace : Workspace)
    (events : List Event) : ((Client.new options processId workspace).run events).Fitting :=
  fitting_run (orderly_new options processId workspace) (by simp [Fitting, Client.new]) events

/-! ### The end of a turn -/

theorem outcome?_setPhase_ne {i : Nat} (hi : i ≠ k) (c : Client) (phase : Phase) :
    (c.setPhase i phase).outcome? k = c.outcome? k := by
  have hsame : (c.setPhase i phase).calls[k]? = c.calls[k]? :=
    Life.getElem?_setPhase_ne c.life hi phase
  rw [outcome?, hsame, outcome?]

theorem outcome?_setPhase_self (hcall : c.calls[k]? = some call) {phase : Phase}
    {outcome : Outcome} (h : (c.setPhase k phase).outcome? k = some outcome) :
    phase = .finished outcome := by
  have hself : (c.setPhase k phase).calls[k]? = some { call with phase } :=
    Life.getElem?_setPhase_self (l := c.life) hcall phase
  rw [outcome?, hself, Option.map_some] at h
  cases phase <;> simp_all

/-- A call has its outcome from the event in which it goes on. -/
theorem poll_of_outcome? (h : c.life.Orderly) (hcall : c.calls[k]? = some call)
    (hopen : c.outcome? k = none) {event : Event} {outcome : Outcome}
    (hended : (c.step event).outcome? k = some outcome) :
    event = .poll k ∧ c.canGoOn k call.phase ∧
      c.step event = (c.goOn k call.operation call.phase).tidy ∧
      (c.goOn k call.operation call.phase).outcome? k = some outcome := by
  have hact : (c.act event).outcome? k = some outcome := by
    rw [← hended]
    exact (outcome?_of_calls (tidy_calls _) k).symm
  have hno : ∀ d : Client, d.outcome? k = c.outcome? k → d.outcome? k ≠ some outcome := by
    intro d hd hsome
    rw [hd, hopen] at hsome
    cases hsome
  by_cases hpoll : ∃ i, event = .poll i
  · obtain ⟨i, rfl⟩ := hpoll
    cases hother : c.calls[i]? with
    | none =>
        have hsame : c.act (.poll i) = c := by simp [act, poll, hother]
        exact absurd (hsame ▸ hact) (hno c rfl)
    | some other =>
        have hgo : c.act (.poll i) = _ := poll_eq hother
        by_cases hcan : c.canGoOn i other.phase
        · rw [if_pos hcan] at hgo
          by_cases hi : i = k
          · subst hi
            rw [hcall, Option.some.injEq] at hother
            subst hother
            exact ⟨rfl, hcan, congrArg tidy hgo, hgo ▸ hact⟩
          · -- Another call that goes on leaves this one alone.
            rcases entersPhase_goOn h hother with ⟨phase, hcalls, -⟩ | hcalls
            · refine absurd (hgo ▸ hact) (hno _ ?_)
              rw [outcome?_of_calls hcalls k, outcome?_setPhase_ne hi]
            · exact absurd (hgo ▸ hact) (hno _ (outcome?_of_calls hcalls k))
        · rw [if_neg hcan] at hgo
          exact absurd (hgo ▸ hact) (hno c rfl)
  · exfalso
    rcases calls_act c (fun i hi => hpoll ⟨i, hi⟩) with
      hcalls | ⟨operation, -, hcalls⟩ | ⟨i, other, hother, hcalls⟩
    · exact hno _ (outcome?_of_calls hcalls k) hact
    · refine hno _ ?_ hact
      rw [outcome?, hcalls, List.getElem?_append_left (List.getElem?_eq_some_iff.mp hcall).1,
        outcome?]
    · rw [outcome?_of_calls hcalls k] at hact
      by_cases hi : i = k
      · subst hi
        cases outcome?_setPhase_self hcall hact
      · exact hno _ (outcome?_setPhase_ne hi c _) hact

/-- **An event that ends a start, a stop or a restart ends its turn.** -/
theorem ended_step (h : c.life.Orderly) (hf : c.Fitting) (hcall : c.calls[k]? = some call)
    (hop : call.operation.takesTurn) (hopen : c.outcome? k = none) {event : Event}
    {outcome : Outcome} (hended : (c.step event).outcome? k = some outcome) :
    c.step event = (c.goOn k call.operation call.phase).tidy ∧
      ∃ (lock : Lock) (t : Course), (c.lock.isFree ∨ c.lock.holder? = some k) ∧
        c.course.Advances call.operation call.phase t (.ends outcome) ∧
        (c.goOn k call.operation call.phase).life =
          ({ c.life with lock, course := t } : Life).leave k (.finished outcome) := by
  obtain ⟨-, hcan, hstep, hgone⟩ := poll_of_outcome? h hcall hopen hended
  refine ⟨hstep, ?_⟩
  have hturn := fun hturn => h.turn k call hcall hturn
  rcases goOn_of_takesTurn (hf k call hcall) hop (fun ht => (hturn ht).1) hcan with
    ⟨lock, hgo⟩ | ⟨lock, part, hholder, hpart, hgo, hadvances⟩
  · -- A call that gets in line has not ended.
    rw [hgo] at hgone
    cases outcome?_setPhase_self (c := { c with lock }) hcall hgone
  · have hlife := life_proceed hpart (c := { c with lock }) hcall
    rw [← hgo] at hlife
    cases hnext : (part { c with lock }).2 with
    | waits phase =>
        -- Nor has one whose turn goes on.
        rw [hnext] at hlife hadvances
        have hcalls : (c.goOn k call.operation call.phase).calls = (c.setPhase k phase).calls :=
          congrArg Life.calls hlife
        rw [outcome?_of_calls hcalls k] at hgone
        have hphase := outcome?_setPhase_self hcall hgone
        have hfits := Course.matchesNext_advances h.owns (fun ht => (hturn ht).2) hadvances
        have hstill := (hfits.waits phase rfl).turn
        rw [hphase] at hstill
        cases hstill
    | ends result =>
        rw [hnext] at hlife hadvances
        have hconcluded : call.operation.concluded result = result := by
          cases hoperation : call.operation <;> first | rfl | (rw [hoperation] at hop; cases hop)
        rw [Life.proceed, hconcluded] at hlife
        have hcalls : (c.goOn k call.operation call.phase).calls =
            (c.setPhase k (.finished result)).calls := congrArg Life.calls hlife
        rw [outcome?_of_calls hcalls k] at hgone
        injection outcome?_setPhase_self hcall hgone with hresult
        subst hresult
        exact ⟨lock, _, hholder, hadvances, hlife⟩

end Client
end LanguageClient
