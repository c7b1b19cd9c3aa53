import LanguageClient.Proofs.Session.Turns

/-!
# Concurrent calls take their turns one after the other

A run in which calls wait for the lock can be told as a run in which nobody waits: the polls after
which a call still waits are left out, and every call begins when its turn comes.

* `Client.serial` — the events of the run in which nobody waits.
* `Client.askers`, `Client.OneByOne` — who asks for a turn, and that nobody asks in the turn of
  another.
* `Client.unqueued_run`, `Client.oneByOne_serial`, `Client.askers_run` — the serial run is seen
  through the view, by induction over the events.
* **`Client.concurrent_calls_take_turns`** — what can be seen of any run, what its calls end with and
  the order of their turns are those of its serial run.
-/

namespace LanguageClient
namespace Client

variable {c : Client}

/-! ### The serial run -/

/-- The events of a run without the polls after which the call still waits. -/
def serial (c : Client) : List Event → List Event
  | [] => []
  | event :: rest =>
      if c.postpones event then (c.step event).serial rest else event :: (c.step event).serial rest

/-- The calls that ask for a turn in a run, in their order. -/
def askers (c : Client) : List Event → List Nat
  | [] => []
  | event :: rest => (c.asks? event).toList ++ (c.step event).askers rest

/-- Whether nobody has a turn, waits for one or waits to look again. -/
def isIdle (c : Client) : Bool := !c.calls.any fun call => call.phase.isInLine

/-- In a run, every call that asks for a turn finds that nobody has one or waits for one. -/
def OneByOne (c : Client) : List Event → Prop
  | [] => True
  | event :: rest => ((c.asks? event).isSome → c.isIdle) ∧ (c.step event).OneByOne rest

/-- Whether no event of a run is that the caller of a call goes away that waits for its turn or has
it. -/
def keepsPlaces (c : Client) : List Event → Bool
  | [] => true
  | event :: rest => !c.dropsPlace event && (c.step event).keepsPlaces rest

theorem keepsTurns_of_keepsPlaces {events : List Event} (h : c.keepsPlaces events) :
    c.keepsTurns events := by
  induction events generalizing c with
  | nil => rfl
  | cons event rest ih =>
      rw [keepsPlaces, Bool.and_eq_true, Bool.not_eq_true'] at h
      rw [keepsTurns, Bool.and_eq_true, Bool.not_eq_true']
      exact ⟨dropsTurn_of_dropsPlace h.1, ih h.2⟩

theorem serial_sublist (c : Client) (events : List Event) : (c.serial events).Sublist events := by
  induction events generalizing c with
  | nil => exact .slnil
  | cons event rest ih =>
      unfold serial
      split
      · exact (ih _).cons event
      · exact (ih _).cons_cons event

/-- Whether an event is a poll. -/
def Event.isPoll : Event → Bool
  | poll _ => true
  | _ => false

theorem isPoll_of_postpones {event : Event} (h : c.postpones event) : event.isPoll := by
  cases event with
  | poll k => rfl
  | _ => cases h

/-- Nothing but polls is left out. -/
theorem serial_filter (c : Client) (events : List Event) :
    (c.serial events).filter (fun event => !event.isPoll) =
      events.filter fun event => !event.isPoll := by
  induction events generalizing c with
  | nil => rfl
  | cons event rest ih =>
      unfold serial
      split
      · rename_i hpostpones
        rw [ih, List.filter_cons_of_neg (by simp [isPoll_of_postpones hpostpones])]
      · rw [List.filter_cons, List.filter_cons, ih]

/-! ### Seen through the view -/

/-- What is known of a client after plain events. -/
structure PlainInvariant (c : Client) : Prop where
  orderly : c.life.Orderly
  plain : c.Plain
  tidy : c.tidy = c

theorem plainInvariant_new (options : SessionOptions) (processId : Nat) (workspace : Workspace) :
    (Client.new options processId workspace).PlainInvariant where
  orderly := orderly_new options processId workspace
  plain := by simp [Plain, Client.new]
  tidy := tidy_new options processId workspace

theorem plainInvariant_step (h : c.PlainInvariant) {event : Event} (hevent : event.isPlain) :
    (c.step event).PlainInvariant where
  orderly := orderly_step h.orderly event
  plain := (unqueued_step h.orderly h.plain h.tidy hevent).1
  tidy := tidy_step c event

theorem plainInvariant_run (h : c.PlainInvariant) {events : List Event}
    (hplain : ∀ event ∈ events, event.isPlain) : (c.run events).PlainInvariant := by
  induction events generalizing c with
  | nil => exact h
  | cons event rest ih =>
      exact ih (plainInvariant_step h (hplain event (by simp)))
        fun event hevent => hplain event (by simp [hevent])

theorem unqueued_run (h : c.PlainInvariant) {events : List Event}
    (hplain : ∀ event ∈ events, event.isPlain) :
    (c.run events).unqueued = c.unqueued.run (c.serial events) := by
  induction events generalizing c with
  | nil => rfl
  | cons event rest ih =>
      have hevent := hplain event (by simp)
      have hview := (unqueued_step h.orderly h.plain h.tidy hevent).2
      have hrest := ih (plainInvariant_step h hevent) fun event hmem => hplain event (by simp [hmem])
      unfold serial
      split
      · rename_i hpostpones
        rw [if_pos hpostpones] at hview
        rw [← hview]
        exact hrest
      · rename_i hgoes
        rw [if_neg hgoes] at hview
        rw [hview] at hrest
        exact hrest

theorem isIdle_unqueued
    (h : ∀ (i : Nat) (other : Call), c.calls[i]? = some other → other.phase.isTurn = false) :
    c.unqueued.isIdle := by
  have hnone : ∀ call ∈ c.unqueued.calls, call.phase.isInLine = false := by
    intro call hmem
    obtain ⟨i, hi⟩ := List.mem_iff_getElem?.mp hmem
    rw [getElem?_unqueued] at hi
    obtain ⟨other, hother, rfl⟩ := Option.map_eq_some_iff.mp hi
    exact (Phase.isInLine_unqueued other.phase).trans (h i other hother)
  simpa [isIdle] using hnone

/-- A call that has done nothing but wait begins its turn unless it has to wait on. -/
theorem beginsTurn_of_goes (hp : c.Plain) {k : Nat} {call : Call}
    (hcall : c.calls[k]? = some call) (hop : call.operation.takesTurn)
    (hbegun : call.phase.unqueued.hasBegun = false) (h : c.life.Orderly)
    (hgoes : (c.poll k).isPatient k = false) : c.beginsTurn k := by
  have hplain := hp k call hcall
  rw [poll_eq hcall] at hgoes
  simp only [beginsTurn, hcall, Option.any_some, hop, Bool.true_and]
  cases hphase : call.phase with
  | fresh =>
      cases hfree : c.lock.isFree with
      | true => rfl
      | false =>
          -- It would have taken a place in the queue.
          have hcan : c.canGoOn k call.phase := by rw [hphase]; rfl
          rw [if_pos hcan, (queue_ask h hcall hphase hop hfree).1] at hgoes
          cases hgoes
  | queued =>
      by_cases hholder : c.lock.holder? = some k
      · simp [hholder, Phase.isQueued]
      · have hcan : c.canGoOn k call.phase = false := by simp [hphase, canGoOn, hholder]
        have hpatient : c.isPatient k := by simp [isPatient, hcall, hphase, Phase.isPatient]
        rw [if_neg (by simp [hcan]), hpatient] at hgoes
        cases hgoes
  | watching seen => simp [hplain.eq_queued hop (by rw [hphase]; rfl)] at hphase
  | peeking => simp [hplain.eq_queued hop (by rw [hphase]; rfl)] at hphase
  | _ => simp [hphase, Phase.unqueued, Phase.isPatient, Phase.hasBegun] at hbegun

/-- While a turn begins, nobody has one. -/
theorem not_isTurn_of_beginsTurn (h : c.life.Orderly) {k : Nat} {call : Call}
    (hcall : c.calls[k]? = some call) (hbegins : c.beginsTurn k) :
    ∀ (i : Nat) (other : Call), c.calls[i]? = some other → other.phase.isTurn = false := by
  obtain ⟨-, hphase⟩ : call.operation.takesTurn = true ∧
      (call.phase.hasBegun = false ∧ c.lock.isFree = true ∨
        call.phase.isQueued = true ∧ c.lock.holder? = some k) := by
    simpa [beginsTurn, hcall] using hbegins
  rcases hphase with ⟨-, hfree⟩ | ⟨hqueued, hholder⟩
  · exact Life.not_isTurn_of_free h hfree
  · refine Life.not_isTurn_of_waiting h hholder hcall ?_
    cases hphase : call.phase <;> simp_all [Phase.isQueued]
    rfl

/-- Whoever asks in the view, and need not wait, finds that nobody has a turn. -/
theorem isIdle_of_asks? (h : c.life.Orderly) (hp : c.Plain) {event : Event}
    (hgoes : c.postpones event = false) (hasks : (c.unqueued.asks? event).isSome) :
    c.unqueued.isIdle := by
  cases event with
  | poll k =>
      cases hcall : c.calls[k]? with
      | none =>
          have hview : c.unqueued.calls[k]? = none := by rw [getElem?_unqueued, hcall]; rfl
          simp [asks?, hview] at hasks
      | some call =>
          rw [asks?_unqueued hcall] at hasks
          obtain ⟨hbegun, hop⟩ : call.phase.unqueued.hasBegun = false ∧
              call.operation.takesTurn = true := by simpa using hasks
          have hgoes' : (c.poll k).isPatient k = false := by
            simpa [postpones, isPatient, step, act] using hgoes
          have hbegins := beginsTurn_of_goes hp hcall hop hbegun h hgoes'
          exact isIdle_unqueued (not_isTurn_of_beginsTurn h hcall hbegins)
  | _ => cases hasks

theorem oneByOne_serial (h : c.PlainInvariant) {events : List Event}
    (hplain : ∀ event ∈ events, event.isPlain) : c.unqueued.OneByOne (c.serial events) := by
  induction events generalizing c with
  | nil => trivial
  | cons event rest ih =>
      have hevent := hplain event (by simp)
      have hview := (unqueued_step h.orderly h.plain h.tidy hevent).2
      have hrest := ih (plainInvariant_step h hevent) fun event hmem => hplain event (by simp [hmem])
      unfold serial
      split
      · rename_i hpostpones
        rw [if_pos hpostpones] at hview
        rwa [hview] at hrest
      · rename_i hgoes
        rw [if_neg hgoes] at hview
        rw [hview] at hrest
        exact ⟨isIdle_of_asks? h.orderly h.plain (by simpa using hgoes), hrest⟩

/-- Calls ask in the serial run in the order in which they ask in the run; who still waits has asked
last. -/
theorem askers_run (h : c.PlainInvariant) {events : List Event}
    (hplain : ∀ event ∈ events, event.isPlain) (hkeeps : c.keepsPlaces events) :
    c.life.queue ++ c.askers events =
      c.unqueued.askers (c.serial events) ++ (c.run events).life.queue := by
  induction events generalizing c with
  | nil => simp [askers, serial, run]
  | cons event rest ih =>
      rw [keepsPlaces, Bool.and_eq_true, Bool.not_eq_true'] at hkeeps
      have hevent := hplain event (by simp)
      have hview := (unqueued_step h.orderly h.plain h.tidy hevent).2
      -- Who asks now comes to the end of the queue, and who asks in the view comes from its head.
      have hqueue := queue_step h.orderly h.plain hkeeps.1
      have hrest :=
        ih (plainInvariant_step h hevent) (fun event hmem => hplain event (by simp [hmem]))
        hkeeps.2
      have hrun : c.run (event :: rest) = (c.step event).run rest := rfl
      rw [askers, ← List.append_assoc, hqueue, List.append_assoc, hrest, hrun]
      rw [serial]
      split
      · rename_i hpostpones
        rw [if_pos hpostpones] at hview
        rw [hview, List.nil_append]
      · rename_i hgoes
        rw [if_neg hgoes] at hview
        rw [hview, askers, List.append_assoc]

/-! ### The promises to a call -/

/-- What comes of a call that begins its turn by a poll, with what happens afterwards. -/
structure IsServed (c : Client) (k : Nat) (operation : Operation) (future : List Event) :
    Prop where
  /-- A start that finds a session ready hands it out, and nothing can be seen of it. -/
  hands : operation = .start → ∀ g, c.session? = some g →
    (c.step (.poll k)).outcome? k = some (.session g) ∧ (c.step (.poll k)).journal = c.journal
  /-- Any other start launches the next generation and, until it has ended, no other; and it hands
  out no other. -/
  starts : operation = .start → c.session? = none →
    (c.step (.poll k)).launches = c.launches ++ [c.generation + 1] ∧
      (∀ (during : List Event) (event : Event), during ++ [event] <+: future →
        ((c.step (.poll k)).run during).outcome? k = none →
          ((c.step (.poll k)).run (during ++ [event])).launches =
            c.launches ++ [c.generation + 1]) ∧
      ∀ g, ((c.step (.poll k)).run future).outcome? k = some (.session g) → g = c.generation + 1
  /-- A restart hands out a later generation than every one before. -/
  restarts : operation = .restart → ∀ g,
    ((c.step (.poll k)).run future).outcome? k = some (.session g) →
      g = c.generation + 1 ∧ ∀ n ∈ c.launches, n < g
  /-- A stop that finds no session changes nothing but that it has ended. -/
  stops : operation = .stop → c.slot = none →
    (c.step (.poll k)).outcome? k = some .done ∧ c.step (.poll k) = c.amid (c.step (.poll k))

theorem isServed (h : c.PlainInvariant) (hcounted : c.life.Counted) {k : Nat} {call : Call}
    (hcall : c.calls[k]? = some call) (hbegins : c.beginsTurn k) {future : List Event}
    (hkeeps : (c.step (.poll k)).keepsTurns future) : c.IsServed k call.operation future := by
  have hafter : (c.step (.poll k)).life.Orderly := orderly_step h.orderly _
  refine ⟨?_, ?_, ?_, ?_⟩
  · intro hop g hsession
    exact start_of_session? hcall hop hbegins hsession
  · intro hop hsession
    obtain ⟨hstarting, hlaunches, hbound⟩ := start_of_no_session hcall hop hbegins hsession
    refine ⟨hlaunches, ?_, ?_⟩
    · rintro during event ⟨rest, rfl⟩ hopen
      rw [List.append_assoc, keepsTurns_append, Bool.and_eq_true, List.singleton_append, keepsTurns,
        Bool.and_eq_true, Bool.not_eq_true'] at hkeeps
      rw [run_append]
      -- Before the event the start was under way.
      exact launches_of_starting (orderly_run hafter during)
        (starting_run hafter hstarting hkeeps.1) hopen hkeeps.2.1
    · intro g houtcome
      exact outcome?_of_bound (bound_run hafter hbound hkeeps) houtcome
  · intro hop g houtcome
    have hbound := restart_of_beginsTurn h.orderly hcall hop hbegins
    have hg := outcome?_of_bound (bound_run hafter hbound hkeeps) houtcome
    refine ⟨hg, ?_⟩
    intro n hn
    have hlaunches : c.launches = List.range' 1 c.generation := hcounted
    rw [hlaunches, List.mem_range'_1] at hn
    omega
  · intro hop hslot
    exact stop_of_no_slot h.tidy hcall hop hbegins hslot

/-! ### The serial run tells the run -/

/-- A run without some polls, in which the calls take their turns one after the other and in which
everything can be seen that can be seen of the whole run. -/
structure Serializes (c : Client) (events serial : List Event) : Prop where
  sublist : serial.Sublist events
  /-- Callers, servers and connections do the same. -/
  others : (serial.filter fun event => !event.isPoll) = events.filter fun event => !event.isPoll
  oneByOne : c.OneByOne serial
  /-- The turns come in the order in which they were asked for. -/
  order : ∃ waiting : List Nat, c.askers events = c.askers serial ++ waiting ∧
    ∀ k ∈ waiting, ∃ call : Call, (c.run events).calls[k]? = some call ∧ call.phase = .queued
  published : (c.run serial).published = (c.run events).published
  launches : (c.run serial).launches = (c.run events).launches
  journal : (c.run serial).journal = (c.run events).journal
  outcomes : ∀ k, (c.run serial).outcome? k = (c.run events).outcome? k

theorem outcome?_unqueued (c : Client) (k : Nat) : c.unqueued.outcome? k = c.outcome? k := by
  unfold outcome?
  rw [getElem?_unqueued, Option.map_map]
  cases hcall : c.calls[k]? with
  | none => rfl
  | some call =>
      cases hphase : call.phase <;>
        simp [Call.unqueued, Phase.unqueued, Phase.isPatient, hphase]

theorem mem_queue {l : Life} {k : Nat} (h : k ∈ l.queue) :
    ∃ call : Call, l.calls[k]? = some call ∧ call.phase = .queued := by
  obtain ⟨-, hany⟩ := List.mem_filter.mp h
  obtain ⟨call, hcall, hqueued⟩ := (Option.any_eq_true _ _).mp hany
  refine ⟨call, hcall, ?_⟩
  cases hphase : call.phase <;> simp_all [Phase.isQueued]

/-- Seen from a client in which nobody waits, a run is told by its serial run. -/
theorem serializes (h : c.PlainInvariant) (hview : c.unqueued = c) (hqueue : c.life.queue = [])
    {events : List Event} (hplain : ∀ event ∈ events, event.isPlain)
    (hkeeps : c.keepsPlaces events) : c.Serializes events (c.serial events) := by
  have hrun := unqueued_run h hplain
  have hserial := oneByOne_serial h hplain
  have horder := askers_run h hplain hkeeps
  rw [hview] at hrun hserial horder
  rw [hqueue, List.nil_append] at horder
  refine ⟨serial_sublist c events, serial_filter c events, hserial,
    ⟨_, horder, fun k hk => mem_queue hk⟩, ?_, ?_, ?_, ?_⟩
  · rw [← hrun]
    rfl
  · rw [← hrun]
    rfl
  · rw [← hrun]
    rfl
  · intro k
    rw [← hrun, outcome?_unqueued]

/-- **Concurrent calls take their turns one after the other.**  After any events, with any callers
that start, stop, restart, wait and ask, of whom none goes away while it waits for its turn or has
it, there is a run with the same servers and connections in which every call asks for its turn
when nobody has one, in the order in which the calls asked; what it publishes and launches, all
else that can be seen of it and what its calls end with are the same.  A call that begins its turn
is served as its operation promises. -/
theorem concurrent_calls_take_turns (options : SessionOptions) (processId : Nat)
    (workspace : Workspace) (events : List Event) (hplain : ∀ event ∈ events, event.isPlain)
    (hkeeps : (Client.new options processId workspace).keepsPlaces events) :
    let c := Client.new options processId workspace
    (∃ serial : List Event, c.Serializes events serial) ∧
      ∀ (past future : List Event) (k : Nat) (call : Call), events = past ++ .poll k :: future →
        (c.run past).calls[k]? = some call → (c.run past).beginsTurn k →
          (c.run past).IsServed k call.operation future := by
  intro c
  have hsettled : c.PlainInvariant := plainInvariant_new options processId workspace
  refine ⟨⟨c.serial events, serializes hsettled rfl rfl hplain hkeeps⟩, ?_⟩
  rintro past future k call rfl hcall hbegins
  have hturns := keepsTurns_of_keepsPlaces hkeeps
  rw [keepsTurns_append, Bool.and_eq_true, keepsTurns, Bool.and_eq_true] at hturns
  have hpast : (c.run past).PlainInvariant :=
    plainInvariant_run hsettled fun event hmem => hplain event (List.mem_append_left _ hmem)
  have hcounted : c.life.Counted := rfl
  exact isServed hpast (counted_run hsettled.orderly hcounted hturns.1) hcall hbegins hturns.2.2

/-- A restart that was asked for before a stop is polled after it, and takes its turn after it;
both wait for a start that fails. -/
theorem turns_after_a_failed_start :
    let events : List Event := [.invoke .start, .invoke .restart, .invoke .stop, .poll 0, .poll 2,
      .poll 1, .launchFailed 1 .connectionClosed, .poll 1, .poll 0, .poll 1, .poll 2, .poll 1,
      .launchFailed 2 .connectionClosed, .poll 1]
    let c := Client.new {} 0 {}
    (∀ event ∈ events, event.isPlain) ∧ c.keepsPlaces events ∧ c.askers events = [0, 2, 1] ∧
      (c.run events).launches = [1, 2] ∧
      (∃ serial : List Event, c.Serializes events serial) ∧
      ∀ (past future : List Event) (k : Nat) (call : Call), events = past ++ .poll k :: future →
        (c.run past).calls[k]? = some call → (c.run past).beginsTurn k →
          (c.run past).IsServed k call.operation future := by
  intro events c
  have hplain : ∀ event ∈ events, event.isPlain := by decide
  have hkeeps : c.keepsPlaces events := by decide
  exact ⟨hplain, hkeeps, by decide, by decide,
    concurrent_calls_take_turns {} 0 {} events hplain hkeeps⟩

end Client
end LanguageClient
