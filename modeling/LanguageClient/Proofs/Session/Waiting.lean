import LanguageClient.Proofs.Session.Endings
import LanguageClient.Proofs.Session.Standing

/-!
# Callers who wait for a session

A caller who waits for a session looks at the latest status, and in between waits for the next one, or
in line for the lock to look again.  It may see that a session is ready while a stop has taken that
away, and a failure while a restart waits in line.  As long as no turn is dropped, what it is told
holds at the moment at which it is told, and while it waits somebody will wake it.

* `Course.PublishesOrKeeps` — a step publishes something, or leaves the status as it is and fills no
  slot.
* `Client.OwesStatus`, `Client.owesStatus_of_turn` — who has its turn publishes a status before that
  ends.
* `Client.WakesWaiters`, `Client.wakesWaiters_step` — where the callers who wait stand.
* `Client.ServesWaiters`, **`Client.waiters_are_served`** — what they are told, and what they wait
  for.
-/

namespace LanguageClient

/-! ### What is published -/

namespace Course

/-- Something is published, or the statuses stay and no session comes into the slot. -/
def PublishesOrKeeps (s t : Course) : Prop :=
  s.published.length < t.published.length ∨
    t.published = s.published ∧ (t.slot = s.slot ∨ t.slot = none)

/-- The latest status is no answer to a caller who waits for a session: one is being started, or the
one that is ready has been taken away. -/
def IsPending (s : Course) : Prop :=
  s.status.state = .starting ∨ s.status.state = .ready ∧ s.slot = none

variable {s t u : Course} {g : Nat} {next : Next}

theorem publishesOrKeeps_refl (s : Course) : s.PublishesOrKeeps s := .inr ⟨rfl, .inl rfl⟩

theorem publishesOrKeeps_letGo (s : Course) : s.PublishesOrKeeps s.letGo := .inr ⟨rfl, .inr rfl⟩

theorem PublishesOrKeeps.trans (h : s.PublishesOrKeeps t) (h' : t.PublishesOrKeeps u) :
    s.PublishesOrKeeps u := by
  rcases h with hmore | ⟨hsame, hslot⟩ <;> rcases h' with hmore' | ⟨hsame', hslot'⟩
  · exact .inl (Nat.lt_trans hmore hmore')
  · exact .inl (hsame' ▸ hmore)
  · exact .inl (hsame ▸ hmore')
  · refine .inr ⟨hsame'.trans hsame, ?_⟩
    rcases hslot' with hslot' | hnone
    · rwa [hslot']
    · exact .inr hnone

theorem PublishesOrKeeps.length_le (h : s.PublishesOrKeeps t) :
    s.published.length ≤ t.published.length := by
  rcases h with hmore | ⟨hsame, -⟩
  · exact Nat.le_of_lt hmore
  · exact Nat.le_of_eq (by rw [hsame])

theorem length_publish (s : Course) (g : Nat) (state : SessionState) :
    (s.publish g state).published.length = s.published.length + 1 := by simp [publish]

theorem length_opens (h : s.Opens t next) : s.published.length ≤ t.published.length := by
  cases h with
  | reuse g h => exact Nat.le_refl _
  | launch h => simp [launch, publish]

theorem publishesOrKeeps_opens (h : s.Opens t next) : s.PublishesOrKeeps t := by
  cases h with
  | reuse g h => exact publishesOrKeeps_refl s
  | launch h => exact .inl (by simp [launch, publish])

/-- A start that is not over waits. -/
theorem starts_cases (h : s.Starts g t next) : s.published.length < t.published.length ∨
    t = s ∧ ∃ phase, next = .waits phase ∧ phase.startOf? = some g := by
  cases h with
  | waits phase h => exact .inr ⟨rfl, phase, rfl, h⟩
  | ready => exact .inl (by simp [ready, publish])
  | failed error => exact .inl (by simp [publish])

/-- A stop that is not over waits. -/
theorem stops_cases {operation : Operation} (h : s.Stops operation g t next) :
    s.published.length < t.published.length ∨
      t = s ∧ ∃ phase, next = .waits phase ∧ phase.stopOf? = some g := by
  cases h with
  | waits phase h => exact .inr ⟨rfl, phase, rfl, h⟩
  | stopped hop => exact .inl (by simp [publish])
  | restarts hop h =>
      have hle := length_opens h
      rw [length_publish] at hle
      exact .inl hle

theorem publishesOrKeeps_begins {operation : Operation} (h : s.Begins operation t next) :
    s.PublishesOrKeeps t := by
  cases h with
  | starts hop h => exact publishesOrKeeps_opens h
  | takes g phase hop h hphase => exact publishesOrKeeps_letGo s
  | idle hop h => exact publishesOrKeeps_refl s
  | restarts hop hstop h hopens => exact publishesOrKeeps_opens hopens

/-- What is pending stays so until something is published. -/
theorem pending_of_publishesOrKeeps (h : s.PublishesOrKeeps t) (hpending : s.IsPending) :
    s.published.length < t.published.length ∨ t.published = s.published ∧ t.IsPending := by
  rcases h with hmore | ⟨hsame, hslot⟩
  · exact .inl hmore
  · have hstatus : t.status = s.status := by rw [status, hsame, status]
    refine .inr ⟨hsame, ?_⟩
    rw [IsPending, hstatus]
    refine hpending.imp_right fun hready => ⟨hready.1, ?_⟩
    rcases hslot with hslot | hnone
    · rw [hslot, hready.2]
    · exact hnone

end Course

namespace Life

variable {l m : Life} {k g : Nat} {call : Call}

theorem publishesOrKeeps_turn (h : l.Turn k m) : l.course.PublishesOrKeeps m.course := by
  cases h with
  | begins call t next hcall hphase hholder hbegins =>
      rw [course_proceed]
      exact Course.publishesOrKeeps_begins hbegins
  | starts call n t next hcall hphase hstarts =>
      rw [course_proceed]
      exact (Course.starts_cases hstarts).imp_right fun h => ⟨by rw [h.1], .inl (by rw [h.1])⟩
  | stops call n t next hcall hphase hstops =>
      rw [course_proceed]
      exact (Course.stops_cases hstops).imp_right fun h => ⟨by rw [h.1], .inl (by rw [h.1])⟩

theorem publishesOrKeeps_tidy (l : Life) : l.course.PublishesOrKeeps l.tidy.course := by
  unfold tidy
  split
  · exact Course.publishesOrKeeps_refl _
  · exact Course.publishesOrKeeps_letGo _

/-- A step in which no turn is dropped publishes something, or leaves the status as it is. -/
theorem publishesOrKeeps_step (h : l.Step m) : l.course.PublishesOrKeeps m.course := by
  obtain ⟨l₂, ⟨l₁, hchanges, hend⟩, rfl⟩ := h
  refine Course.PublishesOrKeeps.trans ?_ (publishesOrKeeps_tidy l₂)
  rw [← (callChanges_keep hchanges).1]
  rcases hend with rfl | hchange
  · exact Course.publishesOrKeeps_refl _
  · cases hchange with
    | turn i hturn => exact publishesOrKeeps_turn hturn
    | lose n hslot => exact .inl (by simp [Course.publish, Course.letGo])

/-- A call that goes on with its turn publishes a status, or waits in the same turn. -/
theorem own_turn (hmoves : l.Turn k m) (hcall : l.calls[k]? = some call)
    (hturn : call.phase.turnOf? = some g) :
    l.course.published.length < m.course.published.length ∨
      ∃ call' : Call, m.calls[k]? = some call' ∧ call'.phase.turnOf? = some g := by
  have hself : call.phase.isTurn := by
    rw [Phase.isTurn, hturn]
    rfl
  rcases Phase.start_or_stop_of_isTurn hself with ⟨n, hn⟩ | ⟨n, hn⟩
  · obtain rfl : n = g := by
      rwa [Phase.turnOf?_of_startOf? hn, Option.some.injEq] at hturn
    obtain ⟨t, next, hstarts, rfl⟩ := turn_of_start hmoves hcall hn
    rw [course_proceed]
    rcases Course.starts_cases hstarts with hmore | ⟨-, phase, rfl, hphase⟩
    · exact .inl hmore
    · exact .inr ⟨_, getElem?_proceed hcall t _ _, Phase.turnOf?_of_startOf? hphase⟩
  · obtain rfl : n = g := by
      rwa [Phase.turnOf?_of_stopOf? hn, Option.some.injEq] at hturn
    obtain ⟨t, next, hstops, rfl⟩ := turn_of_stop hmoves hcall hn
    rw [course_proceed]
    rcases Course.stops_cases hstops with hmore | ⟨-, phase, rfl, hphase⟩
    · exact .inl hmore
    · exact .inr ⟨_, getElem?_proceed hcall t _ _, Phase.turnOf?_of_stopOf? hphase⟩

/-- **Who has its turn keeps it until a status is published.** -/
theorem turn_or_published (h : l.Step m) (hcall : l.calls[k]? = some call)
    (hturn : call.phase.turnOf? = some g) :
    l.course.published.length < m.course.published.length ∨
      ∃ call' : Call, m.calls[k]? = some call' ∧ call'.phase.turnOf? = some g := by
  have hself : call.phase.isTurn := by
    rw [Phase.isTurn, hturn]
    rfl
  obtain ⟨l₂, ⟨l₁, hchanges, hend⟩, rfl⟩ := h
  obtain ⟨hcourse, hkept⟩ := callChanges_keep hchanges
  have hcall₁ := hkept k call hcall (.inl hself)
  have htidy := (publishesOrKeeps_tidy l₂).length_le
  rw [tidy_calls, ← hcourse]
  rcases hend with rfl | hchange
  · exact .inr ⟨call, hcall₁, hturn⟩
  · cases hchange with
    | lose n hslot => exact .inl (Nat.lt_of_lt_of_le (by simp [Course.publish, Course.letGo]) htidy)
    | turn i hmoves =>
        by_cases hi : i = k
        · subst hi
          exact (own_turn hmoves hcall₁ hturn).imp_left fun hmore => Nat.lt_of_lt_of_le hmore htidy
        · exact .inr ⟨call, by rw [getElem?_turn hmoves hi]; exact hcall₁, hturn⟩

end Life

namespace Client

variable {c : Client} {k g : Nat} {call : Call}

/-! ### Who has still to publish a status -/

/-- A call has its turn with the session of a generation. -/
def HasTurn (c : Client) (k g : Nat) : Prop :=
  c.lock.holder? = some k ∧
    ∃ call : Call, c.calls[k]? = some call ∧ call.phase.turnOf? = some g

/-- A call has the lock for its turn, and whatever happens, as long as no turn is dropped, it does not
give the lock back before another status has been published. -/
def OwesStatus (c : Client) (k : Nat) : Prop :=
  ∃ g, c.HasTurn k g ∧ ∀ future : List Event, c.keepsTurns future →
    (c.run future).published.length = c.published.length → (c.run future).HasTurn k g

theorem hasTurn_of_turn (h : c.life.Orderly) (hcall : c.calls[k]? = some call)
    (hturn : call.phase.turnOf? = some g) : c.HasTurn k g :=
  ⟨(h.turn k call hcall (by rw [Phase.isTurn, hturn]; rfl)).1, call, hcall, hturn⟩

theorem publishesOrKeeps_event (h : c.life.Orderly) {event : Event}
    (hkeeps : c.dropsTurn event = false) :
    c.course.PublishesOrKeeps (c.step event).course :=
  Life.publishesOrKeeps_step (life_step h hkeeps)

theorem publishesOrKeeps_run (h : c.life.Orderly) {events : List Event}
    (hkeeps : c.keepsTurns events) : c.course.PublishesOrKeeps (c.run events).course := by
  induction events generalizing c with
  | nil => exact Course.publishesOrKeeps_refl _
  | cons event rest ih =>
      rw [keepsTurns, Bool.and_eq_true, Bool.not_eq_true'] at hkeeps
      exact (publishesOrKeeps_event h hkeeps.1).trans (ih (orderly_step h event) hkeeps.2)

/-- The induction is on the events to come: each of them leaves the turn to its call or publishes a
status, and what has been published stays. -/
theorem turn_run (h : c.life.Orderly) (hcall : c.calls[k]? = some call)
    (hturn : call.phase.turnOf? = some g) {future : List Event} (hkeeps : c.keepsTurns future)
    (hsame : (c.run future).published.length = c.published.length) :
    ∃ call' : Call, (c.run future).calls[k]? = some call' ∧ call'.phase.turnOf? = some g := by
  induction future generalizing c call with
  | nil => exact ⟨call, hcall, hturn⟩
  | cons event rest ih =>
      rw [keepsTurns, Bool.and_eq_true, Bool.not_eq_true'] at hkeeps
      have hnext := orderly_step h event
      have hfirst : c.published.length ≤ (c.step event).published.length :=
        (publishesOrKeeps_event h hkeeps.1).length_le
      have hlater : (c.step event).published.length ≤ (c.run (event :: rest)).published.length :=
        (publishesOrKeeps_run hnext hkeeps.2).length_le
      have hrest : (c.run (event :: rest)).published.length = (c.step event).published.length := by
        omega
      rcases Life.turn_or_published (life_step h hkeeps.1) hcall hturn with
        hmore | ⟨call', hcall', hturn'⟩
      · have hmore : c.published.length < (c.step event).published.length := hmore
        omega
      · exact ih hnext hcall' hturn' hkeeps.2 hrest

/-- **Who has its turn publishes a status before that ends.** -/
theorem owesStatus_of_turn (h : c.life.Orderly) (hcall : c.calls[k]? = some call)
    (hturn : call.phase.turnOf? = some g) : c.OwesStatus k := by
  refine ⟨g, hasTurn_of_turn h hcall hturn, fun future hkeeps hsame => ?_⟩
  obtain ⟨call', hcall', hturn'⟩ := turn_run h hcall hturn hkeeps hsame
  exact hasTurn_of_turn (orderly_run h future) hcall' hturn'

/-! ### What an event does to a call -/

/-- A call comes to another phase, and the others stay where they are. -/
theorem call_of_setPhase {i : Nat} {other call' : Call} {d : Client} {phase : Phase}
    (hother : c.calls[i]? = some other) (hcalls : d.calls = (c.setPhase i phase).calls)
    (hcall' : d.calls[k]? = some call') :
    c.calls[k]? = some call' ∨ i = k ∧ call' = { other with phase } := by
  rw [hcalls] at hcall'
  rcases Life.call_of_setPhase (l := c.life) hother hcall' with ⟨rfl, hself⟩ | ⟨-, hsame⟩
  · exact .inr ⟨rfl, hself⟩
  · exact .inl hsame

/-- A call is left as it is, comes, goes away or goes on; then it waits only for a reply that has not
come. -/
theorem call_of_step (h : c.life.Orderly) {event : Event} {call' : Call}
    (hcall' : (c.step event).calls[k]? = some call') :
    c.calls[k]? = some call' ∨ event = .invoke call'.operation ∧ call'.phase = .fresh ∨
      call'.phase = .dropped ∨
      ∃ call : Call, c.calls[k]? = some call ∧ call'.operation = call.operation ∧ event = .poll k ∧
        c.canGoOn k call.phase ∧ c.step event = (c.goOn k call.operation call.phase).tidy ∧
        call'.phase ≠ .fresh ∧ ∀ g id goal, call'.phase = .awaiting g id goal → c.IsNumbered →
          ((c.step event).link g).untaken? id = none := by
  have hact : (c.act event).calls[k]? = some call' := by
    rwa [step, show (c.act event).tidy.calls = (c.act event).calls from tidy_calls _] at hcall'
  -- Only a poll lets a call go on.
  by_cases hpoll : ∃ i, event = .poll i
  · obtain ⟨i, rfl⟩ := hpoll
    cases hother : c.calls[i]? with
    | none =>
        have hsame : c.act (.poll i) = c := by simp [act, poll, hother]
        exact .inl (hsame ▸ hact)
    | some other =>
        have hgo : c.act (.poll i) = _ := poll_eq hother
        by_cases hcan : c.canGoOn i other.phase
        · rw [if_pos hcan] at hgo
          rw [hgo] at hact
          rcases entersPhase_goOn h hother with ⟨phase, hcalls, hbegun, -, hawaits⟩ | hcalls
          · rcases call_of_setPhase hother hcalls hact with hsame | ⟨rfl, rfl⟩
            · exact .inl hsame
            · have hstep : c.step (.poll i) = (c.goOn i other.operation other.phase).tidy :=
                congrArg tidy hgo
              refine .inr (.inr (.inr ⟨other, hother, rfl, rfl, hcan, hstep, hbegun, ?_⟩))
              intro g id goal hphase hnumbered
              rw [hstep]
              exact Connection.untaken?_of_bringsNothing (bringsNothing_tidy _ g)
                (hawaits g id goal hphase hnumbered)
          · exact .inl (hcalls ▸ hact)
        · rw [if_neg hcan] at hgo
          exact .inl (hgo ▸ hact)
  · rcases calls_act c (fun i hi => hpoll ⟨i, hi⟩) with
      hcalls | ⟨operation, rfl, hcalls⟩ | ⟨i, other, hother, hcalls⟩
    · exact .inl (hcalls ▸ hact)
    · rw [hcalls, List.getElem?_append] at hact
      split at hact
      · exact .inl hact
      · obtain ⟨-, rfl⟩ := by simpa [List.getElem?_singleton] using hact
        exact .inr (.inl ⟨rfl, rfl⟩)
    · rcases call_of_setPhase hother hcalls hact with hsame | ⟨rfl, rfl⟩
      · exact .inl hsame
      · exact .inr (.inr (.inl rfl))

/-! ### Looking for a session -/

/-- What a caller comes to who looks for a session. -/
inductive IsLookResult (c : Client) : Phase → Prop
  | session (g : Nat) (h : c.session? = some g) : IsLookResult c (.finished (.session g))
  | later (h : c.course.IsPending) : IsLookResult c (.watching c.published.length)
  | nothing (hover : c.status.state = .failed ∨ c.status.state = .stopped) (hfree : c.lock.isFree) :
      IsLookResult c (.finished (.failed (noSession c.status)))
  | again (hheld : c.lock.isFree = false) : IsLookResult c .peeking

/-- Where a caller stands who waits for a session: it has not looked yet, a status has come since it
looked, it waits for the next one while there is nothing to tell, or it waits in line to look again.
-/
inductive IsWaiterPhase (c : Client) : Phase → Prop
  | fresh : IsWaiterPhase c .fresh
  | woken (seen : Nat) (h : seen < c.published.length) : IsWaiterPhase c (.watching seen)
  | pending (h : c.course.IsPending) : IsWaiterPhase c (.watching c.published.length)
  | peeking : IsWaiterPhase c .peeking
  | done (phase : Phase) (h : phase.isOver) : IsWaiterPhase c phase

/-- Every caller who waits for a session can be woken. -/
def WakesWaiters (c : Client) : Prop :=
  ∀ (k : Nat) (call : Call), c.calls[k]? = some call → call.operation = .ready →
    c.IsWaiterPhase call.phase

theorem look_isLookResult (c : Client) (k : Nat) : ∃ phase : Phase, c.IsLookResult phase ∧
    (c.look k).calls = (c.setPhase k phase).calls ∧ (c.look k).course = c.course := by
  unfold look
  split
  · rename_i g hstate hsession
    exact ⟨_, .session g hsession, rfl, rfl⟩
  · rename_i hstate hsession
    have hslot : c.slot = none := by simpa [session?, Status.isReady, hstate] using hsession
    exact ⟨_, .later (.inr ⟨hstate, hslot⟩), rfl, rfl⟩
  · rename_i hstate
    exact ⟨_, .later (.inl hstate), rfl, rfl⟩
  · rename_i hstarting hready hunready
    have hover : c.status.state = .failed ∨ c.status.state = .stopped := by
      cases hstate : c.status.state with
      | failed => exact .inl rfl
      | stopped => exact .inr rfl
      | starting => exact (hstarting hstate).elim
      | ready => cases hsession : c.session? with
          | none => exact (hunready hstate hsession).elim
          | some g => exact (hready g hstate hsession).elim
    split
    · rename_i hfree
      exact ⟨_, .nothing hover hfree, rfl, rfl⟩
    · rename_i hheld
      exact ⟨_, .again (by simpa using hheld), rfl, rfl⟩

/-- A caller who waits for a session goes on by looking for one, in line or not. -/
theorem goOn_looks {phase : Phase} (hphase : c.IsWaiterPhase phase) (hcan : c.canGoOn k phase) :
    ∃ lock : Lock, c.goOn k .ready phase = ({ c with lock } : Client).look k ∧
      (lock = c.lock ∧ phase.isInLine = false ∨
        lock = c.lock.leave k ∧ c.lock.holder? = some k) := by
  cases hphase with
  | fresh => exact ⟨c.lock, rfl, .inl ⟨rfl, rfl⟩⟩
  | woken seen h => exact ⟨c.lock, rfl, .inl ⟨rfl, rfl⟩⟩
  | pending h => exact ⟨c.lock, rfl, .inl ⟨rfl, rfl⟩⟩
  | peeking => exact ⟨c.lock.leave k, rfl, .inr ⟨rfl, by simpa [canGoOn] using hcan⟩⟩
  | done phase h => cases phase <;> simp_all [Phase.isOver, canGoOn]

/-- What is published meanwhile wakes a caller. -/
theorem isWaiterPhase_of_publishesOrKeeps {d : Client} {phase : Phase}
    (h : c.course.PublishesOrKeeps d.course)
    (hphase : c.IsWaiterPhase phase) : d.IsWaiterPhase phase := by
  cases hphase with
  | fresh => exact .fresh
  | woken seen hseen => exact .woken seen (Nat.lt_of_lt_of_le hseen h.length_le)
  | pending hpending =>
      rcases Course.pending_of_publishesOrKeeps h hpending with hmore | ⟨hsame, hstill⟩
      · exact .woken _ hmore
      · have hsame : d.published = c.published := hsame
        rw [← hsame]
        exact .pending hstill
  | peeking => exact .peeking
  | done phase h => exact .done phase h

/-- **Every step in which no turn is dropped leaves the callers where they can be woken.** -/
theorem wakesWaiters_step (h : c.life.Orderly) (hw : c.WakesWaiters) {event : Event}
    (hkeeps : c.dropsTurn event = false) : (c.step event).WakesWaiters := by
  have hcourse := publishesOrKeeps_event h hkeeps
  intro k call' hcall' hop
  rcases call_of_step h hcall' with hsame | ⟨-, hfresh⟩ | hdropped |
    ⟨call, hcall, hoperation, rfl, hcan, hstep, -⟩
  · exact isWaiterPhase_of_publishesOrKeeps hcourse (hw k call' hsame hop)
  · rw [hfresh]
    exact .fresh
  · rw [hdropped]
    exact .done _ rfl
  · rw [hop] at hoperation
    have hready : call.operation = .ready := hoperation.symm
    rw [hready] at hstep
    obtain ⟨lock, hgo, -⟩ := goOn_looks (hw k call hcall hready) hcan
    obtain ⟨phase, hfinds, hcalls, -⟩ := look_isLookResult { c with lock } k
    have hself : (c.step (.poll k)).calls[k]? = some { call with phase } := by
      rw [hstep, hgo, show (tidy _).calls = _ from tidy_calls _, hcalls]
      exact Life.getElem?_setPhase_self (l := c.life) hcall phase
    rw [hself, Option.some.injEq] at hcall'
    subst hcall'
    cases hfinds with
    | session g hsession => exact .done _ rfl
    | later hpending => exact isWaiterPhase_of_publishesOrKeeps hcourse (.pending hpending)
    | nothing hover hfree => exact .done _ rfl
    | again hheld => exact .peeking

theorem wakesWaiters_new (options : SessionOptions) (processId : Nat) (workspace : Workspace) :
    (Client.new options processId workspace).WakesWaiters := by
  intro k call hcall
  cases hcall

theorem wakesWaiters_reached (options : SessionOptions) (processId : Nat) (workspace : Workspace)
    {events : List Event} (hkeeps : (Client.new options processId workspace).keepsTurns events) :
    ((Client.new options processId workspace).run events).WakesWaiters :=
  run_of_keepsTurns (P := WakesWaiters) (fun _ _ h hw hkeeps => wakesWaiters_step h hw hkeeps)
    (orderly_new options processId workspace) (wakesWaiters_new options processId workspace) hkeeps

/-! ### What callers are told -/

/-- No other call has the lock or waits in line for it. -/
def IsAloneInLine (c : Client) (k : Nat) : Prop :=
  ∀ (i : Nat) (other : Call), i ≠ k → c.calls[i]? = some other → other.phase.isInLine = false

/-- What a caller is told of the latest status. -/
inductive AnswersWaiter (c : Client) (k : Nat) : Outcome → Prop
  /-- The session that is ready and owned. -/
  | session (g : Nat) (hstatus : c.status = ⟨g, .ready⟩) (hslot : c.slot = some g) :
      AnswersWaiter c k (.session g)
  /-- That the latest session has failed, when nobody is about to start another one. -/
  | failed (g : Nat) (hstatus : c.status = ⟨g, .failed⟩) (halone : c.IsAloneInLine k) :
      AnswersWaiter c k (.failed (.startFailed ("session " ++ toString g ++ " did not reach ready")))
  /-- That there is no session, when nobody is about to start one. -/
  | stopped (hstatus : c.status.state = .stopped) (halone : c.IsAloneInLine k) :
      AnswersWaiter c k (.failed .notRunning)

/-- Whoever finds the lock free, after having given it back or without having had it, is alone. -/
theorem alone_of_free (h : c.life.Orderly) {lock : Lock} (hfree : lock.isFree)
    (hlock : lock = c.lock ∨ lock = c.lock.leave k) : c.IsAloneInLine k := by
  intro i other hi hother
  rw [Bool.eq_false_iff]
  intro hline
  have hlined : c.lock.Orderly := h.lock
  have hmem : i ∈ c.lock.line := (h.line i).mpr ⟨other, hother, hline⟩
  rcases hlock with rfl | rfl
  · rw [Lock.line_eq_nil hlined hfree] at hmem
    cases hmem
  · have hempty := Lock.line_eq_nil (Lock.orderly_leave hlined k) hfree
    rw [Lock.line_leave hlined k, List.filter_eq_nil_iff] at hempty
    exact hempty i hmem (by simpa using hi)

/-- **What a caller who waits for a session is told.** -/
theorem told_of_outcome? (h : c.life.Orderly) (hw : c.WakesWaiters) (hcall : c.calls[k]? = some call)
    (hop : call.operation = .ready) (hopen : c.outcome? k = none) {event : Event}
    {outcome : Outcome} (hended : (c.step event).outcome? k = some outcome) :
    event = .poll k ∧ c.AnswersWaiter k outcome := by
  obtain ⟨hpoll, hcan, -, hgone⟩ := poll_of_outcome? h hcall hopen hended
  refine ⟨hpoll, ?_⟩
  obtain ⟨lock, hgo, hlock⟩ := goOn_looks (hw k call hcall hop) hcan
  obtain ⟨phase, hfinds, hcalls, -⟩ := look_isLookResult { c with lock } k
  rw [hop, hgo, outcome?_of_calls hcalls k] at hgone
  have hphase := outcome?_setPhase_self (c := { c with lock }) hcall hgone
  subst hphase
  cases hfinds with
  | session g hsession =>
      have hslot : c.slot = some g := by
        rw [← hsession]
        exact (Course.session?_of_owns h.owns).symm
      exact .session g (h.owns g hslot).1 hslot
  | nothing hover hfree =>
      have halone : c.IsAloneInLine k := alone_of_free h hfree (hlock.imp And.left And.left)
      change c.status.state = .failed ∨ c.status.state = .stopped at hover
      change c.AnswersWaiter k (.failed (noSession c.status))
      cases hstatus : c.status with
      | mk g state =>
          rw [hstatus] at hover
          rcases hover with hfailed | hstopped
          · have hfailed : state = .failed := hfailed
            subst hfailed
            exact .failed g hstatus halone
          · have hstopped : state = .stopped := hstopped
            subst hstopped
            exact .stopped (by rw [hstatus]) halone

/-! ### What callers wait for -/

/-- What a caller waits for who waits for a session. -/
inductive WaitsFor (c : Client) (k : Nat) : Phase → Prop
  /-- Its own beginning. -/
  | beginning : WaitsFor c k .fresh
  /-- Nothing: a status has come that it has not seen. -/
  | status (seen : Nat) (h : seen < c.published.length) : WaitsFor c k (.watching seen)
  /-- The lock, for which it is in line. -/
  | lock (h : k ∈ c.lock.line) : WaitsFor c k .peeking
  /-- The status that another call has still to publish, which has the lock. -/
  | turn (seen i : Nat) (hseen : seen = c.published.length) (hother : i ≠ k)
      (h : c.OwesStatus i) : WaitsFor c k (.watching seen)

/-- What is pending is owed to a call that has its turn. -/
theorem owesStatus_of_pending (h : c.life.Orderly) (hs : c.life.Standing []) (hheld : c.isHeld)
    (hpending : c.course.IsPending) : ∃ (i : Nat) (other : Call), c.calls[i]? = some other ∧
      other.phase.isTurn ∧ c.OwesStatus i := by
  have howes : ∀ {of : Phase → Option Nat} {g : Nat},
      (∀ phase : Phase, of phase = some g → phase.turnOf? = some g) → c.life.IsOwed [] of g →
      ∃ (i : Nat) (other : Call), c.calls[i]? = some other ∧ other.phase.isTurn ∧
        c.OwesStatus i := by
    intro of g hof howed
    rcases howed with ⟨i, other, hother, hphase⟩ | ⟨phase, hmem, -⟩
    · have hturn := hof _ hphase
      exact ⟨i, other, hother, by rw [Phase.isTurn, hturn]; rfl, owesStatus_of_turn h hother hturn⟩
    · cases hmem
  cases hstatus : c.status with
  | mk g state =>
      have hstatus : c.course.status = ⟨g, state⟩ := hstatus
      rw [Course.IsPending, hstatus] at hpending
      rcases hpending with hstarting | ⟨hready, hslot⟩
      · have hstarting : state = .starting := hstarting
        subst hstarting
        exact howes (fun _ => Phase.turnOf?_of_startOf?) (hs.starting g hstatus)
      · have hready : state = .ready := hready
        subst hready
        rcases hs.ready g hstatus with howned | hnobody | howed
        · have hslot' : c.life.course.slot = none := hslot
          rw [hslot'] at howned
          cases howned
        · rw [isHeld_eq_life, hnobody] at hheld
          cases hheld
        · exact howes (fun _ => Phase.turnOf?_of_stopOf?) howed

/-- **No caller who waits for a session is forgotten.** -/
theorem waitsFor_of_isWaiterPhase (h : c.life.Orderly) (hs : c.life.Standing [])
    (hcall : c.calls[k]? = some call) (hop : call.operation = .ready)
    (hopen : call.phase.isOver = false) (hstands : c.IsWaiterPhase call.phase) :
    c.WaitsFor k call.phase := by
  have hheld : c.isHeld := by
    rw [isHeld_eq_life]
    refine Life.isHeld_of_holdsClient hcall ?_
    simp [Call.holdsClient, hopen, hop]
  generalize hphase : call.phase = phase at hstands
  cases hstands with
  | fresh => exact .beginning
  | woken seen hseen => exact .status seen hseen
  | pending hpending =>
      obtain ⟨i, other, hother, hturn, howes⟩ := owesStatus_of_pending h hs hheld hpending
      refine .turn _ i rfl ?_ howes
      rintro rfl
      rw [hcall, Option.some.injEq] at hother
      rw [← hother, hphase] at hturn
      cases hturn
  | peeking => exact .lock ((h.line k).mpr ⟨call, hcall, by rw [hphase]; rfl⟩)
  | done _ hover =>
      rw [hphase, hover] at hopen
      cases hopen

/-- What callers who wait for a session can rely on. -/
structure ServesWaiters (c : Client) : Prop where
  /-- Whatever happens next, such a caller has an outcome only when it goes on itself, and then what
  it is told is so. -/
  told : ∀ (k : Nat) (call : Call), c.calls[k]? = some call → call.operation = .ready →
    c.outcome? k = none → ∀ (event : Event) (outcome : Outcome),
      (c.step event).outcome? k = some outcome → event = .poll k ∧ c.AnswersWaiter k outcome
  /-- As long as it has none, and has not gone away, there is something that it waits for. -/
  waits : ∀ (k : Nat) (call : Call), c.calls[k]? = some call → call.operation = .ready →
    call.phase.isOver = false → c.WaitsFor k call.phase

/-- **Callers who wait for a session are served.**  After any events that drop no turn, a caller is
handed the session that is ready at a moment at which it is also owned; it is told of a failure or of
no session only while that is the latest status and no other call has the lock or waits for it; and
until then it has a status to look at, a place in line, or somebody who has the lock and does not give
it back without publishing a status. -/
theorem waiters_are_served (options : SessionOptions) (processId : Nat) (workspace : Workspace)
    (events : List Event)
    (hkeeps : (Client.new options processId workspace).keepsTurns events) :
    ((Client.new options processId workspace).run events).ServesWaiters := by
  have h := orderly_reached options processId workspace events
  have hs := standing_reached options processId workspace events
  rw [droppedTurns_of_keepsTurns hkeeps] at hs
  have hw := wakesWaiters_reached options processId workspace hkeeps
  exact ⟨fun k call hcall hop hopen event outcome => told_of_outcome? h hw hcall hop hopen,
    fun k call hcall hop hopen =>
      waitsFor_of_isWaiterPhase h hs hcall hop hopen (hw k call hcall hop)⟩

/-- A caller sees the first start fail while a restart waits in line: it gets in line itself, and is
handed the session of the restart. -/
theorem waiter_behind_a_restart :
    let events : List Event := [.invoke .start, .poll 0, .invoke .restart, .poll 1, .invoke .ready,
      .poll 2, .launchFailed 1 .connectionClosed, .poll 0, .poll 2, .poll 1] ++ handshake 2 1
    let c := (Client.new {} 0 {}).run events
    (Client.new {} 0 {}).keepsTurns events ∧ c.ServesWaiters ∧
      ∃ outcome, (c.step (.poll 2)).outcome? 2 = some outcome ∧ c.AnswersWaiter 2 outcome := by
  intro events c
  have hkeeps : (Client.new {} 0 {}).keepsTurns events := by decide +kernel
  have hphaseOf : c.ServesWaiters := waiters_are_served {} 0 {} events hkeeps
  refine ⟨hkeeps, hphaseOf, ?_⟩
  have hends : ((c.operation? 2).any fun operation => operation matches .ready) ∧
      (c.outcome? 2).isNone ∧ ((c.step (.poll 2)).outcome? 2).isSome := by
    decide +kernel
  obtain ⟨hmatches, hnone, hsome⟩ := hends
  obtain ⟨operation, hoperation, hready⟩ := (Option.any_eq_true _ _).mp hmatches
  obtain ⟨call, hcall, rfl⟩ := Option.map_eq_some_iff.mp hoperation
  have hop : call.operation = .ready := by
    cases hop : call.operation <;> simp_all
  obtain ⟨outcome, houtcome⟩ := Option.isSome_iff_exists.mp hsome
  exact ⟨outcome, houtcome, (hphaseOf.told 2 call hcall hop (Option.isNone_iff_eq_none.mp hnone)
    (.poll 2) outcome houtcome).2⟩

end Client
end LanguageClient
