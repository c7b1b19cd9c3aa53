import LanguageClient.Proofs.Session.Chronicle
import LanguageClient.Proofs.Session.Queue

/-!
# What a turn comes to

From its beginning, a turn is bound to one generation: a start to the next one, a restart to the one
after the session that it stops.  Whatever happens meanwhile, no other generation is handed out.

* `Life.Bound` — a call has its turn and is bound to a generation, or it has ended.
* `Life.bound_step` — every step in which no turn is dropped keeps it.
* `Life.start_step` — a call that starts a session is the only one to launch a server.
* `Client.beginsTurn`, `Client.poll_of_beginsTurn` — the beginning of a turn.
* **`Client.outcome?_of_bound`** — the generation that a call ends with.
-/

namespace LanguageClient

/-! ### The generation of a turn -/

/-- A call in its turn will end with the session of a generation or with none, or has done so. -/
inductive Phase.IsBound (g : Nat) : Phase → Prop
  | starts (phase : Phase) (h : phase.startOf? = some g) : IsBound g phase
  | stops (phase : Phase) (n : Nat) (h : phase.stopOf? = some n) (hg : g = n + 1) : IsBound g phase
  | ends (outcome : Outcome) (h : ∀ n, outcome = .session n → n = g) : IsBound g (.finished outcome)

/-- The phase to which a call comes by what is next in its turn. -/
def Next.phase (operation : Operation) : Next → Phase
  | waits phase => phase
  | ends outcome => .finished (operation.concluded outcome)

theorem Phase.isBound_over (operation : Operation) {outcome : Outcome} {g : Nat}
    (h : ∀ n, outcome = .session n → n = g) :
    Phase.IsBound g ((Next.ends outcome).phase operation) := by
  refine .ends _ ?_
  intro n hn
  cases operation with
  | activate => cases hn
  | command id args reported => cases hn
  | _ => exact h n hn

namespace Course

variable {s t : Course} {g : Nat} {next : Next}

/-- A start that finds no session launches the next generation. -/
theorem isBound_opens (operation : Operation) (hslot : s.session? = none) (h : s.Opens t next) :
    (next.phase operation).IsBound (s.generation + 1) := by
  cases h with
  | reuse g h =>
      rw [hslot] at h
      cases h
  | launch h => exact .starts _ rfl

theorem isBound_starts (operation : Operation) (h : s.Starts g t next) :
    (next.phase operation).IsBound g := by
  cases h with
  | waits phase h => exact .starts phase h
  | ready => exact Phase.isBound_over operation fun n hn => by injection hn with hn; exact hn.symm
  | failed error => exact Phase.isBound_over operation fun n hn => by cases hn

theorem isBound_stops {operation : Operation} (hs : s.IsStopping g)
    (h : s.Stops operation g t next) : (next.phase operation).IsBound (g + 1) := by
  cases h with
  | waits phase h => exact .stops phase g h rfl
  | stopped hop => exact Phase.isBound_over operation fun n hn => by cases hn
  | restarts hop h =>
      -- What has just been published as stopped is not ready.
      have hsession : (s.publish g .stopped).session? = none := by
        simp [session?, Status.isReady]
      have hbound := isBound_opens operation hsession h
      rwa [hs.generation]

/-- A turn that begins with a stop is bound to the next generation. -/
theorem isBound_begins {operation : Operation} (hs : s.Owns) (hop : operation.isStart = false)
    (h : s.Begins operation t next) : (next.phase operation).IsBound (s.generation + 1) := by
  cases h with
  | starts hop' h =>
      rw [hop] at hop'
      cases hop'
  | takes g phase hop h hphase => exact .stops phase g hphase (by rw [(hs g h).2])
  | idle hop h => exact Phase.isBound_over operation fun n hn => by cases hn
  | restarts hop hstop h hopens =>
      exact isBound_opens operation (by rw [session?_of_owns hs, h]) hopens

end Course

/-! ### One step -/

namespace Life

variable {l m : Life} {k g : Nat} {call : Call}

/-- A call has its turn and is bound to a generation, or it has ended. -/
def Bound (l : Life) (k g : Nat) : Prop :=
  ∃ call : Call, l.calls[k]? = some call ∧ call.phase.IsBound g

theorem isTurn_or_isOver {phase : Phase} (h : phase.IsBound g) : phase.isTurn ∨ phase.isOver := by
  cases h with
  | starts phase h => exact .inl (Phase.isTurn_of_startOf? h)
  | stops phase n h hg => exact .inl (Phase.isTurn_of_stopOf? h)
  | ends outcome h => exact .inr rfl

theorem getElem?_proceed (hcall : l.calls[k]? = some call) (t : Course) (operation : Operation)
    (next : Next) : ({ l with course := t }.proceed k operation next).calls[k]? =
      some { call with phase := next.phase operation } := by
  cases next with
  | waits phase => exact getElem?_setPhase_self (l := { l with course := t }) hcall phase
  | ends outcome => exact getElem?_setPhase_self (l := l) hcall _

theorem getElem?_proceed_ne {i : Nat} (h : k ≠ i) (t : Course) (operation : Operation)
    (next : Next) : ({ l with course := t }.proceed k operation next).calls[i]? = l.calls[i]? := by
  cases next with
  | waits phase => exact getElem?_setPhase_ne { l with course := t } h phase
  | ends outcome => exact getElem?_setPhase_ne l h _

/-- The turn of one call leaves the others alone. -/
theorem getElem?_turn {i : Nat} (h : l.Turn k m) (hne : k ≠ i) : m.calls[i]? = l.calls[i]? := by
  cases h with
  | begins other t next hother hphase hholder hbegins => exact getElem?_proceed_ne hne t _ next
  | starts other n t next hother hphase hstarts => exact getElem?_proceed_ne hne t _ next
  | stops other n t next hother hphase hstops => exact getElem?_proceed_ne hne t _ next

/-- A call in a start goes on with it. -/
theorem turn_of_start (h : l.Turn k m) (hcall : l.calls[k]? = some call)
    (hphase : call.phase.startOf? = some g) :
    ∃ (t : Course) (next : Next), l.course.Starts g t next ∧
      m = { l with course := t }.proceed k call.operation next := by
  cases h with
  | begins other t next hother hqueued hholder hbegins =>
      rw [hcall, Option.some.injEq] at hother
      rw [hother, hqueued] at hphase
      cases hphase
  | starts other n t next hother hstart hstarts =>
      rw [hcall, Option.some.injEq] at hother
      rw [← hother, hphase, Option.some.injEq] at hstart
      subst hother hstart
      exact ⟨t, next, hstarts, rfl⟩
  | stops other n t next hother hstop hstops =>
      rw [hcall, Option.some.injEq] at hother
      rw [← hother, Phase.stopOf?_of_startOf? hphase] at hstop
      cases hstop

/-- A call in a stop goes on with it. -/
theorem turn_of_stop (h : l.Turn k m) (hcall : l.calls[k]? = some call)
    (hphase : call.phase.stopOf? = some g) :
    ∃ (t : Course) (next : Next), l.course.Stops call.operation g t next ∧
      m = { l with course := t }.proceed k call.operation next := by
  cases h with
  | begins other t next hother hqueued hholder hbegins =>
      rw [hcall, Option.some.injEq] at hother
      rw [hother, hqueued] at hphase
      cases hphase
  | starts other n t next hother hstart hstarts =>
      rw [hcall, Option.some.injEq] at hother
      rw [hother, Phase.stopOf?_of_startOf? hstart] at hphase
      cases hphase
  | stops other n t next hother hstop hstops =>
      rw [hcall, Option.some.injEq] at hother
      rw [← hother, hphase, Option.some.injEq] at hstop
      subst hother hstop
      exact ⟨t, next, hstops, rfl⟩

/-- A call that is over takes no turn. -/
theorem not_turn_of_over (hcall : l.calls[k]? = some call) (hover : call.phase.isOver) :
    ¬ l.Turn k m := by
  intro h
  have hout : ∀ other : Call, l.calls[k]? = some other → other.phase.isOver := by
    intro other hother
    rw [hcall, Option.some.injEq] at hother
    rwa [← hother]
  cases h with
  | begins other t next hother hqueued hholder hbegins =>
      have hover' := hout other hother
      rw [hqueued] at hover'
      cases hover'
  | starts other n t next hother hstart hstarts =>
      have hover' := hout other hother
      cases hphase : other.phase <;> simp_all [Phase.isOver, Phase.startOf?]
  | stops other n t next hother hstop hstops =>
      have hover' := hout other hother
      cases hphase : other.phase <;> simp_all [Phase.isOver, Phase.stopOf?]

/-- A bound call that has its turn stays bound. -/
theorem bound_turn (h : l.Orderly) (hm : l.Turn k m) (hb : l.Bound k g) : m.Bound k g := by
  obtain ⟨call, hcall, hbound⟩ := hb
  generalize hphase : call.phase = phase at hbound
  cases hbound with
  | starts _ hstart =>
      rw [← hphase] at hstart
      obtain ⟨t, next, hstarts, rfl⟩ := turn_of_start hm hcall hstart
      exact ⟨_, getElem?_proceed hcall t _ next, Course.isBound_starts _ hstarts⟩
  | stops _ n hstop hg =>
      -- The session that is stopped is the latest one, so the next start has the next number.
      rw [← hphase] at hstop
      obtain ⟨t, next, hstops, rfl⟩ := turn_of_stop hm hcall hstop
      have hmatches := (h.turn k call hcall (Phase.isTurn_of_stopOf? hstop)).2
      subst hg
      exact ⟨_, getElem?_proceed hcall t _ next,
        Course.isBound_stops (hmatches.stopping n hstop) hstops⟩
  | ends outcome ho =>
      exact absurd hm (not_turn_of_over hcall (by rw [hphase]; rfl))

theorem tidy_calls (l : Life) : l.tidy.calls = l.calls := by
  unfold tidy
  split <;> rfl

/-- A call that has its turn or is over is left alone by a step, or its turn goes on. -/
theorem step_cases (h : l.Orderly) (hm : l.Step m) (hcall : l.calls[k]? = some call)
    (hkept : call.phase.isTurn ∨ call.phase.isOver) :
    m.calls[k]? = some call ∨ ∃ l₁ l₂ : Life, l₁.Orderly ∧ l₁.calls[k]? = some call ∧
      l₁.Turn k l₂ ∧ m = l₂.tidy := by
  obtain ⟨l₂, ⟨l₁, hchanges, hend⟩, rfl⟩ := hm
  have hcall₁ := (callChanges_keep hchanges).2 k call hcall hkept
  rw [tidy_calls]
  -- A change to other calls leaves the call alone, and so does the turn of another one.
  rcases hend with rfl | hchange
  · exact .inl hcall₁
  · cases hchange with
    | turn i hturn =>
        by_cases hi : i = k
        · subst hi
          exact .inr ⟨l₁, l₂, orderly_callChanges h hchanges, hcall₁, hturn, rfl⟩
        · left
          rw [getElem?_turn hturn hi]
          exact hcall₁
    | lose n hslot => exact .inl hcall₁

/-- A step in which no turn is dropped leaves a bound call bound. -/
theorem bound_step (h : l.Orderly) (hm : l.Step m) (hb : l.Bound k g) : m.Bound k g := by
  obtain ⟨call, hcall, hbound⟩ := hb
  rcases step_cases h hm hcall (isTurn_or_isOver hbound) with
    hkept | ⟨l₁, l₂, h₁, hcall₁, hturn, rfl⟩
  · exact ⟨call, hkept, hbound⟩
  · obtain ⟨call', hcall', hbound'⟩ := bound_turn h₁ hturn ⟨call, hcall₁, hbound⟩
    exact ⟨call', by rw [tidy_calls]; exact hcall', hbound'⟩

/-- While a call starts a session nothing is launched; then it has ended. -/
theorem start_step (h : l.Orderly) (hm : l.Step m) (hcall : l.calls[k]? = some call)
    (hphase : call.phase.startOf? = some g) :
    m.course.launches = l.course.launches ∧ ∃ phase : Phase,
      m.calls[k]? = some { call with phase } ∧
        (phase.startOf? = some g ∨ ∃ outcome, phase = .finished outcome) := by
  -- Another launch would need that nothing is being started.
  have hlaunches : m.course.launches = l.course.launches := by
    rcases (step_launches h hm).1 with hsame | ⟨-, hnone⟩
    · exact hsame
    · rw [hnone k call hcall] at hphase
      cases hphase
  refine ⟨hlaunches, ?_⟩
  rcases step_cases h hm hcall (.inl (Phase.isTurn_of_startOf? hphase)) with
    hkept | ⟨l₁, l₂, h₁, hcall₁, hturn, rfl⟩
  · exact ⟨call.phase, hkept, .inl hphase⟩
  · obtain ⟨t, next, hstarts, rfl⟩ := turn_of_start hturn hcall₁ hphase
    refine ⟨next.phase call.operation, ?_, ?_⟩
    · rw [tidy_calls]
      exact getElem?_proceed hcall₁ t _ next
    · cases hstarts with
      | waits phase hstart => exact .inl hstart
      | ready => exact .inr ⟨_, rfl⟩
      | failed error => exact .inr ⟨_, rfl⟩

theorem over_step (h : l.Orderly) (hm : l.Step m) (hcall : l.calls[k]? = some call)
    (hover : call.phase.isOver) : m.calls[k]? = some call := by
  rcases step_cases h hm hcall (.inr hover) with hkept | ⟨l₁, l₂, -, hcall₁, hturn, -⟩
  · exact hkept
  · exact absurd hturn (not_turn_of_over hcall₁ hover)

/-- Every generation so far has been launched, one after the other. -/
def Counted (l : Life) : Prop := l.course.launches = List.range' 1 l.course.generation

end Life

namespace Course

variable {s t : Course} {g : Nat} {next : Next}

/-- Nothing is counted, or one generation is. -/
def CountsOn (s t : Course) : Prop :=
  t.launches = s.launches ∧ t.generation = s.generation ∨
    t.launches = s.launches ++ [s.generation + 1] ∧ t.generation = s.generation + 1

theorem countsOn_opens (h : s.Opens t next) : s.CountsOn t := by
  cases h with
  | reuse g h => exact .inl ⟨rfl, rfl⟩
  | launch h => exact .inr ⟨rfl, rfl⟩

theorem countsOn_starts (h : s.Starts g t next) : s.CountsOn t := by
  cases h <;> exact .inl ⟨rfl, rfl⟩

theorem countsOn_stops {operation : Operation} (h : s.Stops operation g t next) :
    s.CountsOn t := by
  cases h with
  | waits phase h => exact .inl ⟨rfl, rfl⟩
  | stopped hop => exact .inl ⟨rfl, rfl⟩
  | restarts hop h => exact countsOn_opens (s := s.publish g .stopped) h

theorem countsOn_begins {operation : Operation} (h : s.Begins operation t next) :
    s.CountsOn t := by
  cases h with
  | starts hop h => exact countsOn_opens h
  | takes g phase hop h hphase => exact .inl ⟨rfl, rfl⟩
  | idle hop h => exact .inl ⟨rfl, rfl⟩
  | restarts hop hstop h hopens => exact countsOn_opens hopens

end Course

namespace Life

variable {l m : Life} {k g : Nat} {call : Call}

theorem countsOn_turn (h : l.Turn k m) : l.course.CountsOn m.course := by
  cases h with
  | begins call t next hcall hphase hholder hbegins =>
      rw [course_proceed]
      exact Course.countsOn_begins hbegins
  | starts call n t next hcall hphase hstarts =>
      rw [course_proceed]
      exact Course.countsOn_starts hstarts
  | stops call n t next hcall hphase hstops =>
      rw [course_proceed]
      exact Course.countsOn_stops hstops

theorem countsOn_step (h : l.Step m) : l.course.CountsOn m.course := by
  obtain ⟨l₂, ⟨l₁, hchanges, hend⟩, rfl⟩ := h
  have hmoves : l.course.CountsOn l₂.course := by
    rw [← (callChanges_keep hchanges).1]
    rcases hend with rfl | hchange
    · exact .inl ⟨rfl, rfl⟩
    · cases hchange with
      | turn k hturn => exact countsOn_turn hturn
      | lose g hslot => exact .inl ⟨rfl, rfl⟩
  unfold tidy
  split <;> exact hmoves

theorem counted_step (hl : l.Counted) (h : l.Step m) : m.Counted := by
  unfold Counted at hl ⊢
  rcases countsOn_step h with ⟨hlaunches, hgeneration⟩ | ⟨hlaunches, hgeneration⟩
  · rw [hlaunches, hgeneration, hl]
  · rw [hlaunches, hgeneration, hl, List.range'_1_concat, Nat.add_comm]

end Life

/-! ### Clients -/

namespace Client

variable {c : Client} {k g : Nat} {call : Call}

theorem bound_run (h : c.life.Orderly) (hb : c.life.Bound k g) {events : List Event}
    (hkeeps : c.keepsTurns events) : (c.run events).life.Bound k g := by
  refine run_of_keepsTurns (P := fun c => c.life.Bound k g) ?_ h hb hkeeps
  intro c event h hb hkeeps
  exact Life.bound_step h (life_step h hkeeps) hb

/-- A bound call hands out no generation but its own. -/
theorem outcome?_of_bound (hb : c.life.Bound k g) {n : Nat}
    (houtcome : c.outcome? k = some (.session n)) : n = g := by
  obtain ⟨call, hcall, hbound⟩ := hb
  have hcall' : c.calls[k]? = some call := hcall
  unfold outcome? at houtcome
  rw [hcall', Option.map_some] at houtcome
  generalize hphase : call.phase = phase at hbound
  rw [hphase] at houtcome
  cases hbound with
  | starts _ h => cases phase <;> simp_all [Phase.startOf?]
  | stops _ i h hg => cases phase <;> simp_all [Phase.stopOf?]
  | ends outcome h => exact h n (by simpa using houtcome)

theorem counted_run (h : c.life.Orderly) (hc : c.life.Counted) {events : List Event}
    (hkeeps : c.keepsTurns events) : (c.run events).life.Counted := by
  refine run_of_keepsTurns (P := fun c => c.life.Counted) ?_ h hc hkeeps
  intro c event h hc hkeeps
  exact Life.counted_step hc (life_step h hkeeps)

/-- A call starts a session and nothing has been launched since, or it has ended. -/
def Starting (c : Client) (k g : Nat) (launches : List Nat) : Prop :=
  ∃ call : Call, c.calls[k]? = some call ∧
    (call.phase.startOf? = some g ∧ c.launches = launches ∨
      ∃ outcome, call.phase = .finished outcome)

theorem starting_step {launches : List Nat} (h : c.life.Orderly) (hs : c.Starting k g launches)
    {event : Event} (hkeeps : c.dropsTurn event = false) :
    (c.step event).Starting k g launches := by
  have hstep := life_step h hkeeps
  obtain ⟨call, hcall, ⟨hphase, hlaunches⟩ | ⟨outcome, hphase⟩⟩ := hs
  · obtain ⟨hsame, phase, hcall', hend⟩ := Life.start_step h hstep hcall hphase
    exact ⟨_, hcall', hend.imp_left fun hstart => ⟨hstart, hsame.trans hlaunches⟩⟩
  · exact ⟨call, Life.over_step h hstep hcall (by rw [hphase]; rfl), .inr ⟨outcome, hphase⟩⟩

theorem starting_run {launches : List Nat} (h : c.life.Orderly) (hs : c.Starting k g launches)
    {events : List Event} (hkeeps : c.keepsTurns events) :
    (c.run events).Starting k g launches :=
  run_of_keepsTurns (fun _ _ h hs hkeeps => starting_step h hs hkeeps) h hs hkeeps

/-- Until a start has ended nothing is launched, nor by the event that ends it. -/
theorem launches_of_starting {launches : List Nat} (h : c.life.Orderly)
    (hs : c.Starting k g launches) (hopen : c.outcome? k = none) {event : Event}
    (hkeeps : c.dropsTurn event = false) : (c.step event).launches = launches := by
  obtain ⟨call, hcall, ⟨hphase, hlaunches⟩ | ⟨outcome, hphase⟩⟩ := hs
  · exact (Life.start_step h (life_step h hkeeps) hcall hphase).1.trans hlaunches
  · simp [outcome?, hcall, hphase] at hopen

/-! ### The beginning of a turn -/

/-- Whether a call begins its turn when it is polled. -/
def beginsTurn (c : Client) (k : Nat) : Bool :=
  c.calls[k]?.any fun call => call.operation.takesTurn &&
    (!call.phase.hasBegun && c.lock.isFree || call.phase.isQueued && c.lock.holder? = some k)

theorem poll_of_beginsTurn (hcall : c.calls[k]? = some call) (hbegins : c.beginsTurn k) :
    call.operation.takesTurn ∧ (call.phase = .fresh ∨ call.phase = .queued) ∧
      ∃ lock : Lock, lock.holder? = some k ∧
        c.poll k = proceed k (({ c with lock } : Client).beginTurn call.operation) := by
  obtain ⟨hop, hphase⟩ : call.operation.takesTurn = true ∧
      (call.phase.hasBegun = false ∧ c.lock.isFree = true ∨
        call.phase.isQueued = true ∧ c.lock.holder? = some k) := by
    simpa [beginsTurn, hcall] using hbegins
  refine ⟨hop, ?_⟩
  rw [poll_eq hcall]
  rcases hphase with ⟨hbegun, hfree⟩ | ⟨hqueued, hholder⟩
  · have hphase : call.phase = .fresh := by
      cases hphase : call.phase <;> simp_all [Phase.hasBegun]
    refine ⟨.inl hphase, c.lock.acquire k, Lock.holder?_acquire_of_free hfree k, ?_⟩
    have hcan : c.canGoOn k call.phase := by rw [hphase]; rfl
    rw [if_pos hcan, hphase, ← askTurn_of_free hfree, ← beginCall_of_takesTurn hop]
    rfl
  · have hphase : call.phase = .queued := by
      cases hphase : call.phase <;> simp_all [Phase.isQueued]
    refine ⟨.inr hphase, c.lock, hholder, ?_⟩
    rw [hphase]
    simp [canGoOn, hholder, goOn]

/-- A turn that is over as soon as it begins. -/
theorem step_of_over (hcall : c.calls[k]? = some call) (hbegins : c.beginsTurn k)
    {outcome : Outcome}
    (hover : ∀ lock : Lock, ({ c with lock } : Client).beginTurn call.operation =
      ({ c with lock }, .ends outcome)) :
    ∃ lock : Lock, c.step (.poll k) = (({ c with lock } : Client).finish k outcome).tidy := by
  obtain ⟨hop, -, lock, -, hpoll⟩ := poll_of_beginsTurn hcall hbegins
  refine ⟨lock.leave k, ?_⟩
  rw [step, act, hpoll, hover lock]
  exact congrArg tidy (conclude_of_takesTurn (c := { c with lock }) hcall hop outcome)

theorem outcome?_of_over (hcall : c.calls[k]? = some call) (hbegins : c.beginsTurn k)
    {outcome : Outcome}
    (hover : ∀ lock : Lock, ({ c with lock } : Client).beginTurn call.operation =
      ({ c with lock }, .ends outcome)) :
    (c.step (.poll k)).outcome? k = some outcome ∧ (c.step (.poll k)).journal = c.journal := by
  obtain ⟨lock, hstep⟩ := step_of_over hcall hbegins hover
  rw [hstep]
  refine ⟨?_, journal_tidy _⟩
  simp [outcome?, finish, setPhase, hcall]

/-- A start that finds a session ready ends with it at once, and nothing can be seen of it. -/
theorem start_of_session? (hcall : c.calls[k]? = some call) (hop : call.operation = .start)
    (hbegins : c.beginsTurn k) (hsession : c.session? = some g) :
    (c.step (.poll k)).outcome? k = some (.session g) ∧
      (c.step (.poll k)).journal = c.journal := by
  refine outcome?_of_over hcall hbegins fun lock => ?_
  have hsession' : ({ c with lock } : Client).session? = some g := hsession
  rw [hop]
  simp only [beginTurn, startLocked, hsession']

/-- The life of a client after a turn has begun. -/
theorem life_of_beginsTurn (hcall : c.calls[k]? = some call) (hbegins : c.beginsTurn k) :
    ∃ (l : Life) (t : Course) (next : Next), l.calls[k]? = some call ∧
      c.course.Begins call.operation t next ∧
      (c.step (.poll k)).life = ({ l with course := t }.proceed k call.operation next).tidy := by
  obtain ⟨hop, hphase, lock, hholder, hpoll⟩ := poll_of_beginsTurn hcall hbegins
  refine ⟨({ c with lock } : Client).life, _, _, hcall,
    begins_beginTurn { c with lock } call.operation, ?_⟩
  rw [step, life_tidy, act, hpoll, life_proceed (local_beginTurn _) (c := { c with lock }) hcall]

/-- Any other start launches the next generation. -/
theorem start_of_no_session (hcall : c.calls[k]? = some call) (hop : call.operation = .start)
    (hbegins : c.beginsTurn k) (hsession : c.session? = none) :
    (c.step (.poll k)).Starting k (c.generation + 1) (c.launches ++ [c.generation + 1]) ∧
      (c.step (.poll k)).launches = c.launches ++ [c.generation + 1] ∧
      (c.step (.poll k)).life.Bound k (c.generation + 1) := by
  obtain ⟨l, t, next, hl, hbegin, hlife⟩ := life_of_beginsTurn hcall hbegins
  have hlaunch : t = c.course.launch ∧ next = .waits (.launching (c.generation + 1)) := by
    rw [hop] at hbegin
    cases hbegin with
    | starts hop h =>
        cases h with
        | reuse g h =>
            rw [← session?_eq_course, hsession] at h
            cases h
        | launch h => exact ⟨rfl, rfl⟩
    | takes g phase hop h hphase => cases hop
    | idle hop h => cases hop
    | restarts hop hstop h hopens => cases hop
  obtain ⟨rfl, rfl⟩ := hlaunch
  have hself : (c.step (.poll k)).calls[k]? =
      some { call with phase := .launching (c.generation + 1) } := by
    have hcalls := congrArg Life.calls hlife
    rw [Life.tidy_calls] at hcalls
    rw [show (c.step (.poll k)).calls = _ from hcalls]
    exact Life.getElem?_proceed hl _ _ _
  have hlaunches : (c.step (.poll k)).launches = c.launches ++ [c.generation + 1] := by
    have hcourse := congrArg (fun l : Life => l.course.launches) hlife
    rw [show (c.step (.poll k)).launches = _ from hcourse]
    unfold Life.tidy
    split <;> rfl
  exact ⟨⟨_, hself, .inl ⟨rfl, hlaunches⟩⟩, hlaunches, ⟨_, hself, .starts _ rfl⟩⟩

/-- A restart is bound to the next generation. -/
theorem restart_of_beginsTurn (h : c.life.Orderly) (hcall : c.calls[k]? = some call)
    (hop : call.operation = .restart) (hbegins : c.beginsTurn k) :
    (c.step (.poll k)).life.Bound k (c.generation + 1) := by
  obtain ⟨l, t, next, hl, hbegin, hlife⟩ := life_of_beginsTurn hcall hbegins
  have hbound := Course.isBound_begins h.owns (by rw [hop]; rfl) hbegin
  rw [hlife]
  refine ⟨{ call with phase := next.phase call.operation }, ?_, hbound⟩
  rw [Life.tidy_calls]
  exact Life.getElem?_proceed hl t _ next

theorem any_modify {calls : List Call} {p : Call → Bool} {f : Call → Call}
    (hcall : calls[k]? = some call) (h : p (f call) = p call) :
    (calls.modify k f).any p = calls.any p := by
  have hmap : (calls.modify k f).map p = calls.map p := by
    refine List.ext_getElem? ?_
    intro i
    simp only [List.getElem?_map, List.getElem?_modify]
    by_cases hi : k = i
    · subst hi
      simp [hcall, h]
    · simp [hi]
  have hany : ∀ calls : List Call, calls.any p = (calls.map p).any id := by simp
  rw [hany, hmap, ← hany]

/-- What nobody kept before, nobody keeps when a call has ended that kept nothing. -/
theorem tidy_finish (htidy : c.tidy = c) (hslot : c.slot = none) (hcall : c.calls[k]? = some call)
    (hphase : call.phase.connection? = none) (lock : Lock) (outcome : Outcome) :
    (({ c with lock } : Client).finish k outcome).tidy =
      ({ c with lock } : Client).finish k outcome := by
  have hdisown : ∀ d : Client, d.slot = none → d.disown = d := by
    intro d hd
    unfold disown
    split
    · rfl
    · rw [← hd]
  have hkeeps : ∀ g, (({ c with lock } : Client).finish k outcome).keepsConnection g =
      c.keepsConnection g := by
    intro g
    have hover : (Phase.finished outcome).connection? = none := rfl
    exact congrArg (decide (c.slot = some g) || ·)
      (any_modify (p := fun call => call.phase.connection? = some g) hcall (by simp [hphase, hover]))
  have hattempts : (c.attempts.mapIdx fun i a =>
      if c.keepsConnection (i + 1) then a else discard a) = c.attempts := by
    rw [tidy_eq_sweep, hdisown c hslot] at htidy
    exact congrArg Client.attempts htidy
  rw [tidy_eq_sweep, hdisown (({ c with lock } : Client).finish k outcome) hslot]
  unfold sweep
  simp only [hkeeps]
  exact congrArg (fun attempts => { ({ c with lock } : Client).finish k outcome with attempts })
    hattempts

/-- A stop that finds no session changes nothing but that it has ended. -/
theorem stop_of_no_slot (htidy : c.tidy = c) (hcall : c.calls[k]? = some call)
    (hop : call.operation = .stop) (hbegins : c.beginsTurn k) (hslot : c.slot = none) :
    (c.step (.poll k)).outcome? k = some .done ∧
      c.step (.poll k) = c.amid (c.step (.poll k)) := by
  have hover : ∀ lock : Lock, ({ c with lock } : Client).beginTurn call.operation =
      ({ c with lock }, .ends .done) := by
    intro lock
    rw [hop]
    simp only [beginTurn, stopLocked, hslot, afterStop]
  obtain ⟨-, hphase, -⟩ := poll_of_beginsTurn hcall hbegins
  obtain ⟨lock, hstep⟩ := step_of_over hcall hbegins hover
  have hconnection : call.phase.connection? = none := by
    rcases hphase with hphase | hphase <;> rw [hphase] <;> rfl
  refine ⟨(outcome?_of_over hcall hbegins hover).1, ?_⟩
  rw [hstep, tidy_finish htidy hslot hcall hconnection]
  rfl

end Client
end LanguageClient
