import LanguageClient.Proofs.Session.Handing
import LanguageClient.Proofs.Session.DispatchStep
import LanguageClient.Proofs.Session.Turns

/-!
# Where the sessions stand when callers go away

A start and a stop each change the status and the slot in different steps, and between them the
caller may go away.  In every order of events, also one that drops turns, a status that is neither
followed by the slot nor an end is owed to a call that has its turn, or to a turn that was dropped.

* `Client.droppedTurns` — the phases in which the turns of a run were dropped.
* `Life.Standing` — the invariant: who the latest status is owed to.
* `Life.standing_step`, `Life.standing_dropped`, `Client.standing_run` — every event keeps it.
* **`Client.ready_without_a_session`** — when the status is ready and nothing is handed out, and
  what hooks see of it.
* `Client.isSettled_of_keepsTurns`, **`Client.standing_of_free_lock`** — the status and the slot while
  nobody has the lock, in runs that drop no turn and in all runs.
-/

namespace LanguageClient

/-! ### What comes next tells who the status is owed to -/

namespace Course

/-- A status that is not an end agrees with the slot, or the call that has its turn goes on with the
session of that status. -/
structure CarriesStatus (s : Course) (next : Next) : Prop where
  starting : ∀ g, s.status = ⟨g, .starting⟩ →
    ∃ phase, next = .waits phase ∧ phase.startOf? = some g
  ready : ∀ g, s.status = ⟨g, .ready⟩ →
    s.slot = some g ∨ ∃ phase, next = .waits phase ∧ phase.stopOf? = some g

variable {s t : Course} {g : Nat} {next : Next}

theorem carriesStatus_of_owned (hstatus : s.status = ⟨g, .ready⟩) (hslot : s.slot = some g)
    (next : Next) : s.CarriesStatus next where
  starting g' h := by simp [hstatus] at h
  ready g' h := by
    rw [hstatus, Status.mk.injEq] at h
    exact .inl (h.1 ▸ hslot)

theorem carriesStatus_of_end {state : SessionState} (hstatus : s.status = ⟨g, state⟩)
    (hstate : state = .stopped ∨ state = .failed) (next : Next) : s.CarriesStatus next where
  starting g' h := by rcases hstate with rfl | rfl <;> simp [hstatus] at h
  ready g' h := by rcases hstate with rfl | rfl <;> simp [hstatus] at h

theorem carriesStatus_of_start (hstatus : s.status = ⟨g, .starting⟩) {phase : Phase}
    (hphase : phase.startOf? = some g) : s.CarriesStatus (.waits phase) where
  starting g' h := by
    rw [hstatus, Status.mk.injEq] at h
    exact ⟨phase, rfl, h.1 ▸ hphase⟩
  ready g' h := by simp [hstatus] at h

theorem carriesStatus_of_stop (hstatus : s.status = ⟨g, .ready⟩) {phase : Phase}
    (hphase : phase.stopOf? = some g) : s.CarriesStatus (.waits phase) where
  starting g' h := by simp [hstatus] at h
  ready g' h := by
    rw [hstatus, Status.mk.injEq] at h
    exact .inr ⟨phase, rfl, h.1 ▸ hphase⟩

theorem carriesStatus_opens (hs : s.Owns) (h : s.Opens t next) : t.CarriesStatus next := by
  cases h with
  | reuse g h =>
      rw [session?_of_owns hs] at h
      exact carriesStatus_of_owned (hs g h).1 h _
  | launch h => exact carriesStatus_of_start (status_launch s) rfl

theorem carriesStatus_starts (hs : s.IsStarting g) (h : s.Starts g t next) :
    t.CarriesStatus next := by
  cases h with
  | waits phase h => exact carriesStatus_of_start hs.status h
  | ready => exact carriesStatus_of_owned (status_ready s g) rfl _
  | failed error => exact carriesStatus_of_end (status_publish s g .failed) (.inr rfl) _

theorem carriesStatus_stops {operation : Operation} (hs : s.IsStopping g)
    (h : s.Stops operation g t next) : t.CarriesStatus next := by
  cases h with
  | waits phase h => exact carriesStatus_of_stop hs.status h
  | stopped hop => exact carriesStatus_of_end (status_publish s g .stopped) (.inl rfl) _
  | restarts hop h => exact carriesStatus_opens (owns_of_empty (s := s.publish g .stopped) hs.slot) h

/-- A turn that begins leaves the sessions as they are and ends, or what comes next tells. -/
theorem carriesStatus_begins {operation : Operation} (hs : s.Owns) (h : s.Begins operation t next) :
    t.CarriesStatus next ∨ t = s ∧ ∃ outcome, next = .ends outcome := by
  cases h with
  | starts hop h => exact .inl (carriesStatus_opens hs h)
  | takes g phase hop h hphase => exact .inl (carriesStatus_of_stop (s := s.letGo) (hs g h).1 hphase)
  | idle hop h => exact .inr ⟨rfl, _, rfl⟩
  | restarts hop hstop h hopens => exact .inl (carriesStatus_opens hs hopens)

end Course

/-! ### The invariant -/

namespace Life

variable {l m : Life} {k g : Nat} {call : Call} {lost : List Phase}

/-- A call is in a phase of its turn that belongs to a generation, or a turn was lost in one. -/
def IsOwed (l : Life) (lost : List Phase) (of : Phase → Option Nat) (g : Nat) : Prop :=
  (∃ (k : Nat) (call : Call), l.calls[k]? = some call ∧ of call.phase = some g) ∨
    ∃ phase ∈ lost, of phase = some g

/-- Who the latest status is owed to: that a session is starting, to its start; that it is ready and
not owned, to its stop, unless nobody holds the client. -/
structure Standing (l : Life) (lost : List Phase) : Prop where
  starting : ∀ g, l.course.status = ⟨g, .starting⟩ → l.IsOwed lost Phase.startOf? g
  ready : ∀ g, l.course.status = ⟨g, .ready⟩ →
    l.course.slot = some g ∨ l.isHeld = false ∨ l.IsOwed lost Phase.stopOf? g

theorem standing_empty : Standing ⟨⟨[], [], 0, none⟩, {}, [], false⟩ [] where
  starting g h := by cases h
  ready g h := by cases h

/-- The sessions stay as they are, and the turns go on or are lost. -/
theorem standing_keep {lost' : List Phase} (hs : l.Standing lost) (hcourse : m.course = l.course)
    (hheld : m.isHeld → l.isHeld) (hlost : ∀ phase ∈ lost, phase ∈ lost')
    (hcalls : ∀ (k : Nat) (call : Call), l.calls[k]? = some call → call.phase.isTurn →
      m.calls[k]? = some call ∨ call.phase ∈ lost') : m.Standing lost' := by
  have howed : ∀ (of : Phase → Option Nat) (g : Nat),
      (∀ phase : Phase, of phase = some g → phase.isTurn) →
      l.IsOwed lost of g → m.IsOwed lost' of g := by
    intro of g hof howed
    obtain ⟨k, call, hcall, hphase⟩ | ⟨phase, hmem, hphase⟩ := howed
    · rcases hcalls k call hcall (hof _ hphase) with hkept | hgone
      · exact .inl ⟨k, call, hkept, hphase⟩
      · exact .inr ⟨call.phase, hgone, hphase⟩
    · exact .inr ⟨phase, hlost phase hmem, hphase⟩
  constructor
  · intro g hstatus
    rw [hcourse] at hstatus
    exact howed _ g (fun _ => Phase.isTurn_of_startOf?) (hs.starting g hstatus)
  · intro g hstatus
    rw [hcourse] at hstatus ⊢
    rcases hs.ready g hstatus with hslot | hnobody | howes
    · exact .inl hslot
    · refine .inr (.inl ?_)
      rw [Bool.eq_false_iff] at hnobody ⊢
      exact fun hm => hnobody (hheld hm)
    · exact .inr (.inr (howed _ g (fun _ => Phase.isTurn_of_stopOf?) howes))

theorem standing_callChange (hs : l.Standing lost) (hm : l.CallChange m) : m.Standing lost :=
  standing_keep hs (course_callChange hm) (isHeld_of_callChange hm) (fun _ hmem => hmem)
    fun _ _ hcall hturn => .inl (getElem?_callChange hm hcall (.inl hturn))

/-- Whoever leaves for good holds the client no more. -/
theorem isHeld_of_leave (hcall : l.calls[k]? = some call) {phase : Phase} (hover : phase.isOver)
    (h : (l.leave k phase).isHeld) : l.isHeld := by
  rcases isHeld_of_setPhase (l := { l with lock := l.lock.leave k }) hcall h with hl | hholds
  · exact hl
  · simp [Call.holdsClient, hover] at hholds

theorem standing_proceed (hcall : l.calls[k]? = some call) {t : Course} {next : Next}
    (h : t.CarriesStatus next) (operation : Operation) :
    ({ l with course := t }.proceed k operation next).Standing lost := by
  have hself : ∀ phase : Phase, next = .waits phase →
      ({ l with course := t }.proceed k operation next).calls[k]? = some { call with phase } := by
    rintro phase rfl
    exact getElem?_proceed hcall t operation _
  constructor
  · intro g hstatus
    rw [course_proceed] at hstatus
    obtain ⟨phase, hnext, hphase⟩ := h.starting g hstatus
    exact .inl ⟨k, _, hself phase hnext, hphase⟩
  · intro g hstatus
    rw [course_proceed] at hstatus ⊢
    rcases h.ready g hstatus with hslot | ⟨phase, hnext, hphase⟩
    · exact .inl hslot
    · exact .inr (.inr (.inl ⟨k, _, hself phase hnext, hphase⟩))

theorem standing_turn (h : l.Orderly) (hs : l.Standing lost) (hm : l.Turn k m) :
    m.Standing lost := by
  cases hm with
  | begins call t next hcall hphase hholder hbegins =>
      rcases Course.carriesStatus_begins h.owns hbegins with hcarries | ⟨rfl, outcome, rfl⟩
      · exact standing_proceed hcall hcarries _
      · -- A stop that finds no session leaves it to others who the status is owed to.
        refine standing_keep hs rfl (isHeld_of_leave hcall rfl) (fun _ hmem => hmem) ?_
        intro i other hother hturn
        rw [not_isTurn_of_waiting h hholder hcall (by rw [hphase]; rfl) i other hother] at hturn
        cases hturn
  | starts call g t next hcall hphase hstarts =>
      have hmatches := (h.turn k call hcall (Phase.isTurn_of_startOf? hphase)).2
      exact standing_proceed hcall
        (Course.carriesStatus_starts (hmatches.starting g hphase) hstarts) _
  | stops call g t next hcall hphase hstops =>
      have hmatches := (h.turn k call hcall (Phase.isTurn_of_stopOf? hphase)).2
      exact standing_proceed hcall (Course.carriesStatus_stops (hmatches.stopping g hphase) hstops) _

theorem standing_sessionChange (h : l.Orderly) (hs : l.Standing lost) (hm : l.SessionChange m) :
    m.Standing lost := by
  cases hm with
  | turn k hturn => exact standing_turn h hs hturn
  | lose g hslot =>
      have hstatus := Course.status_publish l.course.letGo g .failed
      exact ⟨fun g' h' => by simp [hstatus] at h', fun g' h' => by simp [hstatus] at h'⟩

theorem standing_tidy (hs : l.Standing lost) : l.tidy.Standing lost := by
  unfold tidy
  split
  · exact hs
  · rename_i hheld
    exact ⟨hs.starting, fun g _ => .inr (.inl (Bool.eq_false_iff.mpr hheld))⟩

theorem standing_step (h : l.Orderly) (hs : l.Standing lost) (hm : l.Step m) :
    m.Standing lost := by
  obtain ⟨l₂, ⟨l₁, hchanges, hend⟩, rfl⟩ := hm
  refine standing_tidy ?_
  have hs₁ : l₁.Standing lost := by
    clear hend
    induction hchanges with
    | refl => exact hs
    | tail _ hlast ih => exact standing_callChange ih hlast
  rcases hend with rfl | hchange
  · exact hs₁
  · exact standing_sessionChange (orderly_callChanges h hchanges) hs₁ hchange

/-- A turn that is dropped is one more that was lost. -/
theorem standing_dropped (hs : l.Standing lost) (hcall : l.calls[k]? = some call) :
    (l.leave k .dropped).tidy.Standing (lost ++ [call.phase]) := by
  refine standing_tidy (standing_keep hs rfl (isHeld_of_leave hcall rfl) ?_ ?_)
  · exact fun phase hmem => List.mem_append_left _ hmem
  · intro i other hother _
    by_cases hi : i = k
    · rw [hi, hcall, Option.some.injEq] at hother
      exact .inr (by simp [hother])
    · exact .inl ((getElem?_setPhase_ne _ (Ne.symm hi) _).trans hother)

end Life

/-! ### Runs that drop turns -/

namespace Client

variable {c : Client} {k g : Nat} {call : Call} {lost : List Phase}

/-- The phase of the turn that an event drops. -/
def droppedTurn? (c : Client) : Event → Option Phase
  | .cancel k => (c.calls[k]?.map Call.phase).filter Phase.isTurn
  | _ => none

/-- The phases in which the turns of a run were dropped, the first one first. -/
def droppedTurns (c : Client) : List Event → List Phase
  | [] => []
  | event :: rest => (c.droppedTurn? event).toList ++ (c.step event).droppedTurns rest

theorem isSome_droppedTurn? (c : Client) (event : Event) :
    (c.droppedTurn? event).isSome = c.dropsTurn event := by
  cases event with
  | cancel k =>
      cases hcall : c.calls[k]? with
      | none => simp [droppedTurn?, dropsTurn, hcall]
      | some call => cases hturn : call.phase.isTurn <;> simp [droppedTurn?, dropsTurn, hcall, hturn]
  | _ => rfl

/-- A run that drops no turn has dropped none. -/
theorem droppedTurns_of_keepsTurns {events : List Event} (h : c.keepsTurns events) :
    c.droppedTurns events = [] := by
  induction events generalizing c with
  | nil => rfl
  | cons event rest ih =>
      rw [keepsTurns, Bool.and_eq_true, Bool.not_eq_true'] at h
      have hnone : c.droppedTurn? event = none := by
        rw [← Option.isNone_iff_eq_none, ← Option.not_isSome, isSome_droppedTurn?, h.1]
        rfl
      rw [droppedTurns, hnone, ih h.2]
      rfl

/-- An event that drops a turn drops that of a call, which leaves the lock. -/
theorem life_of_droppedTurn? {event : Event} {phase : Phase}
    (h : c.droppedTurn? event = some phase) : ∃ (k : Nat) (call : Call), c.calls[k]? = some call ∧
      call.phase = phase ∧ (c.step event).life = (c.life.leave k .dropped).tidy := by
  cases event with
  | cancel k =>
      obtain ⟨hphase, hturn⟩ := Option.filter_eq_some_iff.mp h
      obtain ⟨call, hcall, rfl⟩ := Option.map_eq_some_iff.mp hphase
      have hover : call.phase.isOver = false := by
        rw [Bool.eq_false_iff]
        intro hover
        rw [Phase.not_isTurn_of_isOver hover] at hturn
        cases hturn
      exact ⟨k, call, hcall, rfl, (life_tidy _).trans (congrArg Life.tidy (life_cancel hcall hover))⟩
  | _ => cases h

theorem standing_event (h : c.life.Orderly) (hs : c.life.Standing lost) (event : Event) :
    (c.step event).life.Standing (lost ++ (c.droppedTurn? event).toList) := by
  cases hdropped : c.droppedTurn? event with
  | none =>
      have hkeeps : c.dropsTurn event = false := by
        rw [← isSome_droppedTurn?, hdropped]
        rfl
      simpa using Life.standing_step h hs (life_step h hkeeps)
  | some phase =>
      obtain ⟨k, call, hcall, rfl, hlife⟩ := life_of_droppedTurn? hdropped
      rw [hlife]
      exact Life.standing_dropped hs hcall

theorem standing_run (h : c.life.Orderly) (hs : c.life.Standing lost) (events : List Event) :
    (c.run events).life.Standing (lost ++ c.droppedTurns events) := by
  induction events generalizing c lost with
  | nil =>
      rw [droppedTurns, List.append_nil]
      exact hs
  | cons event rest ih =>
      rw [droppedTurns, ← List.append_assoc]
      exact ih (orderly_step h event) (standing_event h hs event)

theorem standing_reached (options : SessionOptions) (processId : Nat) (workspace : Workspace)
    (events : List Event) : ((Client.new options processId workspace).run events).life.Standing
      ((Client.new options processId workspace).droppedTurns events) :=
  standing_run (orderly_new options processId workspace) Life.standing_empty events

/-! ### Ready without a session -/

/-- A stop has taken the session of a generation away and not published its end: it has the lock, or
it was dropped. -/
def IsWithdrawn (c : Client) (dropped : List Phase) (g : Nat) : Prop :=
  c.slot = none ∧
    ((∃ (k : Nat) (call : Call), c.calls[k]? = some call ∧ call.phase.stopOf? = some g ∧
        c.lock.holder? = some k) ∨ ∃ phase ∈ dropped, phase.stopOf? = some g)

/-- A session that is published as ready is owned, or a stop has taken it away. -/
theorem owned_or_withdrawn (h : c.life.Orderly) (hs : c.life.Standing lost) (hheld : c.isHeld)
    (hstatus : c.status = ⟨g, .ready⟩) : c.slot = some g ∨ c.IsWithdrawn lost g := by
  by_cases hslot : c.slot = some g
  · exact .inl hslot
  right
  -- Nothing else can be owned, as what is owned is published as ready.
  have hempty : c.slot = none := by
    cases hother : c.slot with
    | none => rfl
    | some n =>
        have hstatus' : c.status = ⟨n, .ready⟩ := (h.owns n hother).1
        rw [hstatus, Status.mk.injEq] at hstatus'
        exact absurd (hstatus'.1 ▸ hother) hslot
  refine ⟨hempty, ?_⟩
  rcases hs.ready g hstatus with hslot' | hnobody | ⟨k, call, hcall, hphase⟩ | hdropped
  · exact absurd hslot' hslot
  · rw [isHeld_eq_life, hnobody] at hheld
    cases hheld
  · have hholder := (h.turn k call hcall (Phase.isTurn_of_stopOf? hphase)).1
    exact .inl ⟨k, call, hcall, hphase, hholder⟩
  · exact .inr hdropped

theorem setOffs_onReady (c : Client) (hook : Hook) : ∃ now : List (Nat × Nat),
    (c.step (.onReady hook)).setOffs = c.setOffs ++ now ∧
      (∀ g, (c.hooks.length, g) ∈ now ↔ c.status = ⟨g, .ready⟩) ∧
      ∀ entry ∈ now, c.status = ⟨entry.2, .ready⟩ := by
  obtain ⟨more, hmore⟩ := enrolls_onReady c hook
  have hdispatch : (c.step (.onReady hook)).dispatch = c.dispatch.enroll (hook :: more) :=
    (dispatch_tidy _).trans hmore
  have hset : (c.step (.onReady hook)).setOffs = _ := congrArg Dispatch.setOffs hdispatch
  refine ⟨_, hset, ?_⟩
  rw [status_dispatch]
  split
  · rename_i hready
    have hstatus : c.status = ⟨c.status.generation, .ready⟩ := by
      have hstate : c.status.state = .ready := by simpa [Status.isReady] using hready
      rw [← hstate]
    constructor
    · intro g
      rw [hstatus]
      simp [dispatch, eq_comm]
    · intro entry hentry
      obtain ⟨place, -, rfl⟩ := List.mem_map.mp hentry
      exact hstatus
  · rename_i hready
    refine ⟨fun g => iff_of_false (by simp) ?_, by simp⟩
    intro hstatus
    rw [hstatus] at hready
    exact hready rfl

/-- **Ready, and no session.**  After any events, also such that drop turns, a session is handed out
only while it is owned and its generation is published as ready.  While somebody holds the client,
a generation that is published as ready is handed out, or a stop has taken it away and has not yet
published its end.  A hook that is added is set off at once if and only if a generation is published
as ready, and for that one. -/
theorem ready_without_a_session (options : SessionOptions) (processId : Nat)
    (workspace : Workspace) (events : List Event) (hook : Hook) :
    let c := (Client.new options processId workspace).run events
    let dropped := (Client.new options processId workspace).droppedTurns events
    (∀ g, c.session? = some g → c.status = ⟨g, .ready⟩ ∧ c.slot = some g) ∧
      (∀ g, c.isHeld → c.status = ⟨g, .ready⟩ →
        c.session? = some g ∨ c.session? = none ∧ c.IsWithdrawn dropped g) ∧
      ∃ now : List (Nat × Nat), (c.step (.onReady hook)).setOffs = c.setOffs ++ now ∧
        (∀ g, (c.hooks.length, g) ∈ now ↔ c.status = ⟨g, .ready⟩) ∧
        ∀ entry ∈ now, c.status = ⟨entry.2, .ready⟩ ∧
          (c.isHeld → c.session? = some entry.2 ∨ c.IsWithdrawn dropped entry.2) := by
  intro c dropped
  have h : c.life.Orderly := orderly_reached options processId workspace events
  have hs : c.life.Standing dropped := standing_reached options processId workspace events
  have hsession : c.session? = c.slot := Course.session?_of_owns h.owns
  have howned : ∀ g, c.isHeld → c.status = ⟨g, .ready⟩ →
      c.session? = some g ∨ c.IsWithdrawn dropped g := by
    intro g hheld hstatus
    rw [hsession]
    exact owned_or_withdrawn h hs hheld hstatus
  refine ⟨?_, ?_, ?_⟩
  · intro g hg
    rw [hsession] at hg
    exact ⟨(h.owns g hg).1, hg⟩
  · intro g hheld hstatus
    exact (howned g hheld hstatus).imp_right fun hgone => ⟨hsession.trans hgone.1, hgone⟩
  · obtain ⟨now, hset, hplace, hready⟩ := setOffs_onReady c hook
    refine ⟨now, hset, hplace, ?_⟩
    intro entry hentry
    exact ⟨hready entry hentry, fun hheld => howned entry.2 hheld (hready entry hentry)⟩

/-- The reply to a request. -/
def acknowledgement (id : Nat) : Json :=
  .obj [("id", .ofNat id), ("result", .obj [("capabilities", .obj [])])]

/-- The server of a generation is launched for a call and answers its first request. -/
def handshake (g call : Nat) : List Event := [.launchSucceeded g false false, .poll call,
  .connection g .start, .connection g .write, .connection g .finish,
  .connection g (.receive (Frame.encode (acknowledgement 1))), .connection g .read,
  .connection g .handle, .poll call]

/-- While a stop waits for the server to acknowledge the shutdown, the first session is still
published as ready, but it is not handed out any more; a hook that is added now is set off for it. -/
theorem hook_of_a_session_that_is_stopped :
    let c := (Client.new {} 0 {}).run
      ([.invoke .start, .poll 0] ++ handshake 1 0 ++ [.invoke .stop, .poll 1])
    c.isHeld ∧ c.status = ⟨1, .ready⟩ ∧ c.session? = none ∧
      (c.step (.onReady (.observe "a"))).setOffs = [(0, 1)] := by
  decide +kernel

/-! ### While nobody has the lock -/

/-- The status and the slot agree, and nothing is under way. -/
def IsSettled (c : Client) : Prop :=
  (∃ g, c.status = ⟨g, .ready⟩ ∧ c.slot = some g) ∨
    (c.status.state = .stopped ∨ c.status.state = .failed) ∧ c.slot = none

/-- A caller who waits for a session has an answer at once when nothing is under way. -/
theorem outcome?_of_isSettled (hsettled : c.IsSettled) (hfree : c.lock.isFree)
    (hcall : c.calls[k]? = some call) (hop : call.operation = .ready)
    (hphase : call.phase = .fresh) : ((c.step (.poll k)).outcome? k).isSome := by
  have hpoll : c.poll k = c.look k := by
    rw [poll_eq hcall, hphase, hop]
    rfl
  have hended : ∃ outcome, c.look k = c.finish k outcome := by
    unfold look
    rcases hsettled with ⟨g, hstatus, hslot⟩ | ⟨hstate, -⟩
    · have hsession : c.session? = some g := by simp [session?, hstatus, hslot, Status.isReady]
      simp only [hstatus, hsession]
      exact ⟨_, rfl⟩
    · rcases hstate with hstate | hstate <;> simp only [hstate, hfree, if_true] <;> exact ⟨_, rfl⟩
  obtain ⟨outcome, hlook⟩ := hended
  have hsame : (c.step (.poll k)).outcome? k = (c.finish k outcome).outcome? k := by
    rw [step, act, hpoll, hlook]
    exact outcome?_of_calls (tidy_calls _) k
  rw [hsame]
  simp [outcome?, finish, setPhase, hcall]

/-- Nothing is owned, and the status was left behind by a turn that was dropped: a start, or a stop
of the session that is published as ready. -/
def IsLeftBehind (c : Client) (dropped : List Phase) : Prop :=
  c.slot = none ∧ ∃ g, ∃ phase ∈ dropped,
    c.status = ⟨g, .starting⟩ ∧ phase.startOf? = some g ∨
      c.status = ⟨g, .ready⟩ ∧ phase.stopOf? = some g

/-- While nobody has the lock, whoever the status is owed to has gone away. -/
theorem settled_or_leftBehind (h : c.life.Orderly) (hs : c.life.Standing lost) (hheld : c.isHeld)
    (hfree : c.lock.isFree) : c.IsSettled ∨ c.IsLeftBehind lost := by
  have hnobody := Life.not_isTurn_of_free h hfree
  have hempty : c.status.isReady = false → c.slot = none := by
    intro hready
    cases hslot : c.slot with
    | none => rfl
    | some g =>
        have hstatus : c.status = ⟨g, .ready⟩ := (h.owns g hslot).1
        rw [hstatus] at hready
        cases hready
  cases hstatus : c.status with
  | mk g state =>
      cases state with
      | stopped => exact .inl (.inr ⟨.inl (by rw [hstatus]), hempty (by rw [hstatus]; rfl)⟩)
      | failed => exact .inl (.inr ⟨.inr (by rw [hstatus]), hempty (by rw [hstatus]; rfl)⟩)
      | starting =>
          right
          refine ⟨hempty (by rw [hstatus]; rfl), g, ?_⟩
          rcases hs.starting g hstatus with ⟨k, call, hcall, hphase⟩ | ⟨phase, hmem, hphase⟩
          · have hout := hnobody k call hcall
            rw [Phase.isTurn_of_startOf? hphase] at hout
            cases hout
          · exact ⟨phase, hmem, .inl ⟨hstatus, hphase⟩⟩
      | ready =>
          rcases owned_or_withdrawn h hs hheld hstatus with hslot | ⟨hslot, hwho⟩
          · exact .inl (.inl ⟨g, hstatus, hslot⟩)
          · right
            refine ⟨hslot, g, ?_⟩
            rcases hwho with ⟨k, call, hcall, hphase, -⟩ | ⟨phase, hmem, hphase⟩
            · have hout := hnobody k call hcall
              rw [Phase.isTurn_of_stopOf? hphase] at hout
              cases hout
            · exact ⟨phase, hmem, .inr ⟨hstatus, hphase⟩⟩

/-- In a run that drops no turn the status and the slot agree whenever nobody has the lock. -/
theorem isSettled_of_keepsTurns (options : SessionOptions) (processId : Nat)
    (workspace : Workspace) (events : List Event) :
    let c := Client.new options processId workspace
    c.keepsTurns events → (c.run events).isHeld → (c.run events).lock.isFree →
      (c.run events).IsSettled := by
  intro c hkeeps hheld hfree
  have hs := standing_reached options processId workspace events
  rw [droppedTurns_of_keepsTurns hkeeps] at hs
  refine (settled_or_leftBehind (orderly_reached options processId workspace events) hs hheld
    hfree).resolve_right ?_
  rintro ⟨-, g, phase, hmem, -⟩
  cases hmem

/-- **The sessions while nobody has the lock.**  After any events, also such that drop turns, when
somebody holds the client and nobody has the lock, the status and the slot agree, or nothing is owned
and the status was left behind by a turn that was dropped.  As long as they agree, a caller who waits
for a session has an answer at once. -/
theorem standing_of_free_lock (options : SessionOptions) (processId : Nat) (workspace : Workspace)
    (events : List Event) :
    let c := (Client.new options processId workspace).run events
    let dropped := (Client.new options processId workspace).droppedTurns events
    (c.isHeld → c.lock.isFree → c.IsSettled ∨ c.IsLeftBehind dropped) ∧
      (c.IsSettled → c.lock.isFree → ∀ (k : Nat) (call : Call), c.calls[k]? = some call →
        call.operation = .ready → call.phase = .fresh →
        ((c.step (.poll k)).outcome? k).isSome) := by
  intro c dropped
  exact ⟨settled_or_leftBehind (orderly_reached options processId workspace events)
    (standing_reached options processId workspace events),
    fun hsettled hfree k call => outcome?_of_isSettled hsettled hfree⟩

/-- The caller of a start goes away while the server is launched: nobody has the lock, nothing is
owned, and the session is still published as starting.  A caller who then waits for a session has no
answer.  A client that is given away while its session is ready leaves that status behind too. -/
theorem start_that_was_dropped :
    (let c := (Client.new {} 0 {}).run [.invoke .start, .poll 0, .cancel 0, .invoke .ready]
    c.isHeld ∧ c.lock.isFree ∧ c.status = ⟨1, .starting⟩ ∧ c.slot = none ∧
      ((c.step (.poll 1)).outcome? 1).isNone) ∧
    let c := (Client.new {} 0 {}).run ([.invoke .start, .poll 0] ++ handshake 1 0 ++ [.release])
    c.lock.isFree ∧ c.status = ⟨1, .ready⟩ ∧ c.slot = none := by
  decide +kernel

end Client
end LanguageClient
