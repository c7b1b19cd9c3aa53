import LanguageClient.Proofs.Client.Transitions
import LanguageClient.Proofs.Client.WorkspaceEffects

/-!
# The course of the sessions

What a client has shown and kept of its sessions is its `Course`.  Only calls that have their turn
and pumps that come to an end change it.  This file says once what each part of a turn can do to the
course, and what comes next for the call; all that holds of the sessions is derived from these
judgments.

* `Course.Opens` — a start begins: it hands out the session that is ready, or launches a server.
* `Course.Starts` — a start goes on: it waits, becomes ready or fails.
* `Course.Stops` — a stop goes on: it waits, or ends and is followed by a start in a restart.
* `Course.Begins` — the beginning of a turn of any operation.
* `course_pump` — a pump changes the course only when a session that is owned is lost.
* **`begins_beginTurn`**, **`starts_afterLaunch`**, **`starts_afterHandshake`**,
  **`stops_afterShutdown`**, **`stops_afterClosing`**, … — every part of a turn obeys its judgment.
-/

namespace LanguageClient

/-! ### Phases of a turn -/

namespace Phase

/-- The generation that a call in its turn is starting. -/
def startOf? : Phase → Option Nat
  | launching g => some g
  | initializing g _ => some g
  | abandoning g _ _ => some g
  | reaping g _ (some _) => some g
  | _ => none

/-- The generation that a call in its turn is stopping. -/
def stopOf? : Phase → Option Nat
  | stopping g _ => some g
  | closing g _ => some g
  | reaping g _ none => some g
  | _ => none

/-- The generation on which a call in its turn is at work. -/
def turnOf? (phase : Phase) : Option Nat := phase.startOf? <|> phase.stopOf?

/-- Whether a call has its turn and has begun it. -/
def isTurn (phase : Phase) : Bool := phase.turnOf?.isSome

theorem turnOf?_of_startOf? {phase : Phase} {g : Nat} (h : phase.startOf? = some g) :
    phase.turnOf? = some g := by simp [turnOf?, h]

theorem turnOf?_of_stopOf? {phase : Phase} {g : Nat} (h : phase.stopOf? = some g) :
    phase.turnOf? = some g := by
  cases phase with
  | reaping g' deadline error? => cases error? <;> simp_all [turnOf?, startOf?, stopOf?]
  | _ => simp_all [turnOf?, startOf?, stopOf?]

theorem isTurn_of_startOf? {phase : Phase} {g : Nat} (h : phase.startOf? = some g) :
    phase.isTurn := by rw [isTurn, turnOf?_of_startOf? h]; rfl

theorem isTurn_of_stopOf? {phase : Phase} {g : Nat} (h : phase.stopOf? = some g) :
    phase.isTurn := by rw [isTurn, turnOf?_of_stopOf? h]; rfl

theorem isTurn_reaping (g deadline : Nat) (error? : Option SessionError) :
    (reaping g deadline error?).isTurn := by cases error? <;> rfl

theorem not_isTurn_of_isOver {phase : Phase} (h : phase.isOver) : phase.isTurn = false := by
  cases phase with
  | finished outcome => rfl
  | dropped => rfl
  | _ => cases h

/-- No phase belongs to a start and to a stop. -/
theorem stopOf?_of_startOf? {phase : Phase} {g : Nat} (h : phase.startOf? = some g) :
    phase.stopOf? = none := by
  cases phase with
  | reaping g' deadline error? => cases error? <;> simp_all [startOf?, stopOf?]
  | _ => simp_all [startOf?, stopOf?]

/-- A call in its turn starts a session or stops one. -/
theorem start_or_stop_of_isTurn {phase : Phase} (h : phase.isTurn) :
    (∃ g, phase.startOf? = some g) ∨ ∃ g, phase.stopOf? = some g := by
  obtain ⟨g, hg⟩ := Option.isSome_iff_exists.mp h
  cases hstart : phase.startOf? with
  | some g' => exact .inl ⟨g', rfl⟩
  | none => exact .inr ⟨g, by simpa [turnOf?, hstart] using hg⟩

end Phase

/-- Whether the turn of an operation begins with a start. -/
def Operation.isStart : Operation → Bool
  | start => true
  | activate => true
  | _ => false

/-! ### The course -/

/-- What a client has shown and kept of its sessions. -/
structure Course where
  published : List Status
  launches : List Nat
  generation : Nat
  slot : Option Nat

namespace Course

def status (s : Course) : Status := s.published.getLastD {}

def session? (s : Course) : Option Nat := if s.status.isReady then s.slot else none

def publish (s : Course) (g : Nat) (state : SessionState) : Course :=
  { s with published := s.published ++ [⟨g, state⟩] }

/-- A server is asked for, for a session of the next generation. -/
def launch (s : Course) : Course :=
  { s.publish (s.generation + 1) .starting with
    launches := s.launches ++ [s.generation + 1]
    generation := s.generation + 1 }

/-- A session becomes ready and is owned. -/
def ready (s : Course) (g : Nat) : Course := { s.publish g .ready with slot := some g }

/-- The session that was owned is owned no more. -/
def letGo (s : Course) : Course := { s with slot := none }

@[simp] theorem status_publish (s : Course) (g : Nat) (state : SessionState) :
    (s.publish g state).status = ⟨g, state⟩ := by simp [status, publish]

@[simp] theorem status_launch (s : Course) : s.launch.status = ⟨s.generation + 1, .starting⟩ :=
  status_publish s _ _

@[simp] theorem status_ready (s : Course) (g : Nat) : (s.ready g).status = ⟨g, .ready⟩ :=
  status_publish s _ _

/-- How a start begins: the session that is ready is handed out, or a server is launched. -/
inductive Opens (s : Course) : Course → Next → Prop
  | reuse (g : Nat) (h : s.session? = some g) : Opens s s (.ends (.session g))
  | launch (h : s.session? = none) : Opens s s.launch (.waits (.launching (s.generation + 1)))

/-- How the start of a generation goes on. -/
inductive Starts (s : Course) (g : Nat) : Course → Next → Prop
  | waits (phase : Phase) (h : phase.startOf? = some g) : Starts s g s (.waits phase)
  | ready : Starts s g (s.ready g) (.ends (.session g))
  | failed (error : SessionError) : Starts s g (s.publish g .failed) (.ends (.failed error))

/-- How the stop of a generation goes on. -/
inductive Stops (s : Course) (operation : Operation) (g : Nat) : Course → Next → Prop
  | waits (phase : Phase) (h : phase.stopOf? = some g) : Stops s operation g s (.waits phase)
  | stopped (hop : operation = .stop) : Stops s operation g (s.publish g .stopped) (.ends .done)
  | restarts {t : Course} {next : Next} (hop : operation ≠ .stop)
      (h : (s.publish g .stopped).Opens t next) : Stops s operation g t next

/-- How the turn of an operation begins. -/
inductive Begins (s : Course) (operation : Operation) : Course → Next → Prop
  | starts {t : Course} {next : Next} (hop : operation.isStart) (h : s.Opens t next) :
      Begins s operation t next
  | takes (g : Nat) (phase : Phase) (hop : operation.isStart = false) (h : s.slot = some g)
      (hphase : phase.stopOf? = some g) : Begins s operation s.letGo (.waits phase)
  | idle (hop : operation = .stop) (h : s.slot = none) : Begins s operation s (.ends .done)
  | restarts {t : Course} {next : Next} (hop : operation.isStart = false)
      (hstop : operation ≠ .stop) (h : s.slot = none) (hopens : s.Opens t next) :
      Begins s operation t next

end Course

namespace Client

/-- The course of the sessions of a client. -/
def course (c : Client) : Course := ⟨c.published, c.launches, c.generation, c.slot⟩

theorem session?_eq_course (c : Client) : c.session? = c.course.session? := rfl

/-! ### What leaves the course alone -/

theorem course_of_workspaceEffect {f : Client → Client} (hf : WorkspaceEffect f) (c : Client) :
    (f c).course = c.course := by
  simp only [course, generation, hf.published, hf.launches, hf.attempts, hf.slot]

@[simp] theorem course_updateAttempt (c : Client) (g : Nat) (f : Attempt → Attempt) :
    (c.updateAttempt g f).course = c.course := by
  unfold updateAttempt
  split
  · rfl
  · simp [course, generation, published, launches]

@[simp] theorem course_updateConnection (c : Client) (g : Nat) (f : Connection → Connection) :
    (c.updateConnection g f).course = c.course := course_updateAttempt c g _

@[simp] theorem course_setPump (c : Client) (g : Nat) (pump : Pump) :
    (c.setPump g pump).course = c.course := course_updateAttempt c g _

@[simp] theorem course_endProcess (c : Client) (g : Nat) : (c.endProcess g).course = c.course :=
  course_updateAttempt c g _

@[simp] theorem course_send (c : Client) (g : Nat) (method : String) (params : Json) (span : Nat) :
    (c.send g method params span).1.course = c.course := by
  unfold send
  cases c.connection? g with
  | none => rfl
  | some connection => exact course_updateConnection c g _

theorem course_notify? {c c' : Client} {g : Nat} {message : Notification}
    (h : c.notify? g message = some c') : c'.course = c.course := by
  obtain ⟨_, after, -, -, rfl⟩ := notify?_eq_some_iff.mp h
  exact course_updateConnection c g _

theorem course_settle? {c c' : Client} {g id : Nat} {outcome : Except SessionError Json}
    (h : c.settle? g id = some (c', outcome)) : c'.course = c.course := by
  obtain ⟨_, after, -, -, rfl⟩ := settle?_eq_some_iff.mp h
  exact course_updateConnection c g _

/-! ### What changes the course -/

@[simp] theorem course_publish (c : Client) (g : Nat) (state : SessionState) :
    (c.publish g state).course = c.course.publish g state := by
  simp [course, Course.publish, publish, note, published, launches, generation]

@[simp] theorem course_reportFailure (c : Client) (g : Nat) (error : SessionError) :
    (c.reportFailure g error).course = c.course.publish g .failed := by
  unfold reportFailure
  rw [course_of_workspaceEffect (workspaceEffect_say _), course_publish]

/-! ### Pumps -/

/-- Only the loss of a session that is owned concerns its course. -/
theorem course_pump (c : Client) (g : Nat) : (c.pump g).course = c.course ∨
    c.slot = some g ∧ (c.pump g).course = c.course.letGo.publish g .failed := by
  have hchange := pumpChange_pump c g
  generalize c.pump g = d at hchange ⊢
  cases hchange with
  | rests => exact .inl rfl
  | delivers hattempt harmed hwaiting =>
      rw [course_of_workspaceEffect (workspaceEffect_deliver _),
        course_of_workspaceEffect (workspaceEffect_note _ (by simp) (by simp))]
      exact .inl (course_updateConnection c g _)
  | loses hattempt harmed hnone hended hslot =>
      refine .inr ⟨hslot, ?_⟩
      rw [course_reportFailure, ← course_setPump c g .ended]
      rfl
  | ends => exact .inl (course_setPump c g .ended)

/-! ### Parts of a turn -/

/-- A start that has its turn begins as it should. -/
theorem opens_startLocked (c : Client) : c.course.Opens c.startLocked.1.course c.startLocked.2 := by
  unfold startLocked
  cases hsession : c.session? with
  | some g => exact .reuse g hsession
  | none =>
      have hlaunch : ((({ c with attempts := c.attempts ++ [({} : Attempt)] }).publish
          (c.generation + 1) .starting).note (.launched (c.generation + 1))).course =
          c.course.launch := by
        simp [course, Course.launch, Course.publish, publish, note, published, launches,
          generation]
      dsimp only
      rw [hlaunch]
      exact .launch hsession

/-! ### A start goes on -/

theorem starts_failStart (c : Client) (g : Nat) (error : SessionError) :
    c.course.Starts g (c.failStart g error).1.course (c.failStart g error).2 := by
  simp only [failStart, course_reportFailure]
  exact .failed error

theorem starts_abandonStart (c : Client) (g : Nat) (error : SessionError) :
    c.course.Starts g (c.abandonStart g error).1.course (c.abandonStart g error).2 :=
  .waits _ rfl

theorem starts_beginHandshake (c : Client) (g : Nat) :
    c.course.Starts g (c.beginHandshake g).1.course (c.beginHandshake g).2 := by
  unfold beginHandshake
  split
  · exact starts_failStart c g _
  · simp only [course_send, course_updateConnection]
    exact .waits _ rfl

theorem starts_afterLaunch (c : Client) (g : Nat) :
    c.course.Starts g (c.afterLaunch g).1.course (c.afterLaunch g).2 := by
  unfold afterLaunch
  split
  · exact starts_failStart c g _
  · exact starts_beginHandshake c g
  · exact .waits _ rfl

theorem starts_install (c : Client) (g : Nat) :
    c.course.Starts g (c.install g).1.course (c.install g).2 := by
  unfold install
  dsimp only
  split
  · have h := starts_failStart (c.setPump g .waiting) g .connectionClosed
    rwa [course_setPump] at h
  · -- Neither the hooks nor the pump change what has been published or who owns the session.
    simp only [course_setPump, course_of_workspaceEffect (workspaceEffect_runHooks g), course_publish]
    have hslot : ({ c.setPump g .waiting with slot := some g } : Client).course =
        { c.course with slot := some g } := by
      rw [← course_setPump c g .waiting]
      rfl
    rw [hslot]
    exact .ready

theorem starts_afterHandshake (c : Client) (g id : Nat) :
    c.course.Starts g (c.afterHandshake g id).1.course (c.afterHandshake g id).2 := by
  unfold afterHandshake
  split
  · exact .waits _ rfl
  · rename_i c' error hsettle
    rw [← course_settle? hsettle]
    exact starts_abandonStart c' g error
  · rename_i c' result hsettle
    rw [← course_settle? hsettle]
    split
    · split
      · rename_i c'' hnotify
        rw [← course_notify? hnotify]
        exact starts_install c'' g
      · exact starts_abandonStart c' g _
    · exact starts_abandonStart c' g _

/-- A start that was given up fails when its connection and its process have ended. -/
theorem starts_reap (c : Client) (operation : Operation) (g : Nat) (error : SessionError) :
    c.course.Starts g (c.reap operation g (some error)).1.course
      (c.reap operation g (some error)).2 := by
  unfold reap
  dsimp only
  rw [← course_updateConnection c g Connection.abort]
  split
  · exact .waits _ rfl
  · exact starts_failStart _ g error

theorem starts_afterAbandoning (c : Client) (operation : Operation) (g : Nat)
    (error : SessionError) (deadline : Nat) :
    c.course.Starts g (c.afterAbandoning operation g error deadline).1.course
      (c.afterAbandoning operation g error deadline).2 := by
  unfold afterAbandoning
  split
  · exact starts_reap c operation g error
  · exact .waits _ rfl

theorem starts_afterReaping (c : Client) (operation : Operation) (g deadline : Nat)
    (error : SessionError) :
    c.course.Starts g (c.afterReaping operation g deadline (some error)).1.course
      (c.afterReaping operation g deadline (some error)).2 := by
  unfold afterReaping
  split
  · rw [← course_endProcess c g]
    exact starts_failStart _ g error
  · exact .waits _ rfl

/-! ### A stop goes on -/

theorem stops_afterShutdown (c : Client) (operation : Operation) (g id : Nat) :
    c.course.Stops operation g (c.afterShutdown g id).1.course (c.afterShutdown g id).2 := by
  unfold afterShutdown
  split
  · exact .waits _ rfl
  · rename_i c' outcome hsettle
    rw [← course_settle? hsettle]
    dsimp only
    split
    · -- The last notification may come too late for the connection.
      have hexit : ((c'.notify? g ⟨Method.exit, .null⟩).getD c').course = c'.course := by
        cases hnotify : c'.notify? g ⟨Method.exit, .null⟩ with
        | none => rfl
        | some c'' => exact course_notify? hnotify
      rw [hexit]
      exact .waits _ rfl
    · exact .waits _ rfl

/-- Once a session has ended, a stop is over and a restart starts the next one. -/
theorem stops_afterClose (c : Client) (operation : Operation) (g : Nat) :
    c.course.Stops operation g (c.afterClose operation g none).1.course
      (c.afterClose operation g none).2 := by
  have hstopped : ((c.setPump g .ended).publish g .stopped).course =
      c.course.publish g .stopped := by simp
  by_cases hop : operation = .stop
  · subst hop
    simp only [afterClose, afterStop, hstopped]
    exact .stopped rfl
  · have hstart : c.afterClose operation g none =
        ((c.setPump g .ended).publish g .stopped).startLocked := by
      cases operation <;> simp_all [afterClose, afterStop]
    rw [hstart]
    refine .restarts hop ?_
    rw [← hstopped]
    exact opens_startLocked _

theorem stops_reap (c : Client) (operation : Operation) (g : Nat) :
    c.course.Stops operation g (c.reap operation g none).1.course (c.reap operation g none).2 := by
  unfold reap
  dsimp only
  rw [← course_updateConnection c g Connection.abort]
  split
  · exact .waits _ rfl
  · exact stops_afterClose _ operation g

theorem stops_afterClosing (c : Client) (operation : Operation) (g deadline : Nat) :
    c.course.Stops operation g (c.afterClosing operation g deadline).1.course
      (c.afterClosing operation g deadline).2 := by
  unfold afterClosing
  split
  · exact stops_reap c operation g
  · exact .waits _ rfl

theorem stops_afterReaping (c : Client) (operation : Operation) (g deadline : Nat) :
    c.course.Stops operation g (c.afterReaping operation g deadline none).1.course
      (c.afterReaping operation g deadline none).2 := by
  unfold afterReaping
  split
  · rw [← course_endProcess c g]
    exact stops_afterClose _ operation g
  · exact .waits _ rfl

/-! ### The beginning of a turn -/

/-- The turn of an operation that stops begins with the session that is owned. -/
theorem begins_stopLocked (c : Client) (operation : Operation) (hop : operation.isStart = false) :
    c.course.Begins operation (c.stopLocked operation).1.course (c.stopLocked operation).2 := by
  unfold stopLocked
  cases hslot : c.slot with
  | none =>
      by_cases hstop : operation = .stop
      · subst hstop
        exact .idle rfl hslot
      · have hstart : c.afterStop operation = c.startLocked := by
          cases operation <;> simp_all [afterStop]
        dsimp only
        rw [hstart]
        exact .restarts hop hstop hslot (opens_startLocked c)
  | some g =>
      dsimp only
      rw [course_send]
      exact .takes g _ hop hslot rfl

theorem begins_beginTurn (c : Client) (operation : Operation) :
    c.course.Begins operation (c.beginTurn operation).1.course (c.beginTurn operation).2 := by
  by_cases hop : operation.isStart
  · have hstart : c.beginTurn operation = c.startLocked := by
      cases operation <;> simp_all [beginTurn, Operation.isStart]
    rw [hstart]
    exact .starts hop (opens_startLocked c)
  · have hop' : operation.isStart = false := by simpa using hop
    have hstop : c.beginTurn operation = c.stopLocked operation := by
      cases operation <;> simp_all [beginTurn, Operation.isStart]
    rw [hstop]
    exact begins_stopLocked c operation hop'

end Client

end LanguageClient
