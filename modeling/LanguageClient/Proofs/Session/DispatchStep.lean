import LanguageClient.Proofs.Session.Chronicle
import LanguageClient.Proofs.Session.Dispatch

/-!
# What events do to hooks and pumps

What an event can do to hooks, set-offs, deliveries, queues and statuses is said once, as an
inductive relation with what holds before each change; whatever holds of hooks and pumps is derived
from it.

* `Connection.arrival?`, `Client.arrival?` — the notification that an event queues.
* `Dispatch.Starts`, `Dispatch.Stops` — what a call in its turn does to them.
* **`Dispatch.Step`** — what an event does to them.
* **`Client.dispatch_step`** — every event that drops no turn is such a step.
-/

namespace LanguageClient

/-! ### Notifications arrive -/

namespace Connection

/-- The notification that a step of the loop queues: the message that it handles, if that is one. -/
def arrival? (c : Connection) : Action → Option Notification
  | .handle =>
      if c.isAttentive then match c.inbox with
        | .ok value :: _ => match Inbound.classify? value with
            | some (.notification message) => some message
            | _ => none
        | _ => none
      else none
  | _ => none

/-- The queue of notifications is as before up to one that arrived, and the connection is open as
before or has ended. -/
structure Queues (c d : Connection) (arrival? : Option Notification) : Prop where
  notifications : d.notifications = c.notifications ++ arrival?.toList
  isOpen : d.isOpen = c.isOpen ∨ arrival? = none ∧ d.isOpen = false
  live : arrival?.isSome → c.isOpen

theorem queues_same {c d : Connection} (hnotifications : d.notifications = c.notifications)
    (hopen : d.isOpen = c.isOpen ∨ d.isOpen = false) : c.Queues d none := by
  refine ⟨by simpa using hnotifications, ?_, by simp⟩
  exact hopen.imp_right fun hclosed => ⟨rfl, hclosed⟩

theorem queues_closeCalls (c : Connection) : c.Queues c.closeCalls none := by
  refine queues_same ?_ (.inr rfl)
  rw [closeCalls_eq]

theorem queues_teardown (c : Connection) : c.Queues c.teardown none := by
  refine queues_same ?_ (.inr rfl)
  rw [teardown_eq, closeCalls_eq]

/-- What arrives is handled by a step that the loop can take. -/
theorem step?_of_arrival? {c : Connection} {action : Action} {message : Notification}
    (h : c.arrival? action = some message) :
    action.isSpontaneous ∧ ∃ d, c.step? action = some d := by
  cases action with
  | handle =>
      refine ⟨rfl, ?_⟩
      simp only [arrival?] at h
      split at h
      · rename_i hattentive
        split at h
        · rename_i value rest hinbox
          exact ⟨_, by simp only [step?, handle?, hattentive, hinbox]; rfl⟩
        · cases h
      · cases h
  | _ => cases h

/-- Every step that a connection or its server takes by itself. -/
theorem queues_step? {c d : Connection} {action : Action} (hspontaneous : action.isSpontaneous)
    (h : c.step? action = some d) : c.Queues d (c.arrival? action) := by
  cases transition_of_step h with
  | start hcreated hkept => exact queues_same rfl (.inl (by simp [isOpen, hcreated]))
  | breakOff => exact queues_teardown c
  | handle value rest after hruns hfree hinbox haccepts =>
      rw [arrival?, if_pos (isAttentive_iff.mpr ⟨hruns, hfree⟩), hinbox]
      cases haccepts with
      | notify message hvalue =>
          simp only [hvalue]
          exact ⟨rfl, .inl rfl, fun _ => isOpen_of_running hruns⟩
      | drop hvalue | answer response id hvalue hid hpending | stray response hvalue hid
        | reply request hvalue =>
          simp only [hvalue]
          exact queues_same rfl (.inl rfl)
  | fault e rest hruns hfree hinbox =>
      rw [arrival?, if_pos (isAttentive_iff.mpr ⟨hruns, hfree⟩), hinbox]
      exact queues_teardown c
  | finish hruns hfree hinbox hstopped =>
      rw [arrival?, if_pos (isAttentive_iff.mpr ⟨hruns, hfree⟩), hinbox]
      exact queues_teardown c
  | remove haborted hopen => exact queues_closeCalls c
  | find | lose | skip | fail | stop | write | wrote | receive | endOfStream | stopReading =>
      exact queues_same rfl (.inl rfl)
  | request | notify | settle | forget | take | abort => cases hspontaneous

end Connection

/-! ### What can happen -/

namespace Dispatch

/-- The latest session is being started: nothing else has been published of it. -/
structure IsStarting (s : Dispatch) (g : Nat) : Prop where
  status : s.status = ⟨g, .starting⟩
  first : ∀ status ∈ s.published, status.generation = g → status.state = .starting

/-- How the start of a generation goes on: it waits, becomes ready or fails; a session whose
connection has ended is refused when its pump already waits. -/
inductive Starts (s : Dispatch) (g : Nat) : Dispatch → Prop
  | waits : Starts s g s
  | ready {t : Dispatch} (h : s.BecomesReady g t) : Starts s g t
  | failed : Starts s g (s.publish g .failed)
  | refused : Starts s g ((s.updatePumpQueue g .disarm).publish g .failed)

/-- How the stop of a generation goes on: it waits, or its pump ends and it is published as stopped;
a restart launches the next session. -/
inductive Stops (s : Dispatch) (g : Nat) : Dispatch → Prop
  | waits : Stops s g s
  | stopped : Stops s g ((s.updatePumpQueue g .disarm).publish g .stopped)
  | restarts : Stops s g ((s.updatePumpQueue g .disarm).publish g .stopped).launch

/-- What an event does to hooks and pumps, with the notification that it queues. -/
inductive Step (s : Dispatch) : Option (Nat × Notification) → Dispatch → Prop
  | stays : Step s none s
  | enrolls (more : List Hook) : Step s none (s.enroll more)
  | launches (more : List Hook) (hready : s.status.isReady = false) :
      Step s none (s.enroll more).launch
  | starts {g : Nat} {t : Dispatch} (hs : s.IsStarting g) (h : s.Starts g t) : Step s none t
  | stops {g : Nat} {t : Dispatch} (hs : s.status = ⟨g, .ready⟩) (h : s.Stops g t) : Step s none t
  | delivers (g : Nat) (message : Notification) (rest : List Notification) (isOpen : Bool)
      (h : s.pumpQueue? g = some ⟨true, message :: rest, isOpen⟩) :
      Step s none { s.updatePumpQueue g (fun d => { d with waiting := rest }) with
        deliveries := s.deliveries ++ [(g, message)] }
  | loses (g : Nat) (hs : s.status = ⟨g, .ready⟩) (h : s.pumpQueue? g = some ⟨true, [], false⟩) :
      Step s none ((s.updatePumpQueue g .disarm).publish g .failed)
  | rests (g : Nat) (h : s.pumpQueue? g = some ⟨true, [], false⟩) :
      Step s none (s.updatePumpQueue g .disarm)
  | arrives (g : Nat) (message : Notification) (d : PumpQueue) (h : s.pumpQueue? g = some d)
      (hopen : d.isOpen) : Step s (some (g, message)) (s.updatePumpQueue g (.put message))
  | closes (g : Nat) : Step s none (s.updatePumpQueue g .close)

theorem enroll_nil (s : Dispatch) : s.enroll [] = s := by
  simp [enroll]

theorem enroll_enroll (s : Dispatch) (more others : List Hook) :
    (s.enroll more).enroll others = s.enroll (more ++ others) := by
  have hstatus : (s.enroll more).status = s.status := rfl
  rw [enroll, hstatus]
  cases hready : s.status.isReady <;> simp [enroll, hready, ← List.range'_append_1]

end Dispatch

namespace Client

variable {c : Client} {k : Nat} {call : Call}

/-- The notification that an event queues for the pump of a generation. -/
def arrival? (c : Client) : Event → Option (Nat × Notification)
  | .connection g action => match c.attempt? g with
      | some { launch := .connected, connection, .. } =>
          (connection.arrival? action).map fun message => (g, message)
      | _ => none
  | _ => none

/-! ### What leaves hooks and pumps alone -/

@[simp] theorem dispatch_setPhase (c : Client) (k : Nat) (phase : Phase) :
    (c.setPhase k phase).dispatch = c.dispatch := rfl

@[simp] theorem dispatch_finish (c : Client) (k : Nat) (outcome : Outcome) :
    (c.finish k outcome).dispatch = c.dispatch := rfl

@[simp] theorem dispatch_finishCommand (c : Client) (k : Nat) (result : Except CommandError Unit) :
    (c.finishCommand k result).dispatch = c.dispatch := by
  unfold finishCommand
  dsimp only
  split
  · rw [dispatch_finish, dispatch_say]
  · rw [dispatch_finish]

@[simp] theorem dispatch_conclude (c : Client) (k : Nat) (outcome : Outcome) :
    (c.conclude k outcome).dispatch = c.dispatch := by
  unfold conclude
  dsimp only
  split
  · split <;> simp only [dispatch_finish, dispatch_say, dispatch_endProgress] <;> rfl
  · split <;> simp only [dispatch_finishCommand, dispatch_say, dispatch_endProgress] <;> rfl
  · rfl

@[simp] theorem dispatch_proceed (k : Nat) (result : Client × Next) :
    (proceed k result).dispatch = result.1.dispatch := by
  obtain ⟨c, next⟩ := result
  cases next with
  | waits phase => rfl
  | ends outcome => exact dispatch_conclude c k outcome

theorem dispatch_showFile (c : Client) (source : String) (reply : Except SessionError Json) :
    (c.showFile source reply).1.dispatch = c.dispatch := by
  unfold showFile
  split
  · rfl
  · split
    · rfl
    · rfl
    · dsimp only
      rw [dispatch_say]
      split <;> rfl

theorem dispatch_concludeShow (c : Client) (k : Nat) (source : String)
    (result : Except SessionError (Option String)) :
    (c.concludeShow k source result).dispatch = c.dispatch := by
  unfold concludeShow
  split
  · dsimp only
    rw [dispatch_finishCommand]
    split
    · rfl
    · exact dispatch_say c _
    · exact dispatch_say c _
  · split <;> rfl

theorem dispatch_concludeDoctor (c : Client) (k : Nat) (reply : Except SessionError Json) :
    (c.concludeDoctor k reply).dispatch = c.dispatch := by
  unfold concludeDoctor
  split <;> simp only [dispatch_finishCommand, dispatch_finish, dispatch_say]

theorem dispatch_useReply (c : Client) (k : Nat) (reply : Except SessionError Json)
    (goal : RequestGoal) : (c.useReply k reply goal).dispatch = c.dispatch := by
  cases goal with
  | relay => cases reply <;> rfl
  | read shape =>
      cases reply with
      | error e => rfl
      | ok value =>
          dsimp only [useReply]
          cases shape.read? value <;> rfl
  | virtualFile source =>
      exact (dispatch_concludeShow _ k source _).trans (dispatch_showFile c source reply)
  | doctor => exact dispatch_concludeDoctor c k reply

@[simp] theorem dispatch_ask (c : Client) (k g : Nat) (method : String) (params : Json)
    (goal : RequestGoal) : (c.ask k g method params goal).dispatch = c.dispatch :=
  dispatch_send c g method params c.options.requestTimeout

@[simp] theorem dispatch_askSession (c : Client) (k : Nat) (method : String) (params : Json)
    (goal : RequestGoal) : (c.askSession k method params goal).dispatch = c.dispatch := by
  unfold askSession
  split
  · exact dispatch_ask c k _ method params goal
  · exact dispatch_useReply c k _ goal

theorem dispatch_afterReply (c : Client) (k g id : Nat) (goal : RequestGoal) :
    (c.afterReply k g id goal).dispatch = c.dispatch := by
  unfold afterReply
  split
  · rfl
  · rename_i c' reply hsettle
    rw [← dispatch_settle? hsettle]
    exact dispatch_useReply c' k reply goal

theorem dispatch_look (c : Client) (k : Nat) : (c.look k).dispatch = c.dispatch := by
  unfold look
  repeat' split
  all_goals rfl

theorem dispatch_runAbout (c : Client) (k : Nat) (id : String) (args : List Json) (hint : String)
    {run : String → Client} (hrun : ∀ subject, (run subject).dispatch = c.dispatch) :
    (c.runAbout k id args hint run).dispatch = c.dispatch := by
  unfold runAbout
  split
  · rw [dispatch_finishCommand, dispatch_say]
  · split
    · exact hrun _
    · exact dispatch_finishCommand c k _

@[simp] theorem dispatch_tidy (c : Client) : c.tidy.dispatch = c.dispatch := by
  -- An attempt that is discarded keeps its queue, and a pump that delivers goes on.
  have hdiscard : ∀ a : Attempt, (discard a).pumpQueue = a.pumpQueue := by
    intro a
    unfold discard
    split
    · simp only [Attempt.pumpQueue, PumpQueue.mk.injEq]
      refine ⟨?_, rfl, rfl⟩
      by_cases hpump : a.pump = .waiting <;> simp [hpump]
    · rfl
  have hqueues : ∀ kept : Nat → Bool, (c.attempts.mapIdx fun i a =>
      if kept (i + 1) then a else discard a).map Attempt.pumpQueue =
        c.attempts.map Attempt.pumpQueue := by
    intro kept
    refine List.ext_getElem? fun i => ?_
    simp only [List.getElem?_map, List.getElem?_mapIdx]
    cases c.attempts[i]? with
    | none => rfl
    | some a =>
        simp only [Option.map_some]
        split
        · rfl
        · rw [hdiscard]
  unfold tidy
  dsimp only
  split <;> exact congrArg (fun pumpQueues => { c.dispatch with pumpQueues }) (hqueues _)

/-! ### Parts of a turn -/

/-- A start that has its turn hands out the session that is ready, or launches a server. -/
theorem dispatch_startLocked (c : Client) :
    (c.startLocked.1.dispatch = c.dispatch ∧ c.session?.isSome) ∨
    c.startLocked.1.dispatch = c.dispatch.launch ∧ c.session? = none := by
  unfold startLocked
  cases hsession : c.session? with
  | some g => exact .inl ⟨rfl, rfl⟩
  | none =>
      refine .inr ⟨?_, rfl⟩
      dsimp only
      rw [dispatch_note (by simp) (by simp) (by simp), dispatch_publish]
      simp [dispatch, Dispatch.launch, Dispatch.publish, Attempt.pumpQueue, generation, published,
        setOffs,
        deliveries, Connection.isOpen]

theorem dispatch_launch_of_not_ready {c : Client} (h : c.status.isReady = false) :
    c.startLocked.1.dispatch = c.dispatch.launch := by
  have hnone : c.session? = none := by simp [session?, h]
  rcases dispatch_startLocked c with ⟨-, hsome⟩ | ⟨hlaunch, -⟩
  · rw [hnone] at hsome
    cases hsome
  · exact hlaunch

theorem dispatch_starts_failStart (c : Client) (g : Nat) (error : SessionError) :
    c.dispatch.Starts g (c.failStart g error).1.dispatch := by
  rw [failStart, dispatch_reportFailure]
  exact .failed

theorem dispatch_starts_afterLaunch (c : Client) (g : Nat) :
    c.dispatch.Starts g (c.afterLaunch g).1.dispatch := by
  unfold afterLaunch
  split
  · exact dispatch_starts_failStart c g _
  · unfold beginHandshake
    split
    · exact dispatch_starts_failStart c g _
    · rename_i connection htake
      have htaken : (c.updateConnection g fun _ => connection).dispatch = c.dispatch := by
        refine dispatch_updateConnection_same ?_
        intro k hk
        rw [hk, Option.bind_some] at htake
        obtain ⟨-, rfl⟩ := Connection.take?_eq_some_iff.mp htake
        exact ⟨rfl, rfl⟩
      dsimp only
      rw [dispatch_send, htaken]
      exact .waits
  · exact .waits

theorem dispatch_starts_install (c : Client) (g : Nat) :
    c.dispatch.Starts g (c.install g).1.dispatch := by
  -- The pump waits from the moment on at which the connection is looked at once more.
  unfold install
  dsimp only
  split
  · rw [failStart, dispatch_reportFailure, dispatch_setPump_waiting]
    exact .refused
  · have hready :
        (({ c.setPump g .waiting with slot := some g } : Client).publish g .ready).dispatch =
        (c.setPump g .waiting).dispatch.publish g .ready := dispatch_publish _ g .ready
    have hbecomes := becomesReady_runHooks hready
    rw [dispatch_setPump_waiting] at hbecomes
    exact .ready (Dispatch.becomesReady_of_disarmed hbecomes)

theorem dispatch_starts_afterHandshake (c : Client) (g id : Nat) :
    c.dispatch.Starts g (c.afterHandshake g id).1.dispatch := by
  unfold afterHandshake
  split
  · exact .waits
  · rename_i c' error hsettle
    rw [← dispatch_settle? hsettle]
    exact .waits
  · rename_i c' result hsettle
    rw [← dispatch_settle? hsettle]
    split
    · split
      · rename_i c'' hnotify
        rw [← dispatch_notify? hnotify]
        exact dispatch_starts_install c'' g
      · exact .waits
    · exact .waits

theorem dispatch_abort (c : Client) (g : Nat) :
    (c.updateConnection g Connection.abort).dispatch = c.dispatch :=
  dispatch_updateConnection_same fun _ _ => ⟨rfl, rfl⟩

theorem dispatch_starts_reap (c : Client) (operation : Operation) (g : Nat) (error : SessionError) :
    c.dispatch.Starts g (c.reap operation g (some error)).1.dispatch := by
  unfold reap
  dsimp only
  rw [← dispatch_abort c g]
  split
  · exact .waits
  · exact dispatch_starts_failStart _ g error

theorem dispatch_stops_afterClose (c : Client) (operation : Operation) (g : Nat) :
    c.dispatch.Stops g (c.afterClose operation g none).1.dispatch := by
  have hstopped : ((c.setPump g .ended).publish g .stopped).dispatch =
      (c.dispatch.updatePumpQueue g .disarm).publish g .stopped := by
    rw [dispatch_publish, dispatch_setPump_ended]
  by_cases hop : operation = .stop
  · subst hop
    simp only [afterClose, afterStop, hstopped]
    exact .stopped
  · have hstart : c.afterClose operation g none =
        ((c.setPump g .ended).publish g .stopped).startLocked := by
      cases operation <;> simp_all [afterClose, afterStop]
    have hready : ((c.setPump g .ended).publish g .stopped).status.isReady = false := by
      rw [← status_dispatch, dispatch_publish, Dispatch.status_publish]
      rfl
    rw [hstart, dispatch_launch_of_not_ready hready, hstopped]
    exact .restarts

theorem dispatch_stops_reap (c : Client) (operation : Operation) (g : Nat) :
    c.dispatch.Stops g (c.reap operation g none).1.dispatch := by
  unfold reap
  dsimp only
  rw [← dispatch_abort c g]
  split
  · exact .waits
  · exact dispatch_stops_afterClose _ operation g

/-- A call that starts a session goes on. -/
theorem dispatch_starts_goOn (c : Client) (k : Nat) (operation : Operation) {phase : Phase} {g : Nat}
    (h : phase.startOf? = some g) : c.dispatch.Starts g (c.goOn k operation phase).dispatch := by
  cases phase with
  | launching g' =>
      cases h
      rw [goOn, dispatch_proceed]
      exact dispatch_starts_afterLaunch c g
  | initializing g' id =>
      cases h
      rw [goOn, dispatch_proceed]
      exact dispatch_starts_afterHandshake c g id
  | abandoning g' error deadline =>
      cases h
      rw [goOn, dispatch_proceed, afterAbandoning]
      split
      · exact dispatch_starts_reap c operation g error
      · exact .waits
  | reaping g' deadline error? =>
      cases error? with
      | none => cases h
      | some error =>
          cases h
          rw [goOn, dispatch_proceed, afterReaping]
          split
          · rw [← dispatch_endProcess c g]
            exact dispatch_starts_failStart _ g error
          · exact .waits
  | _ => cases h

/-- A call that stops a session goes on. -/
theorem dispatch_stops_goOn (c : Client) (k : Nat) (operation : Operation) {phase : Phase} {g : Nat}
    (h : phase.stopOf? = some g) : c.dispatch.Stops g (c.goOn k operation phase).dispatch := by
  cases phase with
  | stopping g' id =>
      cases h
      have hshutdown : (c.afterShutdown g id).1.dispatch = c.dispatch := by
        unfold afterShutdown
        split
        · rfl
        · rename_i c' outcome hsettle
          rw [← dispatch_settle? hsettle]
          dsimp only
          split
          · cases hnotify : c'.notify? g ⟨Method.exit, .null⟩ with
            | none => rfl
            | some c'' => exact dispatch_notify? hnotify
          · rfl
      rw [goOn, dispatch_proceed, hshutdown]
      exact .waits
  | closing g' deadline =>
      cases h
      rw [goOn, dispatch_proceed, afterClosing]
      split
      · exact dispatch_stops_reap c operation g
      · exact .waits
  | reaping g' deadline error? =>
      cases error? with
      | some error => cases h
      | none =>
          cases h
          rw [goOn, dispatch_proceed, afterReaping]
          split
          · rw [← dispatch_endProcess c g]
            exact dispatch_stops_afterClose _ operation g
          · exact .waits
  | _ => cases h

/-- The turn of a call begins: a server is launched, or nothing happens to hooks and pumps. -/
theorem dispatch_beginTurn (c : Client) (operation : Operation) :
    (c.beginTurn operation).1.dispatch = c.dispatch ∨
      (c.beginTurn operation).1.dispatch = c.dispatch.launch ∧ c.session? = none := by
  have hstart : c.startLocked.1.dispatch = c.dispatch ∨
      c.startLocked.1.dispatch = c.dispatch.launch ∧ c.session? = none :=
    (dispatch_startLocked c).imp_left And.left
  have hstop : (c.stopLocked operation).1.dispatch = c.dispatch ∨
      (c.stopLocked operation).1.dispatch = c.dispatch.launch ∧ c.session? = none := by
    unfold stopLocked
    cases c.slot with
    | none => cases operation <;> first | exact .inl rfl | exact hstart
    | some g =>
        left
        dsimp only
        rw [dispatch_send]
        rfl
  cases operation <;> first | exact hstart | exact hstop

/-! ### Calls that ask for a turn -/

/-- While nobody has a turn, a session that is published as ready is owned, or the client is held by
nobody. -/
theorem not_ready_of_no_session (ht : c.life.HasChronicle) (hheld : c.isHeld)
    (hnobody : ∀ (i : Nat) (other : Call), c.calls[i]? = some other → other.phase.isTurn = false)
    (hsession : c.session? = none) : c.status.isReady = false := by
  obtain ⟨fates, hended | ⟨hstarting, -⟩ | ⟨hready, hslot | hnot | ⟨i, other, hother, hstop⟩⟩⟩ := ht
  · have hstate : c.status.state = .stopped ∨ c.status.state = .failed :=
      Course.status_of_ended hended
    rcases hstate with hstate | hstate <;> simp [Status.isReady, hstate]
  · have hstatus : c.status = _ := Course.status_of_starting hstarting
    rw [hstatus]
    rfl
  · obtain ⟨g, hg⟩ := Option.isSome_iff_exists.mp hslot
    have hslot' : c.slot = some g := hg
    have hstatus : c.status = _ := Course.status_of_ready hready
    rw [session?, hstatus] at hsession
    rw [hslot'] at hsession
    cases hsession
  · rw [isHeld_eq_life, hnot] at hheld
    cases hheld
  · obtain ⟨g, hg⟩ := Option.isSome_iff_exists.mp hstop
    have hturn := hnobody i other hother
    rw [Phase.isTurn_of_stopOf? hg] at hturn
    cases hturn

/-- What a call does to hooks and pumps while it has no turn: it enrolls hooks at most, and with a
turn that begins it may launch a server. -/
def EnrollsOrLaunches (c d : Client) : Prop :=
  ∃ more : List Hook, d.dispatch = c.dispatch.enroll more ∨
  d.dispatch = (c.dispatch.enroll more).launch ∧ c.session? = none ∧ c.isHeld ∧
    ∀ (i : Nat) (other : Call), c.calls[i]? = some other → other.phase.isTurn = false

theorem enrollsOrLaunches_of_dispatch {d : Client} (h : d.dispatch = c.dispatch) :
    c.EnrollsOrLaunches d :=
  ⟨[], .inl (by rw [h, Dispatch.enroll_nil])⟩

/-- What a call does without a turn is a step, as long as the statuses form a chronicle. -/
theorem step_of_enrollsOrLaunches (ht : c.life.HasChronicle) {d : Client}
    (h : c.EnrollsOrLaunches d) : c.dispatch.Step none d.dispatch := by
  obtain ⟨more, hmore | ⟨hlaunch, hsession, hheld, hnobody⟩⟩ := h
  · rw [hmore]
    exact .enrolls more
  · rw [hlaunch]
    exact .launches more (not_ready_of_no_session ht hheld hnobody hsession)

theorem enrollsOrLaunches_askTurn (h : c.life.Orderly) (hheld : c.isHeld) (k : Nat)
    (operation : Operation) : c.EnrollsOrLaunches (c.askTurn k operation) := by
  unfold askTurn
  dsimp only
  split
  · rename_i hfree
    refine ⟨[], ?_⟩
    rw [dispatch_proceed, Dispatch.enroll_nil]
    refine (dispatch_beginTurn { c with lock := c.lock.acquire k } operation).imp_right ?_
    rintro ⟨hlaunch, hsession⟩
    exact ⟨hlaunch, hsession, hheld, Life.not_isTurn_of_free h hfree⟩
  · exact enrollsOrLaunches_of_dispatch rfl

/-- What an effect on the workspace does to hooks and pumps comes before what the call does without
a turn. -/
theorem enrollsOrLaunches_after {f : Client → Client} (hf : WorkspaceEffect f) {d : Client}
    (more : List Hook)
    (hmore : (f c).dispatch = c.dispatch.enroll more) (h : (f c).EnrollsOrLaunches d) :
    c.EnrollsOrLaunches d := by
  obtain ⟨others, hcase⟩ := h
  have hlife := life_of_workspaceEffect hf c
  have hsession : (f c).session? = c.session? := by
    unfold session?
    rw [hf.slot, show (f c).status = c.status from congrArg Dispatch.status hmore]
  have hheld : (f c).isHeld = c.isHeld := congrArg Life.isHeld hlife
  rw [hmore, Dispatch.enroll_enroll, hsession, hheld, hf.calls] at hcase
  exact ⟨more ++ others, hcase⟩

theorem enrollsOrLaunches_runCommand (h : c.life.Orderly) (k : Nat) (id : String) (args : List Json)
    (action : CommandAction) : c.EnrollsOrLaunches (c.runCommand k id args action) := by
  cases action with
  | openSnippetFolder =>
      refine enrollsOrLaunches_of_dispatch ?_
      simp only [runCommand]
      split <;> simp only [dispatch_finishCommand, dispatch_say]
  | restartServer =>
      simp only [runCommand]
      split
      · rename_i hheld
        have heffect := workspaceEffect_beginProgress k restartTitle
        have hlife := life_of_workspaceEffect heffect c
        refine enrollsOrLaunches_after heffect [] (by simp [Dispatch.enroll_nil]) ?_
        refine enrollsOrLaunches_askTurn (by rwa [hlife]) ?_ k .restart
        rw [isHeld_eq_life, hlife]
        exact hheld
      · exact enrollsOrLaunches_of_dispatch (dispatch_finishCommand c k _)
  | showOutput =>
      refine enrollsOrLaunches_of_dispatch ?_
      simp only [runCommand, dispatch_finishCommand, dispatch_say]
  | showVirtualFile =>
      exact enrollsOrLaunches_of_dispatch
        (dispatch_runAbout c k id args _ fun source => dispatch_askSession c k _ _ _)
  | showDoctor =>
      exact enrollsOrLaunches_of_dispatch
        (dispatch_runAbout c k id args _ fun file => dispatch_askSession c k _ _ _)

/-- The activation enrolls a hook and then asks for a turn. -/
theorem enrollsOrLaunches_activate (h : c.life.Orderly) (hheld : c.isHeld) (k : Nat) :
    c.EnrollsOrLaunches (c.activate k) := by
  let c₁ : Client := ((c.say (.registerContentProvider virtualScheme)).registerCommand
    CommandName.openSnippetFolder .openSnippetFolder).registerCommand
    CommandName.restartServer .restartServer
  have hdispatch₁ : c₁.dispatch = c.dispatch := by
    simp only [c₁, dispatch_registerCommand, dispatch_say]
  obtain ⟨more, hmore⟩ := dispatch_onReady c₁ .wire
  have heffect := workspaceEffect_prepare k
  have hlife := life_of_workspaceEffect heffect c
  refine enrollsOrLaunches_after heffect more ?_ (enrollsOrLaunches_askTurn ?_ ?_ k .activate)
  · rw [dispatch_beginProgress, hmore, hdispatch₁]
  · rwa [hlife]
  · rw [isHeld_eq_life, hlife]
    exact hheld

theorem enrollsOrLaunches_beginCall (h : c.life.Orderly) (hcall : c.calls[k]? = some call)
    (hphase : call.phase = .fresh) : c.EnrollsOrLaunches (c.beginCall k call.operation) := by
  -- A caller who asks for a turn holds the client.
  have hheld : call.holdsClient → c.isHeld := Life.isHeld_of_holdsClient (l := c.life) hcall
  rw [Call.holdsClient, hphase] at hheld
  cases hop : call.operation with
  | start => exact enrollsOrLaunches_askTurn h (hheld (by rw [hop]; rfl)) k .start
  | stop => exact enrollsOrLaunches_askTurn h (hheld (by rw [hop]; rfl)) k .stop
  | restart => exact enrollsOrLaunches_askTurn h (hheld (by rw [hop]; rfl)) k .restart
  | activate => exact enrollsOrLaunches_activate h (hheld (by rw [hop]; rfl)) k
  | ready => exact enrollsOrLaunches_of_dispatch (dispatch_look c k)
  | request method params shape => exact enrollsOrLaunches_of_dispatch (dispatch_askSession c k _ _ _)
  | relay g method params =>
      simp only [beginCall]
      split
      · exact enrollsOrLaunches_of_dispatch (dispatch_ask c k g _ _ _)
      · exact enrollsOrLaunches_of_dispatch rfl
  | showVirtualFile source => exact enrollsOrLaunches_of_dispatch (dispatch_askSession c k _ _ _)
  | command id args reported =>
      simp only [beginCall]
      split
      · exact enrollsOrLaunches_runCommand h k id args _
      · exact enrollsOrLaunches_of_dispatch (dispatch_finishCommand c k _)

/-- A call that has no turn goes on. -/
theorem enrollsOrLaunches_goOn (h : c.life.Orderly) (hcall : c.calls[k]? = some call)
    (hcan : c.canGoOn k call.phase) (hturn : ¬ call.phase.isTurn) :
    c.EnrollsOrLaunches (c.goOn k call.operation call.phase) := by
  cases hphase : call.phase with
  | fresh => exact enrollsOrLaunches_beginCall h hcall hphase
  | queued =>
      have hholder : c.lock.holder? = some k := by simpa [hphase, canGoOn] using hcan
      have hnobody := Life.not_isTurn_of_waiting h hholder hcall (by rw [hphase]; rfl)
      have hheld : c.isHeld :=
        Life.isHeld_of_holdsClient (l := c.life) hcall (h.holds k call hcall (.inl hphase))
      refine ⟨[], ?_⟩
      rw [goOn, dispatch_proceed, Dispatch.enroll_nil]
      refine (dispatch_beginTurn c call.operation).imp_right ?_
      rintro ⟨hlaunch, hsession⟩
      exact ⟨hlaunch, hsession, hheld, hnobody⟩
  | watching seen => exact enrollsOrLaunches_of_dispatch (dispatch_look c k)
  | peeking => exact enrollsOrLaunches_of_dispatch (dispatch_look { c with lock := c.lock.leave k } k)
  | awaiting g id goal => exact enrollsOrLaunches_of_dispatch (dispatch_afterReply c k g id goal)
  | finished outcome => exact enrollsOrLaunches_of_dispatch rfl
  | dropped => exact enrollsOrLaunches_of_dispatch rfl
  | reaping g deadline error? =>
      exact absurd (by rw [hphase]; exact Phase.isTurn_reaping g deadline error?) hturn
  | _ => exact absurd (by rw [hphase]; rfl) hturn

/-! ### A call goes on -/

/-- While a call starts a session, nothing but that has been published of it. -/
theorem isStarting_dispatch (ht : c.life.HasChronicle) {g : Nat} (hg : c.course.IsStarting g) :
    c.dispatch.IsStarting g := by
  refine ⟨hg.status, ?_⟩
  obtain ⟨fates, rfl, hupTo⟩ := Life.publishedUpTo_of_isStarting ht hg
  obtain ⟨all, hprefix⟩ := Course.prefix_of_publishedUpTo hupTo
  have hpairwise := pairwise_chronicle hprefix
  intro status hmem hgeneration
  have hmem' : status ∈ c.life.course.published := hmem
  rw [hupTo.published, Stage.part, List.mem_append, List.mem_singleton] at hmem'
  rcases hmem' with hbefore | rfl
  · -- A status before the last one is of an earlier session, or earlier in the same one.
    rw [hupTo.published, Stage.part, List.pairwise_append] at hpairwise
    rcases hpairwise.2.2 status hbefore _ (List.mem_singleton_self _) with hless | ⟨-, hrank⟩
    · rw [hgeneration] at hless
      exact absurd hless (Nat.lt_irrefl _)
    · exact absurd hrank (Nat.not_lt_zero _)
  · rfl

theorem step_goOn (h : c.life.Orderly) (ht : c.life.HasChronicle) (hcall : c.calls[k]? = some call)
    (hcan : c.canGoOn k call.phase) :
    c.dispatch.Step none (c.goOn k call.operation call.phase).dispatch := by
  -- The session that a call starts or stops in its turn is the latest one.
  by_cases hturn : call.phase.isTurn
  · have hmatches := (h.turn k call hcall hturn).2
    rcases Phase.start_or_stop_of_isTurn hturn with ⟨g, hg⟩ | ⟨g, hg⟩
    · exact .starts (isStarting_dispatch ht (hmatches.starting g hg)) (dispatch_starts_goOn c k _ hg)
    · exact .stops (hmatches.stopping g hg).status (dispatch_stops_goOn c k _ hg)
  · exact step_of_enrollsOrLaunches ht (enrollsOrLaunches_goOn h hcall hcan hturn)

theorem step_poll (h : c.life.Orderly) (ht : c.life.HasChronicle) (k : Nat) :
    c.dispatch.Step none (c.poll k).dispatch := by
  unfold poll
  split
  · rename_i call hcall
    split
    · rename_i hcan
      exact step_goOn h ht hcall hcan
    · exact .stays
  · exact .stays

/-! ### Pumps and connections -/

theorem dispatch_delivery (c : Client) (g : Nat) (message : Notification)
    (rest : List Notification) :
    (((c.updateConnection g fun k => { k with notifications := rest }).note
      (.delivered g message)).deliver message).dispatch =
        { c.dispatch.updatePumpQueue g (fun d => { d with waiting := rest }) with
          deliveries := c.dispatch.deliveries ++ [(g, message)] } := by
  have htaken : (c.updateConnection g fun k => { k with notifications := rest }).dispatch =
      c.dispatch.updatePumpQueue g fun d => { d with waiting := rest } :=
    dispatch_updateAttempt _ fun _ _ => rfl
  rw [dispatch_deliver, dispatch_note_delivered, htaken, Dispatch.deliveries_updatePumpQueue]

/-- A pump that delivers takes the first notification of those that wait. -/
theorem dispatch_pump {g : Nat} {message : Notification} {rest : List Notification} {isOpen : Bool}
    (h : c.dispatch.pumpQueue? g = some ⟨true, message :: rest, isOpen⟩) :
    (c.pump g).dispatch = { c.dispatch.updatePumpQueue g (fun d => { d with waiting := rest }) with
      deliveries := c.dispatch.deliveries ++ [(g, message)] } := by
  rw [pumpQueue?_dispatch, Option.map_eq_some_iff] at h
  obtain ⟨⟨launch, connection, process, pump⟩, hattempt, hqueue⟩ := h
  simp only [Attempt.pumpQueue, PumpQueue.mk.injEq, decide_eq_true_eq] at hqueue
  obtain ⟨rfl, hnotifications, -⟩ := hqueue
  simp only [Client.pump, hattempt, hnotifications]
  exact dispatch_delivery c g message rest

/-- A pump has nothing to do, delivers, or ends. -/
theorem pump_cases (c : Client) (g : Nat) : c.pump g = c ∨
    (∃ (message : Notification) (rest : List Notification) (isOpen : Bool),
      c.dispatch.pumpQueue? g = some ⟨true, message :: rest, isOpen⟩) ∨
    c.dispatch.pumpQueue? g = some ⟨true, [], false⟩ ∧
      c.pump g = (c.setPump g .ended).connectionLost g := by
  unfold pump
  split
  · rename_i launch connection process hattempt
    have hqueue : c.dispatch.pumpQueue? g =
        some ⟨true, connection.notifications, connection.isOpen⟩ := by
      rw [pumpQueue?_dispatch, hattempt]
      rfl
    split
    · rename_i message rest hnotifications
      rw [hnotifications] at hqueue
      exact .inr (.inl ⟨message, rest, connection.isOpen, hqueue⟩)
    · rename_i hnotifications
      split
      · exact .inl rfl
      · rename_i hopen
        rw [Bool.not_eq_true] at hopen
        rw [hnotifications, hopen] at hqueue
        exact .inr (.inr ⟨hqueue, rfl⟩)
  · exact .inl rfl

/-- A pump that ends: a session that is owned is lost; one that a stop has taken away is not, as the
stop publishes its end. -/
theorem dispatch_connectionLost (c : Client) (g : Nat) :
    ((c.setPump g .ended).connectionLost g).dispatch =
      if c.slot = some g then (c.dispatch.updatePumpQueue g .disarm).publish g .failed
      else c.dispatch.updatePumpQueue g .disarm := by
  have hslot : (c.setPump g .ended).slot = c.slot := congrArg Course.slot (course_setPump c g .ended)
  unfold connectionLost
  rw [hslot]
  split
  · rw [dispatch_reportFailure]
    exact congrArg (Dispatch.publish · g .failed) (dispatch_setPump_ended c g)
  · exact dispatch_setPump_ended c g

/-- A pump that has nothing left ends, and a session that is owned is lost. -/
theorem step_pump (h : c.life.Orderly) (g : Nat) : c.dispatch.Step none (c.pump g).dispatch := by
  rcases pump_cases c g with hsame | ⟨message, rest, isOpen, hqueue⟩ | ⟨hqueue, hends⟩
  · rw [hsame]
    exact .stays
  · rw [dispatch_pump hqueue]
    exact .delivers g message rest isOpen hqueue
  · rw [hends, dispatch_connectionLost]
    split
    · rename_i hslot
      exact .loses g (h.owns g hslot).1 hqueue
    · exact .rests g hqueue

/-- The queue before a pump changes as that of its connection does. -/
theorem step_queues {a : Attempt} {g : Nat} (hattempt : c.attempt? g = some a) {d : Connection}
    {arrival? : Option Notification} (h : a.connection.Queues d arrival?) :
    c.dispatch.Step (arrival?.map fun message => (g, message))
      (c.updateConnection g fun _ => d).dispatch := by
  obtain ⟨hnotifications, hopen, hlive⟩ := h
  have hqueue : c.dispatch.pumpQueue? g = some a.pumpQueue := by
    rw [pumpQueue?_dispatch, hattempt]
    rfl
  have hdispatch : ∀ change : PumpQueue → PumpQueue,
      ({ a with connection := d } : Attempt).pumpQueue = change a.pumpQueue →
      (c.updateConnection g fun _ => d).dispatch = c.dispatch.updatePumpQueue g change := by
    intro change hchange
    refine dispatch_updateAttempt _ ?_
    intro a' ha'
    rw [hattempt, Option.some.injEq] at ha'
    exact ha' ▸ hchange
  cases arrival? with
  | some message =>
      have hsame : d.isOpen = a.connection.isOpen := by simpa using hopen
      rw [hdispatch (.put message)
        (by simp [Attempt.pumpQueue, PumpQueue.put, hnotifications, hsame])]
      exact .arrives g message _ hqueue (hlive rfl)
  | none =>
      rw [Option.toList_none, List.append_nil] at hnotifications
      rcases hopen with hsame | ⟨-, hclosed⟩
      · rw [hdispatch (fun d => d) (by simp [Attempt.pumpQueue, hnotifications, hsame]),
          updatePumpQueue_same]
        exact .stays
      · rw [hdispatch .close (by simp [Attempt.pumpQueue, PumpQueue.close, hnotifications, hclosed])]
        exact .closes g

theorem step_moveConnection (c : Client) (g : Nat) (action : Connection.Action) :
    c.dispatch.Step (c.arrival? (.connection g action)) (c.moveConnection g action).dispatch := by
  simp only [arrival?]
  rcases moveConnection_cases c g action with
    ⟨hsame, hidle⟩ | ⟨a, d, hattempt, hlaunch, hself, hstep, hmoved⟩
  · -- A step that cannot be taken queues nothing.
    rw [hsame]
    split
    · rename_i connection process pump hattempt
      have hnothing : connection.arrival? action = none := by
        rw [Option.eq_none_iff_forall_ne_some]
        intro message harrival
        obtain ⟨hself, d, hstep⟩ := Connection.step?_of_arrival? harrival
        have hnever := hidle _ hattempt rfl hself
        rw [hstep] at hnever
        cases hnever
      rw [hnothing]
      exact .stays
    · exact .stays
  · obtain ⟨launch, connection, process, pump⟩ := a
    subst hlaunch
    rw [hmoved, hattempt]
    exact step_queues hattempt (Connection.queues_step? hself hstep)

/-! ### Every event -/

theorem dispatch_cancel (c : Client) (k : Nat) : (c.cancel k).dispatch = c.dispatch := by
  rcases cancel_cases c k with ⟨hsame, -⟩ | ⟨call, d, -, -, rfl | ⟨g, id, rfl⟩, hcancel⟩
  · rw [hsame]
  · rw [hcancel, dispatch_setPhase, dispatch_endProgress]
    rfl
  · rw [hcancel, dispatch_setPhase, dispatch_endProgress]
    exact dispatch_forget c g id

theorem dispatch_act_relayNotification (c : Client) (g : Nat) (message : Notification) :
    (c.act (.relayNotification g message)).dispatch = c.dispatch := by
  rcases relayNotification_cases c g message with hsame | ⟨-, hnotify⟩
  · rw [hsame]
  · exact dispatch_notify? hnotify

theorem step_act (h : c.life.Orderly) (ht : c.life.HasChronicle) (event : Event) :
    c.dispatch.Step (c.arrival? event) (c.act event).dispatch := by
  cases event with
  | advance span => exact .stays
  | invoke operation =>
      rw [act, invoke]
      split <;> exact .stays
  | poll k => exact step_poll h ht k
  | cancel k =>
      rw [act, dispatch_cancel]
      exact .stays
  | launchFailed g error =>
      rw [act, dispatch_setLaunch]
      exact .stays
  | launchSucceeded g taken process =>
      rw [act, dispatch_setLaunch]
      exact .stays
  | processEnded g =>
      rw [act, dispatch_endProcess]
      exact .stays
  | connection g action => exact step_moveConnection c g action
  | complaint line =>
      rw [act, dispatch_say]
      exact .stays
  | pump g => exact step_pump h g
  | onReady hook =>
      obtain ⟨more, hmore⟩ := dispatch_onReady c hook
      rw [act, hmore]
      exact .enrolls more
  | relayNotification g message =>
      rw [dispatch_act_relayNotification]
      exact .stays
  | release => exact .stays

/-- **Every event is a step for hooks and pumps**, as long as the statuses form a chronicle. -/
theorem dispatch_step (h : c.life.Orderly) (ht : c.life.HasChronicle) (event : Event) :
    c.dispatch.Step (c.arrival? event) (c.step event).dispatch := by
  rw [step, dispatch_tidy]
  exact step_act h ht event

end Client
end LanguageClient
