import LanguageClient.Proofs.Client.Attempts
import LanguageClient.Proofs.Session.AfterStop
import LanguageClient.Proofs.Session.Deliveries

/-!
# The sessions that a start hands out

A start that launches a server hands its session out only after a look at the connection.  A start
that finds a session ready hands that one out without such a look: the connection may have ended
while its pump has not yet come to the end.  Then the pump of the session still delivers, so the
session is lost before long, and nobody gets it any more.

* `Client.isClosed_of_start` — a session that has just been started has an open connection.
* `Client.OwnedDelivers`, `Client.ownedDelivers_reached` — the pump of the session that is owned
  delivers.
* `Client.lost_of_pumps` — a session whose connection has ended is lost when its pump goes on.
* `Client.Gone`, `Client.gone_run` — a session that is lost is not handed out any more.
* **`Client.session_of_a_start`** — what a start or a restart hands out.
-/

namespace LanguageClient
namespace Client

variable {c d : Client} {k g n : Nat} {call : Call}

/-! ### A session that has been started -/

theorem isClosed_of_attempts (h : d.attempts = c.attempts) (g : Nat) :
    d.isClosed g = c.isClosed g := by
  simp only [isClosed, connection?, attempt?, h]

theorem isClosed_setPump (c : Client) (g : Nat) (pump : Pump) (i : Nat) :
    (c.setPump g pump).isClosed i = c.isClosed i := by
  unfold isClosed connection? setPump
  rw [attempt?_updateAttempt]
  split
  · rw [Option.map_map]
    rfl
  · rfl

/-- What is discarded is flagged closed only if it was before. -/
theorem isClosed_tidy (c : Client) (g : Nat) : c.tidy.isClosed g = c.isClosed g := by
  have hdiscard : ∀ a : Attempt, (discard a).connection.closed = a.connection.closed := by
    intro a
    unfold discard
    split <;> rfl
  unfold isClosed connection?
  rw [attempt?_tidy]
  cases c.attempt? g with
  | none => rfl
  | some a =>
      simp only [Option.map_some, Option.any_some]
      split
      · rfl
      · exact hdiscard a

/-- A connection that is closed is not installed. -/
theorem isClosed_install (h : (c.install g).2 = .ends (.session n)) :
    (c.install g).1.isClosed g = false := by
  unfold install at h ⊢
  dsimp only at h ⊢
  split at h
  · cases h
  · rename_i hopen
    rw [if_neg hopen, isClosed_setPump]
    -- The hooks run while the connection is as it was when it was looked at.
    refine (isClosed_of_attempts ((workspaceEffect_runHooks g).attempts _) g).trans ?_
    exact Bool.eq_false_iff.mpr hopen

theorem isClosed_afterHandshake {id : Nat} (h : (c.afterHandshake g id).2 = .ends (.session n)) :
    (c.afterHandshake g id).1.isClosed g = false := by
  unfold afterHandshake at h ⊢
  split at h
  · cases h
  · cases h
  · split at h
    · rename_i haccepted
      rw [if_pos haccepted]
      split at h
      · exact isClosed_install h
      · cases h
    · cases h

/-- A launch that has come to something hands out no session yet. -/
theorem next_afterLaunch (c : Client) (g n : Nat) : (c.afterLaunch g).2 ≠ .ends (.session n) := by
  unfold afterLaunch
  split
  · simp [failStart]
  · unfold beginHandshake
    split <;> simp [failStart]
  · simp

theorem next_reap (c : Client) (operation : Operation) (g : Nat) (error : SessionError) (n : Nat) :
    (c.reap operation g (some error)).2 ≠ .ends (.session n) := by
  unfold reap
  dsimp only
  split <;> simp [afterClose, failStart]

/-- A start that ends its call does so with what its part ends with. -/
theorem next_of_start {part : Client → Client × Next} (hpart : IsLocal part)
    (hstarts : c.course.Starts g (part c).1.course (part c).2) (hcall : c.calls[k]? = some call)
    (hop : call.operation.takesTurn) {outcome : Outcome}
    (hended : (proceed k (part c)).outcome? k = some outcome) : (part c).2 = .ends outcome := by
  have hcall' : (part c).1.calls[k]? = some call := by rwa [hpart.calls]
  generalize part c = result at hstarts hended hcall'
  obtain ⟨d, next⟩ := result
  cases next with
  | waits phase =>
      -- A part of a start waits only in a phase of the start.
      have hphase := outcome?_setPhase_self hcall' hended
      have hnot : ∀ t : Course, ¬ c.course.Starts g t (.waits (.finished outcome)) := by
        intro t ht
        cases ht with
        | waits phase h => cases h
      exact absurd (hphase ▸ hstarts) (hnot _)
  | ends result =>
      rw [proceed, conclude_of_takesTurn hcall' hop] at hended
      injection outcome?_setPhase_self (c := { d with lock := d.lock.leave k }) hcall' hended
        with hresult
      exact congrArg Next.ends hresult

/-- **A session that has just been started has an open connection.** -/
theorem isClosed_of_start (hcall : c.calls[k]? = some call) (hop : call.operation.takesTurn)
    (hphase : call.phase.startOf? = some g)
    (hended : (c.goOn k call.operation call.phase).outcome? k = some (.session n)) :
    (c.goOn k call.operation call.phase).isClosed g = false := by
  -- Only after the handshake does a start hand out a session; elsewhere it fails or goes on.
  cases hcase : call.phase with
  | launching g' =>
      rw [hcase] at hended
      have hnext := next_of_start (local_afterLaunch g') (starts_afterLaunch c g') hcall hop hended
      exact absurd hnext (next_afterLaunch c g' n)
  | initializing g' id =>
      rw [hcase] at hphase hended
      injection hphase with hphase
      subst hphase
      have hnext := next_of_start (local_afterHandshake g' id) (starts_afterHandshake c g' id) hcall
        hop hended
      exact (isClosed_of_attempts (attempts_proceed k _) g').trans (isClosed_afterHandshake hnext)
  | abandoning g' error deadline =>
      rw [hcase] at hended
      have hnext := next_of_start (local_afterAbandoning call.operation g' error deadline)
        (starts_afterAbandoning c call.operation g' error deadline) hcall hop hended
      dsimp only [afterAbandoning] at hnext
      split at hnext
      · exact absurd hnext (next_reap c call.operation g' error n)
      · cases hnext
  | reaping g' deadline error? =>
      rw [hcase] at hphase hended
      cases error? with
      | none => cases hphase
      | some error =>
          have hnext := next_of_start (local_afterReaping call.operation g' deadline (some error))
            (starts_afterReaping c call.operation g' deadline error) hcall hop hended
          dsimp only [afterReaping] at hnext
          split at hnext <;> cases hnext
  | _ =>
      rw [hcase] at hphase
      cases hphase

/-- A start that finds a session ready leaves the attempts as they are. -/
theorem attempts_of_reuse (hsession : c.session? = some g) {phase : Phase}
    (hphase : phase = .fresh ∨ phase = .queued) :
    (c.goOn k .start phase).attempts = c.attempts := by
  have hbegin : ∀ lock : Lock, (({ c with lock } : Client).beginTurn .start).1.attempts =
      c.attempts := by
    intro lock
    have hsession' : ({ c with lock } : Client).session? = some g := hsession
    simp only [beginTurn, startLocked, hsession']
  rcases hphase with rfl | rfl
  · simp only [goOn, beginCall, askTurn]
    split
    · rw [attempts_proceed]
      exact hbegin _
    · rfl
  · rw [goOn, attempts_proceed]
    exact hbegin c.lock

/-! ### The pump of the session that is owned -/

/-- The pump of the session that is owned delivers, and a session that is being started has a
generation. -/
structure OwnedDelivers (c : Client) : Prop where
  armed : ∀ g, c.slot = some g → c.dispatch.isArmed g
  started : ∀ g, c.life.HasStart g → 0 < g

theorem ownedDelivers_new (options : SessionOptions) (processId : Nat) (workspace : Workspace) :
    (Client.new options processId workspace).OwnedDelivers where
  armed g hslot := by cases hslot
  started g hstart := by
    obtain ⟨k, call, hcall, -⟩ := hstart
    simp [life, Client.new] at hcall

theorem started_step (h : c.life.Orderly) (ha : c.OwnedDelivers) (event : Event)
    (hstart : (c.step event).life.HasStart g) : 0 < g := by
  rcases (derives_event h event).start g hstart with hbefore | ⟨-, hnew⟩
  · exact ha.started g hbefore
  · omega

/-- A session that is being started is that of the latest attempt. -/
theorem isSome_pumpQueue?_of_start (h : c.life.Orderly) (ha : c.OwnedDelivers)
    (hcall : c.calls[k]? = some call) (hphase : call.phase.startOf? = some g) :
    (c.dispatch.pumpQueue? g).isSome := by
  have hphaseOf := (h.turn k call hcall (Phase.isTurn_of_startOf? hphase)).2
  have hlatest : g = c.attempts.length := (hphaseOf.starting g hphase).generation
  have hpos : 0 < g := ha.started g ⟨k, call, hcall, hphase⟩
  have hplace : g - 1 < c.attempts.length := by omega
  rw [pumpQueue?_dispatch, Option.isSome_map, attempt?, if_neg (by omega),
    List.getElem?_eq_getElem hplace]
  rfl

/-- While the status stays, no session comes to be owned. -/
theorem slot_of_same_status (h : c.life.Orderly) {event : Event}
    (hstatus : (c.step event).status = c.status) (hslot : (c.step event).slot = some g) :
    c.slot = some g := by
  rcases (derives_event h event).slot g hslot with howned | ⟨k, call, hcall, hphase⟩
  · exact howned
  · -- A session that was being started cannot be ready already.
    have hphaseOf := (h.turn k call hcall (Phase.isTurn_of_startOf? hphase)).2
    have hstarting : c.status = ⟨g, .starting⟩ := (hphaseOf.starting g hphase).status
    have hready : (c.step event).status = ⟨g, .ready⟩ := ((orderly_step h event).owns g hslot).1
    rw [hstatus, hstarting] at hready
    cases hready

theorem ownedDelivers_of_kept (h : c.life.Orderly) (ha : c.OwnedDelivers) {event : Event}
    (hstatus : (c.act event).dispatch.status = c.status)
    (harmed : ∀ g, c.slot = some g → c.dispatch.isArmed g → (c.act event).dispatch.isArmed g) :
    (c.step event).OwnedDelivers where
  armed g hslot := by
    have hdispatch : (c.step event).dispatch = (c.act event).dispatch := dispatch_tidy _
    have hsame : (c.step event).status = c.status := by
      rw [← hstatus, ← hdispatch]
      rfl
    have hbefore := slot_of_same_status h hsame hslot
    rw [hdispatch]
    exact harmed g hbefore (ha.armed g hbefore)
  started _ := started_step h ha event

theorem ownedDelivers_of_dispatch (h : c.life.Orderly) (ha : c.OwnedDelivers) {event : Event}
    (hdispatch : (c.act event).dispatch = c.dispatch) : (c.step event).OwnedDelivers := by
  refine ownedDelivers_of_kept h ha (congrArg Dispatch.status hdispatch) fun g _ harmed => ?_
  rwa [hdispatch]

/-- A session that is not ready is not owned. -/
theorem ownedDelivers_of_not_ready (h : c.life.Orderly) (ha : c.OwnedDelivers) {event : Event}
    (hready : (c.act event).dispatch.status.isReady = false) : (c.step event).OwnedDelivers where
  armed g hslot := by
    have hdispatch : (c.step event).dispatch = (c.act event).dispatch := dispatch_tidy _
    have hstatus : (c.step event).dispatch.status = ⟨g, .ready⟩ :=
      ((orderly_step h event).owns g hslot).1
    rw [← hdispatch, hstatus] at hready
    cases hready
  started _ := started_step h ha event

theorem ownedDelivers_enroll (h : c.life.Orderly) (ha : c.OwnedDelivers) {event : Event}
    {more : List Hook}
    (hmore : (c.act event).dispatch = c.dispatch.enroll more) : (c.step event).OwnedDelivers := by
  refine ownedDelivers_of_kept h ha (by rw [hmore]; rfl) fun g _ harmed => ?_
  rw [hmore]
  exact harmed

/-- The session that becomes ready is the one whose pump is armed. -/
theorem ownedDelivers_becomesReady (h : c.life.Orderly) (ha : c.OwnedDelivers) {event : Event}
    (hqueue : (c.dispatch.pumpQueue? g).isSome)
    (hm : c.dispatch.BecomesReady g (c.act event).dispatch) :
    (c.step event).OwnedDelivers where
  armed n hslot := by
    have hdispatch : (c.step event).dispatch = (c.act event).dispatch := dispatch_tidy _
    have hready : (c.step event).dispatch.status = ⟨n, .ready⟩ :=
      ((orderly_step h event).owns n hslot).1
    rw [hdispatch, Dispatch.status_becomesReady hm, Status.mk.injEq] at hready
    obtain ⟨d, hd⟩ := Option.isSome_iff_exists.mp hqueue
    rw [← hready.1, hdispatch, Dispatch.isArmed, Dispatch.pumpQueue?_becomesReady hm,
      Dispatch.pumpQueue?_updatePumpQueue_self, hd]
    rfl
  started _ := started_step h ha event

theorem ownedDelivers_goOn (h : c.life.Orderly) (ha : c.OwnedDelivers)
    (hcall : c.calls[k]? = some call) (hcan : c.canGoOn k call.phase)
    (hact : c.act (.poll k) = c.goOn k call.operation call.phase) :
    (c.step (.poll k)).OwnedDelivers := by
  by_cases hturn : call.phase.isTurn
  · rcases Phase.start_or_stop_of_isTurn hturn with ⟨g, hg⟩ | ⟨g, hg⟩
    · have hstarts := dispatch_starts_goOn c k call.operation hg
      rw [← hact] at hstarts
      generalize hafter : (c.act (.poll k)).dispatch = t at hstarts
      cases hstarts with
      | waits => exact ownedDelivers_of_dispatch h ha hafter
      | ready hbecomes =>
          exact ownedDelivers_becomesReady h ha (isSome_pumpQueue?_of_start h ha hcall hg)
            (hafter ▸ hbecomes)
      | failed => exact ownedDelivers_of_not_ready h ha (by rw [hafter, Dispatch.status_publish]; rfl)
      | refused =>
          exact ownedDelivers_of_not_ready h ha (by rw [hafter, Dispatch.status_publish]; rfl)
    · have hstops := dispatch_stops_goOn c k call.operation hg
      rw [← hact] at hstops
      generalize hafter : (c.act (.poll k)).dispatch = t at hstops
      cases hstops with
      | waits => exact ownedDelivers_of_dispatch h ha hafter
      | stopped =>
          exact ownedDelivers_of_not_ready h ha (by rw [hafter, Dispatch.status_publish]; rfl)
      | restarts =>
          exact ownedDelivers_of_not_ready h ha (by rw [hafter, Dispatch.status_launch]; rfl)
  · obtain ⟨more, hmore | ⟨hlaunch, -⟩⟩ := enrollsOrLaunches_goOn h hcall hcan hturn
    · exact ownedDelivers_enroll h ha (by rw [hact, hmore])
    · exact ownedDelivers_of_not_ready h ha (by rw [hact, hlaunch, Dispatch.status_launch]; rfl)

theorem isArmed_updatePumpQueue (s : Dispatch) (g : Nat) (f : PumpQueue → PumpQueue)
    (hf : ∀ d, (f d).armed = d.armed) (i : Nat) :
    (s.updatePumpQueue g f).isArmed i = s.isArmed i := by
  unfold Dispatch.isArmed
  rw [Dispatch.pumpQueue?_updatePumpQueue]
  split
  · cases s.pumpQueue? i with
    | none => rfl
    | some d => exact hf d
  · rfl

/-- A pump that ends is that of a session that was lost or that a stop has taken away. -/
theorem ownedDelivers_pump (h : c.life.Orderly) (ha : c.OwnedDelivers) (g : Nat) :
    (c.step (.pump g)).OwnedDelivers := by
  have hact : c.act (.pump g) = c.pump g := rfl
  rcases pump_cases c g with hsame | ⟨message, rest, isOpen, hqueue⟩ | ⟨hqueue, hends⟩
  · exact ownedDelivers_of_dispatch h ha (by rw [hact, hsame])
  · have hdispatch := dispatch_pump hqueue
    refine ownedDelivers_of_kept h ha ?_ fun n _ harmed => ?_
    · rw [hact, hdispatch]
      exact Dispatch.status_updatePumpQueue c.dispatch g _
    · have hkept := isArmed_updatePumpQueue c.dispatch g (fun d => { d with waiting := rest })
        (fun _ => rfl) n
      rw [hact, hdispatch]
      exact hkept.trans harmed
  · have hdispatch := (congrArg dispatch hends).trans (dispatch_connectionLost c g)
    split at hdispatch
    · exact ownedDelivers_of_not_ready h ha (by rw [hact, hdispatch, Dispatch.status_publish]; rfl)
    · rename_i hnot
      refine ownedDelivers_of_kept h ha ?_ fun n hslot harmed => ?_
      · rw [hact, hdispatch]
        exact Dispatch.status_updatePumpQueue c.dispatch g _
      · have hne : g ≠ n := fun heq => hnot (heq ▸ hslot)
        rw [hact, hdispatch, (Dispatch.elsewhere (Dispatch.pumpQueue?_updatePumpQueue_ne hne)).2.2]
        exact harmed

theorem isArmed_dispatch (c : Client) (g : Nat) :
    c.dispatch.isArmed g = (c.attempt? g).any fun a => a.pump = .armed := by
  rw [Dispatch.isArmed, pumpQueue?_dispatch]
  cases c.attempt? g <;> rfl

/-- A step of a connection leaves its pump as it is. -/
theorem isArmed_moveConnection (c : Client) (g : Nat) (action : Connection.Action) (n : Nat) :
    (c.moveConnection g action).dispatch.isArmed n = c.dispatch.isArmed n := by
  have hupdate : ∀ f : Connection → Connection,
      (c.updateConnection g f).dispatch.isArmed n = c.dispatch.isArmed n := by
    intro f
    rw [isArmed_dispatch, isArmed_dispatch, updateConnection, attempt?_updateAttempt]
    split
    · cases c.attempt? n <;> rfl
    · rfl
  rcases moveConnection_cases c g action with ⟨hsame, -⟩ | ⟨a, d, -, -, -, -, hmoved⟩
  · rw [hsame]
  · rw [hmoved]
    exact hupdate _

theorem ownedDelivers_step (h : c.life.Orderly) (ha : c.OwnedDelivers) (event : Event) :
    (c.step event).OwnedDelivers := by
  cases event with
  | advance span => exact ownedDelivers_of_dispatch h ha rfl
  | invoke operation =>
      refine ownedDelivers_of_dispatch h ha ?_
      rw [act, invoke]
      split <;> rfl
  | poll k =>
      cases hcall : c.calls[k]? with
      | none => exact ownedDelivers_of_dispatch h ha (by rw [act, poll, hcall])
      | some call =>
          have hpoll : c.act (.poll k) = _ := poll_eq hcall
          by_cases hcan : c.canGoOn k call.phase
          · exact ownedDelivers_goOn h ha hcall hcan (hpoll.trans (if_pos hcan))
          · exact ownedDelivers_of_dispatch h ha (by rw [hpoll, if_neg hcan])
  | cancel k => exact ownedDelivers_of_dispatch h ha (dispatch_cancel c k)
  | launchFailed g error => exact ownedDelivers_of_dispatch h ha (dispatch_setLaunch c g _ _ _)
  | launchSucceeded g taken process =>
      exact ownedDelivers_of_dispatch h ha (dispatch_setLaunch c g _ _ _)
  | processEnded g => exact ownedDelivers_of_dispatch h ha (dispatch_endProcess c g)
  | connection g action =>
      have hstatus : (c.moveConnection g action).status = c.status :=
        congrArg (fun l : Life => l.course.status) (life_moveConnection c g action)
      exact ownedDelivers_of_kept h ha hstatus fun n _ harmed =>
        (isArmed_moveConnection c g action n).trans harmed
  | complaint line => exact ownedDelivers_of_dispatch h ha (dispatch_say c _)
  | pump g => exact ownedDelivers_pump h ha g
  | onReady hook =>
      obtain ⟨more, hmore⟩ := dispatch_onReady c hook
      exact ownedDelivers_enroll h ha hmore
  | relayNotification g message =>
      exact ownedDelivers_of_dispatch h ha (dispatch_act_relayNotification c g message)
  | release => exact ownedDelivers_of_dispatch h ha rfl

theorem ownedDelivers_run (h : c.life.Orderly) (ha : c.OwnedDelivers) (events : List Event) :
    (c.run events).OwnedDelivers := by
  induction events generalizing c with
  | nil => exact ha
  | cons event rest ih => exact ih (orderly_step h event) (ownedDelivers_step h ha event)

/-- **After any events, the pump of the session that is owned delivers.** -/
theorem ownedDelivers_reached (options : SessionOptions) (processId : Nat) (workspace : Workspace)
    (events : List Event) : ((Client.new options processId workspace).run events).OwnedDelivers :=
  ownedDelivers_run (orderly_new options processId workspace)
    (ownedDelivers_new options processId workspace)
    events

/-! ### A session whose connection has ended -/

theorem isHeld_tidy (c : Client) : c.tidy.isHeld = c.isHeld := by
  rw [isHeld_eq_life, isHeld_eq_life, life_tidy]
  unfold Life.tidy
  split <;> rfl

theorem slot_tidy (hheld : c.isHeld) : c.tidy.slot = c.slot := by
  have hslot := congrArg (fun l : Life => l.course.slot) (life_tidy c)
  refine hslot.trans ?_
  unfold Life.tidy
  rw [← isHeld_eq_life, if_pos hheld]
  rfl

/-- Whether somebody holds the client does not depend on its pumps. -/
theorem isHeld_pump (c : Client) (g : Nat) : (c.pump g).isHeld = c.isHeld := by
  have hbeside : c.pump g = (c.pump g).amid c := eq_amid_of_beside (isBeside_pump g) c
  rw [hbeside]
  rfl

theorem slot_pump_of_waiting {message : Notification} {rest : List Notification} {isOpen : Bool}
    (h : c.dispatch.pumpQueue? g = some ⟨true, message :: rest, isOpen⟩) :
    (c.pump g).slot = c.slot := by
  rw [pumpQueue?_dispatch, Option.map_eq_some_iff] at h
  obtain ⟨⟨launch, connection, process, pump⟩, hattempt, hqueue⟩ := h
  simp only [Attempt.pumpQueue, PumpQueue.mk.injEq, decide_eq_true_eq] at hqueue
  obtain ⟨rfl, hnotifications, -⟩ := hqueue
  simp only [Client.pump, hattempt, hnotifications]
  exact ((workspaceEffect_deliver message).slot _).trans
    (congrArg Course.slot (course_updateConnection c g _))

/-- A pump that has nothing left and gets nothing more ends. -/
theorem pump_of_ended (h : c.dispatch.pumpQueue? g = some ⟨true, [], false⟩) :
    c.pump g = (c.setPump g .ended).connectionLost g := by
  rw [pumpQueue?_dispatch, Option.map_eq_some_iff] at h
  obtain ⟨⟨launch, connection, process, pump⟩, hattempt, hqueue⟩ := h
  simp only [Attempt.pumpQueue, PumpQueue.mk.injEq, decide_eq_true_eq] at hqueue
  obtain ⟨rfl, hnotifications, hopen⟩ := hqueue
  simp [Client.pump, hattempt, hnotifications, hopen]

theorem slot_connectionLost (h : c.slot = some g) :
    ((c.setPump g .ended).connectionLost g).slot = none := by
  have hslot : (c.setPump g .ended).slot = some g :=
    (congrArg Course.slot (course_setPump c g .ended)).trans h
  unfold connectionLost
  rw [if_pos hslot]
  rfl

/-- A session whose connection has ended is lost when its pump has delivered what waits. -/
theorem lost_of_pumps {waiting : List Notification} (hheld : c.isHeld) (hslot : c.slot = some g)
    (hqueue : c.dispatch.pumpQueue? g = some ⟨true, waiting, false⟩) :
    (c.run (List.replicate (waiting.length + 1) (.pump g))).status = ⟨g, .failed⟩ ∧
      (c.run (List.replicate (waiting.length + 1) (.pump g))).slot = none := by
  have hheld' : (c.pump g).isHeld := by rwa [isHeld_pump]
  induction waiting generalizing c with
  | nil =>
      have hrun : c.run (List.replicate (([] : List Notification).length + 1) (.pump g)) =
          (c.pump g).tidy := rfl
      have hdispatch : (c.pump g).tidy.dispatch = _ := (dispatch_tidy _).trans (by
        rw [pump_of_ended hqueue, dispatch_connectionLost, if_pos hslot])
      rw [hrun]
      constructor
      · rw [← status_dispatch, hdispatch, Dispatch.status_publish]
      · rw [slot_tidy hheld', pump_of_ended hqueue, slot_connectionLost hslot]
  | cons message rest ih =>
      have hrun : c.run (List.replicate ((message :: rest).length + 1) (.pump g)) =
          ((c.pump g).tidy).run (List.replicate (rest.length + 1) (.pump g)) := rfl
      have hdispatch : (c.pump g).tidy.dispatch = _ := (dispatch_tidy _).trans (dispatch_pump hqueue)
      rw [hrun]
      refine ih ?_ ?_ ?_ ?_
      · rwa [isHeld_tidy]
      · rwa [slot_tidy hheld', slot_pump_of_waiting hqueue]
      · rw [hdispatch]
        exact Dispatch.pumpQueue?_updatePumpQueue_self.trans (by rw [hqueue]; rfl)
      · rwa [isHeld_pump, isHeld_tidy]

/-! ### A session that is gone -/

/-- The session of an attempt is not owned and not being started. -/
structure Gone (c : Client) (g : Nat) : Prop where
  slot : c.slot ≠ some g
  start : ¬ c.life.HasStart g
  attempt : (c.attempt? g).isSome

theorem le_generation_of_attempt? (h : (c.attempt? g).isSome) : g ≤ c.generation := by
  obtain ⟨a, ha⟩ := Option.isSome_iff_exists.mp h
  unfold attempt? at ha
  split at ha
  · cases ha
  · have hplace := (List.getElem?_eq_some_iff.mp ha).1
    show g ≤ c.attempts.length
    omega

theorem isSome_attempt?_of_attemptsGoOn (h : c.AttemptsGoOn d) (hsome : (c.attempt? g).isSome) :
    (d.attempt? g).isSome := by
  obtain ⟨a, ha⟩ := Option.isSome_iff_exists.mp hsome
  obtain ⟨b, hb, -⟩ := h.goesOn g a ha
  rw [hb]
  rfl

theorem gone_step (h : c.life.Orderly) (hg : c.Gone g) (event : Event) : (c.step event).Gone g := by
  have hderives := derives_event h event
  refine ⟨?_, ?_, isSome_attempt?_of_attemptsGoOn (attemptsGoOn_step c event) hg.attempt⟩
  · intro hslot
    rcases hderives.slot g hslot with howned | hstart
    · exact hg.slot howned
    · exact hg.start hstart
  · intro hstart
    rcases hderives.start g hstart with hbefore | ⟨-, hnew⟩
    · exact hg.start hbefore
    · -- What is launched now is of a later generation.
      have hnew' : g = c.generation + 1 := hnew
      have hlatest := le_generation_of_attempt? hg.attempt
      omega

theorem gone_run (h : c.life.Orderly) (hg : c.Gone g) (events : List Event) :
    (c.run events).Gone g := by
  induction events generalizing c with
  | nil => exact hg
  | cons event rest ih => exact ih (orderly_step h event) (gone_step h hg event)

/-- A session that is gone is not handed out. -/
theorem outcome?_of_gone (h : c.life.Orderly) (hf : c.Fitting) (hg : c.Gone g)
    (hcall : c.calls[k]? = some call) (hop : call.operation.takesTurn) (hopen : c.outcome? k = none)
    (event : Event) : (c.step event).outcome? k ≠ some (.session g) := by
  intro hended
  obtain ⟨-, lock, t, -, hadvances, -⟩ := ended_step h hf hcall hop hopen hended
  rcases Course.session_of_advances h.owns hadvances with ⟨hstart, -⟩ | ⟨-, -, hslot, -⟩
  · exact hg.start ⟨k, call, hcall, hstart⟩
  · exact hg.slot hslot

/-! ### What a start hands out -/

/-- A session that a start or a restart ends with is owned while somebody holds the client. -/
theorem slot_of_handed (h : c.life.Orderly) (hf : c.Fitting) (hcall : c.calls[k]? = some call)
    (hop : call.operation.takesTurn) (hopen : c.outcome? k = none) {event : Event}
    (hended : (c.step event).outcome? k = some (.session g)) (hheld : (c.step event).isHeld) :
    (c.step event).slot = some g := by
  obtain ⟨hstep, lock, t, -, hadvances, hlife⟩ := ended_step h hf hcall hop hopen hended
  have hslot : t.slot = some g := by
    rcases Course.session_of_advances h.owns hadvances with ⟨-, rfl⟩ | ⟨-, -, hslot, rfl⟩
    · rfl
    · exact hslot
  have hgone : (c.goOn k call.operation call.phase).slot = some g :=
    (congrArg (fun l : Life => l.course.slot) hlife).trans hslot
  rw [hstep, isHeld_tidy] at hheld
  rw [hstep, slot_tidy hheld, hgone]

/-- A session that is handed out while its connection is flagged closed is one that a start has found
so. -/
theorem reuse_of_isClosed (h : c.life.Orderly) (hf : c.Fitting) (hcall : c.calls[k]? = some call)
    (hop : call.operation.takesTurn) (hopen : c.outcome? k = none) {event : Event}
    (hended : (c.step event).outcome? k = some (.session g)) (hclosed : (c.step event).isClosed g) :
    call.operation = .start ∧ c.session? = some g ∧ c.isClosed g ∧
      (c.step event).launches = c.launches := by
  obtain ⟨-, -, -, hgone⟩ := poll_of_outcome? h hcall hopen hended
  obtain ⟨hstep, lock, t, -, hadvances, hlife⟩ := ended_step h hf hcall hop hopen hended
  rw [hstep, isClosed_tidy] at hclosed
  rcases Course.session_of_advances h.owns hadvances with
    ⟨hphase, -⟩ | ⟨hstart, hphase, hbefore, rfl⟩
  · rw [isClosed_of_start hcall hop hphase hgone] at hclosed
    cases hclosed
  · have hsession : c.session? = some g := (Course.session?_of_owns h.owns).trans hbefore
    have hoperation : call.operation = .start := by
      cases hcase : call.operation <;> simp_all [Operation.isStart, Operation.takesTurn]
    have hlaunches : (c.goOn k call.operation call.phase).launches = c.launches :=
      congrArg (fun l : Life => l.course.launches) hlife
    refine ⟨hoperation, hsession, ?_, ?_⟩
    · rw [hoperation] at hclosed
      rwa [← isClosed_of_attempts (attempts_of_reuse hsession hphase) g]
    · rw [hstep, ← hlaunches]
      simp [launches]

/-- While its connection is flagged closed, the session that is owned is lost when its pump goes on,
and from then on it is gone. -/
theorem gone_of_isClosed (options : SessionOptions) (processId : Nat) (workspace : Workspace)
    (past : List Event) (g : Nat) :
    let c := (Client.new options processId workspace).run past
    let d := c.run (List.replicate ((c.dispatch.waiting g).length + 1) (.pump g))
    c.isHeld → c.slot = some g → c.isClosed g →
      d.status = ⟨g, .failed⟩ ∧ d.slot = none ∧ d.Gone g := by
  intro c d hheld hslot hclosed
  have h : c.life.Orderly := orderly_reached options processId workspace past
  have harmed := (ownedDelivers_reached options processId workspace past).armed g hslot
  obtain ⟨a, hattempt, hflag⟩ : ∃ a, c.attempt? g = some a ∧ a.connection.closed := by
    simpa [isClosed, connection?, Option.any_eq_true] using hclosed
  have hended := not_isOpen_of_closed options processId workspace past hattempt hflag
  have hqueue : c.dispatch.pumpQueue? g = some ⟨true, a.connection.notifications, false⟩ := by
    have harmed' : a.pump = .armed := by
      have harmed₁ : c.dispatch.isArmed g := harmed
      rw [Dispatch.isArmed, pumpQueue?_dispatch, hattempt] at harmed₁
      simpa [Attempt.pumpQueue] using harmed₁
    rw [pumpQueue?_dispatch, hattempt, Option.map_some, Attempt.pumpQueue, harmed', hended]
    rfl
  have hwaiting : c.dispatch.waiting g = a.connection.notifications := by
    rw [Dispatch.waiting, hqueue]
    rfl
  obtain ⟨hstatus, hempty⟩ := lost_of_pumps hheld hslot hqueue
  rw [← hwaiting] at hstatus hempty
  refine ⟨hstatus, hempty, ?_, ?_, ?_⟩
  · rw [hempty]
    simp
  · rintro ⟨k, call, hcall, hphase⟩
    have hd : d.life.Orderly := orderly_run h _
    have hphaseOf := (hd.turn k call hcall (Phase.isTurn_of_startOf? hphase)).2
    have hstarting : d.status = ⟨g, .starting⟩ := (hphaseOf.starting g hphase).status
    rw [hstatus] at hstarting
    cases hstarting
  · exact isSome_attempt?_of_attemptsGoOn (attemptsGoOn_run c _) (by rw [hattempt]; rfl)

/-- **What a start or a restart hands out.**  When an event ends a start or a restart with a session,
that is published as ready and, while somebody holds the client, owned.  Its connection is flagged
closed only if a start has found it so: the session was ready and its connection was flagged before
the event, and nothing is launched.  Then the session is lost when its pump has delivered what
waits, and from then on no start and no restart ends with it. -/
theorem session_of_a_start (options : SessionOptions) (processId : Nat) (workspace : Workspace)
    (past : List Event) (event : Event) (k : Nat) (call : Call) (g : Nat) :
    let c := (Client.new options processId workspace).run past
    let d := c.step event
    c.calls[k]? = some call → call.operation.takesTurn → c.outcome? k = none →
      d.outcome? k = some (.session g) →
      d.status = ⟨g, .ready⟩ ∧ (d.isHeld → d.session? = some g) ∧
        (d.isClosed g → call.operation = .start ∧ c.session? = some g ∧ c.isClosed g ∧
          d.launches = c.launches) ∧
        (d.isClosed g → d.isHeld →
          let e := d.run (List.replicate ((d.dispatch.waiting g).length + 1) (.pump g))
          e.status = ⟨g, .failed⟩ ∧ e.slot = none ∧
            ∀ (later : List Event) (next : Event) (j : Nat) (other : Call),
              (e.run later).calls[j]? = some other → other.operation.takesTurn →
                (e.run later).outcome? j = none →
                (e.run (later ++ [next])).outcome? j ≠ some (.session g)) := by
  intro c d hcall hop hopen hended
  have h : c.life.Orderly := orderly_reached options processId workspace past
  have hf : c.Fitting := fitting_reached options processId workspace past
  -- The call ended in this event, which found the session ready or made it so.
  have hready : d.status = ⟨g, .ready⟩ :=
    (outcome?_step h event hended).resolve_left fun hbefore => by
      rw [hopen] at hbefore
      cases hbefore
  have howned : d.isHeld → d.slot = some g := slot_of_handed h hf hcall hop hopen hended
  refine ⟨hready, ?_, reuse_of_isClosed h hf hcall hop hopen hended, ?_⟩
  · intro hheld
    rw [session?, hready, howned hheld]
    rfl
  · intro hclosed hheld e
    have hreached : d = (Client.new options processId workspace).run (past ++ [event]) := by
      rw [run_append]
      rfl
    -- The general fact about a closed connection, after the run together with the event.
    have hlost := gone_of_isClosed options processId workspace (past ++ [event]) g
    rw [← hreached] at hlost
    obtain ⟨hstatus, hempty, hnever⟩ := hlost hheld (howned hheld) hclosed
    refine ⟨hstatus, hempty, ?_⟩
    intro later next j other hother hop' hopen'
    have hd : d.life.Orderly := orderly_step h event
    have he : e.life.Orderly := orderly_run hd _
    have hfe : e.Fitting := fitting_run hd (fitting_step h hf event) _
    rw [run_append]
    exact outcome?_of_gone (orderly_run he later) (fitting_run he hfe later)
      (gone_run he hnever later) hother hop' hopen' next

/-- A session is started, and its server hangs up. -/
def startAndHangUp : List Event := [.invoke .start, .poll 0] ++ handshake 1 0 ++
  [.connection 1 .endOfStream, .connection 1 .read, .connection 1 .handle]

/-- A start that finds a session whose server has hung up hands it out; the session is lost when its
pump goes on. -/
theorem start_of_a_session_that_hung_up :
    let c := (Client.new {} 0 {}).run (startAndHangUp ++ [.invoke .start])
    let d := c.step (.poll 1)
    let e := d.run (List.replicate ((d.dispatch.waiting 1).length + 1) (.pump 1))
    (∃ call : Call, c.calls[1]? = some call ∧ call.operation.takesTurn) ∧ c.outcome? 1 = none ∧
      d.outcome? 1 = some (.session 1) ∧ d.isClosed 1 ∧ d.isHeld ∧ d.launches = c.launches ∧
      d.session? = some 1 ∧ e.status = ⟨1, .failed⟩ ∧ e.slot = none := by
  intro c d e
  obtain ⟨hstart, hopen, hsession, hclosed, hheld⟩ :
      c.calls[1]?.any (fun call => call.operation.takesTurn) ∧ (c.outcome? 1).isNone ∧
        (d.outcome? 1).any (fun outcome => outcome matches .session 1) ∧ d.isClosed 1 ∧
        d.isHeld := by
    decide +kernel
  obtain ⟨call, hcall, hop⟩ := (Option.any_eq_true _ _).mp hstart
  obtain ⟨outcome, houtcome, hmatches⟩ := (Option.any_eq_true _ _).mp hsession
  have hended : d.outcome? 1 = some (.session 1) := by
    rw [houtcome]
    split at hmatches
    · rfl
    · cases hmatches
  have hopen' : c.outcome? 1 = none := by simpa using hopen
  have hhanded := session_of_a_start {} 0 {} (startAndHangUp ++ [.invoke .start]) (.poll 1) 1 call 1
  extract_lets at hhanded
  obtain ⟨-, howned, hreused, hlost⟩ := hhanded hcall hop hopen' hended
  obtain ⟨hstatus, hslot, -⟩ := hlost hclosed hheld
  exact ⟨⟨call, hcall, hop⟩, hopen', hended, hclosed, hheld, (hreused hclosed).2.2.2, howned hheld,
    hstatus, hslot⟩

/-- A request fails because its server has hung up, and a start that its caller then makes hands out
the session that just died; nothing is launched. -/
theorem start_after_a_request_that_failed :
    let c := (Client.new {} 0 {}).run ([.invoke .start, .poll 0] ++ handshake 1 0 ++
      [.invoke (.relay 1 "question" .null), .poll 1, .connection 1 .endOfStream,
        .connection 1 .read, .connection 1 .handle, .poll 1, .invoke .start])
    let d := c.step (.poll 2)
    (c.outcome? 1).any (fun outcome => outcome matches .failed .connectionClosed) ∧
      c.isClosed 1 ∧ (d.outcome? 2).any (fun outcome => outcome matches .session 1) ∧
      d.isClosed 1 ∧ d.launches = [1] := by
  decide +kernel

end Client
end LanguageClient
