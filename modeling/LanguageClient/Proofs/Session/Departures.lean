import LanguageClient.Proofs.Session.Reuse

/-!
# How sessions leave the slot

A session that is owned has a pump that delivers.  Whatever ends the connection of the session, the
pump gets on with what still waits, comes to the end of it, and takes the session out of the slot; its
failure is published then.  A stop takes the session out of the slot before anything else, and from
then on nothing of the kind is published of it.

* `Life.failed_step` — a failure is published of a session that is owned or being started.
* `Life.leavesSlot_step` — a session leaves the slot when it is lost, when a stop takes it, or when
  nobody holds the client any more.
* `Client.LeavesSlot`, `Client.leavesSlot_step`, **`Client.leavesSlot_run`** — the same of a client,
  with the event that does it.
* `Client.RunInvariant` — what holds of a client after any events that drop no turn.
* `Client.IsDraining`, **`Client.gone_of_pumps`** — the pump of a session whose connection has ended
  need only go on often enough.
* **`Client.silent_run`** — of a session that a stop has taken no failure is published.
-/

namespace LanguageClient

/-! ### What publishes a failure -/

namespace Course

variable {s t : Course} {g : Nat} {next : Next}

/-- A start that begins publishes no failure. -/
theorem failed_opens (h : s.Opens t next) (hm : ⟨g, .failed⟩ ∈ t.published) :
    ⟨g, .failed⟩ ∈ s.published := by
  cases h with
  | reuse => exact hm
  | launch hnone => simpa [launch, publish] using hm

theorem failed_begins {operation : Operation} (h : s.Begins operation t next)
    (hm : ⟨g, .failed⟩ ∈ t.published) : ⟨g, .failed⟩ ∈ s.published := by
  cases h with
  | starts hop hopens => exact failed_opens hopens hm
  | takes n phase hop hslot hphase => exact hm
  | idle hop hslot => exact hm
  | restarts hop hstop hslot hopens => exact failed_opens hopens hm

/-- A start publishes no failure but its own. -/
theorem failed_starts {n : Nat} (h : s.Starts n t next) (hm : ⟨g, .failed⟩ ∈ t.published) :
    ⟨g, .failed⟩ ∈ s.published ∨ n = g := by
  cases h with
  | waits phase hphase => exact .inl hm
  | ready => exact .inl (by simpa [ready, publish] using hm)
  | failed error =>
      rw [publish, List.mem_append, List.mem_singleton, Status.mk.injEq] at hm
      exact hm.imp_right fun heq => heq.1.symm

theorem failed_stops {operation : Operation} {n : Nat} (h : s.Stops operation n t next)
    (hm : ⟨g, .failed⟩ ∈ t.published) : ⟨g, .failed⟩ ∈ s.published := by
  cases h with
  | waits phase hphase => exact hm
  | stopped hop => simpa [publish] using hm
  | restarts hop hopens => simpa [publish] using failed_opens hopens hm

end Course

namespace Life

variable {l m : Life} {k g : Nat}

theorem failed_turn (h : l.Turn k m) (hm : ⟨g, .failed⟩ ∈ m.course.published) :
    ⟨g, .failed⟩ ∈ l.course.published ∨ l.HasStart g := by
  cases h with
  | begins call t next hcall hphase hholder hbegins =>
      rw [course_proceed] at hm
      exact .inl (Course.failed_begins hbegins hm)
  | starts call n t next hcall hphase hstarts =>
      rw [course_proceed] at hm
      rcases Course.failed_starts hstarts hm with hbefore | rfl
      · exact .inl hbefore
      · exact .inr ⟨k, call, hcall, hphase⟩
  | stops call n t next hcall hphase hstops =>
      rw [course_proceed] at hm
      exact .inl (Course.failed_stops hstops hm)

theorem published_tidy (l : Life) : l.tidy.course.published = l.course.published := by
  unfold tidy
  split <;> rfl

/-- A failure is published of a session that is owned, or of one that is being started. -/
theorem failed_step (h : l.Step m) (hm : ⟨g, .failed⟩ ∈ m.course.published) :
    ⟨g, .failed⟩ ∈ l.course.published ∨ l.course.slot = some g ∨ l.HasStart g := by
  obtain ⟨l₂, ⟨l₁, hchanges, hend⟩, rfl⟩ := h
  have hcourse := (callChanges_keep hchanges).1
  rw [published_tidy] at hm
  rcases hend with rfl | hchange
  · exact .inl (hcourse ▸ hm)
  · cases hchange with
    | turn k hturn =>
        rw [← hcourse]
        exact (failed_turn hturn hm).imp_right fun hstart =>
          .inr (hasStart_of_callChanges hchanges hstart)
    | lose n hslot =>
        rw [hcourse] at hslot hm
        rw [Course.publish, List.mem_append, List.mem_singleton, Status.mk.injEq] at hm
        rcases hm with hbefore | ⟨rfl, -⟩
        · exact .inl hbefore
        · exact .inr (.inl hslot)

/-! ### How a session leaves the slot -/

/-- A turn takes a session out of the slot only to stop it. -/
theorem leavesSlot_turn (h : l.Orderly) (hslot : l.course.slot = some g) (hm : l.Turn k m)
    (hgone : m.course.slot ≠ some g) :
    ∃ call, m.calls[k]? = some call ∧ call.phase.stopOf? = some g := by
  have hopens : ∀ {t : Course} {next : Next}, l.course.Opens t next → t.slot = some g := by
    intro t next hopens
    cases hopens <;> exact hslot
  cases hm with
  | begins call t next hcall hphase hholder hbegins =>
      rw [course_proceed] at hgone
      cases hbegins with
      | starts hop hstart => exact absurd (hopens hstart) hgone
      | takes n phase hop howned hphase' =>
          obtain rfl : n = g := Option.some.inj (howned.symm.trans hslot)
          refine ⟨{ call with phase }, ?_, hphase'⟩
          exact getElem?_setPhase_self (l := { l with course := l.course.letGo }) hcall phase
      | idle hop hnone => rw [hslot] at hnone; cases hnone
      | restarts hop hstop hnone hstart => exact absurd (hopens hstart) hgone
  | starts call n t next hcall hphase hstarts =>
      have hturn := not_isTurn_of_slot h hslot hcall
      rw [Phase.isTurn_of_startOf? hphase] at hturn
      cases hturn
  | stops call n t next hcall hphase hstops =>
      have hturn := not_isTurn_of_slot h hslot hcall
      rw [Phase.isTurn_of_stopOf? hphase] at hturn
      cases hturn

/-- A session leaves the slot when it is lost, when a stop takes it, or when nobody holds the client
any more. -/
theorem leavesSlot_step (h : l.Orderly) (hslot : l.course.slot = some g) (hm : l.Step m)
    (hgone : m.course.slot ≠ some g) :
    m.course.published = l.course.published ++ [⟨g, .failed⟩] ∧ m.course.slot = none ∨
      (∃ (k : Nat) (call : Call), m.calls[k]? = some call ∧ call.phase.stopOf? = some g) ∨
      m.isHeld = false := by
  obtain ⟨l₂, ⟨l₁, hchanges, hend⟩, rfl⟩ := hm
  have hcourse := (callChanges_keep hchanges).1
  have hslot₁ : l₁.course.slot = some g := by rw [hcourse, hslot]
  by_cases hheld : l₂.isHeld
  · have htidy : l₂.tidy = l₂ := by rw [tidy, if_pos hheld]
    rw [htidy] at hgone ⊢
    rcases hend with rfl | hchange
    · exact absurd hslot₁ hgone
    · cases hchange with
      | turn k hturn =>
          obtain ⟨call, hcall, hphase⟩ :=
            leavesSlot_turn (orderly_callChanges h hchanges) hslot₁ hturn hgone
          exact .inr (.inl ⟨k, call, hcall, hphase⟩)
      | lose n hlost =>
          obtain rfl : n = g := Option.some.inj (hlost.symm.trans hslot₁)
          exact .inl ⟨by rw [← hcourse]; rfl, rfl⟩
  · refine .inr (.inr ?_)
    rw [tidy, if_neg hheld]
    simpa [isHeld] using hheld

end Life

namespace Client

variable {c : Client} {g k : Nat} {call : Call} {event : Event}

/-! ### The end of a pump -/

theorem published_step (c : Client) (event : Event) :
    (c.step event).published = (c.act event).published :=
  congrArg Dispatch.published (dispatch_tidy (c.act event))

/-- While a session is owned, no event but that of a pump publishes more than a start. -/
theorem published_act_of_owned (h : c.life.Orderly) (hslot : c.slot = some g)
    (hpump : ∀ n, event ≠ .pump n) : (c.act event).published = c.published ∨
      ∃ n, (c.act event).published = c.published ++ [⟨n, .starting⟩] := by
  cases event with
  | advance span => exact .inl rfl
  | invoke operation =>
      rw [act, invoke]
      split <;> exact .inl rfl
  | poll k =>
      rw [act, poll]
      split
      · rename_i call hcall
        split
        · rename_i hcan
          -- While the slot is taken nobody has a turn, so a poll enrolls a hook or launches.
          have hturn := Life.not_isTurn_of_slot h hslot hcall
          obtain ⟨more, hmore | ⟨hlaunch, -⟩⟩ :=
            enrollsOrLaunches_goOn h hcall hcan (by rw [hturn]; exact Bool.false_ne_true)
          · exact .inl (congrArg Dispatch.published hmore)
          · exact .inr ⟨_, congrArg Dispatch.published hlaunch⟩
        · exact .inl rfl
      · exact .inl rfl
  | cancel k => exact .inl (congrArg Dispatch.published (dispatch_cancel c k))
  | launchFailed n error => exact .inl (congrArg Dispatch.published (dispatch_setLaunch c n _ _ _))
  | launchSucceeded n taken process =>
      exact .inl (congrArg Dispatch.published (dispatch_setLaunch c n _ _ _))
  | processEnded n => exact .inl (congrArg Dispatch.published (dispatch_endProcess c n))
  | connection n action =>
      exact .inl (congrArg (fun l : Life => l.course.published) (life_moveConnection c n action))
  | complaint line => exact .inl (congrArg Dispatch.published (dispatch_say c _))
  | pump n => exact absurd rfl (hpump n)
  | onReady hook =>
      obtain ⟨more, hmore⟩ := dispatch_onReady c hook
      exact .inl (congrArg Dispatch.published hmore)
  | relayNotification n message =>
      exact .inl (congrArg Dispatch.published (dispatch_act_relayNotification c n message))
  | release => exact .inl rfl

/-- A pump whose session is not owned publishes nothing. -/
theorem published_pump (hslot : c.slot ≠ some g) : (c.pump g).published = c.published := by
  rcases pump_cases c g with hsame | ⟨message, rest, isOpen, hqueue⟩ | ⟨hqueue, hends⟩
  · rw [hsame]
  · exact (congrArg Dispatch.published (dispatch_pump hqueue)).trans
      (Dispatch.published_updatePumpQueue _ _ _)
  · have hdispatch := dispatch_connectionLost c g
    rw [if_neg hslot, ← hends] at hdispatch
    exact (congrArg Dispatch.published hdispatch).trans (Dispatch.published_updatePumpQueue _ _ _)

/-- How a session leaves the slot of a client. -/
inductive LeavesSlot (c : Client) (g : Nat) (event : Event) : Prop
  /-- Its pump comes to the end, and its failure is published. -/
  | lost (hpump : event = .pump g) (hslot : (c.step event).slot = none)
      (hpublished : (c.step event).published = c.published ++ [⟨g, .failed⟩])
  /-- A stop takes it. -/
  | taken (k : Nat) (call : Call) (hcall : (c.step event).calls[k]? = some call)
      (hphase : call.phase.stopOf? = some g)
  /-- Nobody holds the client any more. -/
  | abandoned (hheld : (c.step event).isHeld = false)

theorem leavesSlot_step (h : c.life.Orderly) (hslot : c.slot = some g)
    (hkeeps : c.dropsTurn event = false) (hgone : (c.step event).slot ≠ some g) :
    c.LeavesSlot g event := by
  rcases Life.leavesSlot_step h hslot (life_step h hkeeps) hgone with
    ⟨hpublished, hnone⟩ | ⟨k, call, hcall, hphase⟩ | hheld
  · have hpublished' : (c.step event).published = c.published ++ [⟨g, .failed⟩] := hpublished
    refine .lost ?_ hnone hpublished'
    -- Nothing but the pump of the session publishes its failure.
    rw [published_step] at hpublished'
    by_cases hpump : ∃ n, event = .pump n
    · obtain ⟨n, rfl⟩ := hpump
      by_cases hn : n = g
      · rw [hn]
      · have hother : c.slot ≠ some n := by
          rw [hslot, Ne, Option.some.injEq]
          exact fun heq => hn heq.symm
        rw [act, published_pump hother] at hpublished'
        simp at hpublished'
    · rcases published_act_of_owned h hslot (fun n heq => hpump ⟨n, heq⟩) with hsame | ⟨n, hstart⟩
      · rw [hsame] at hpublished'
        simp at hpublished'
      · rw [hstart] at hpublished'
        simp at hpublished'
  · exact .taken k call hcall hphase
  · exact .abandoned hheld

/-! ### A session whose connection has ended -/

/-- What holds of a client after any events that drop no turn. -/
structure RunInvariant (c : Client) : Prop where
  orderly : c.life.Orderly
  chronicle : c.life.HasChronicle
  delivers : c.OwnedDelivers
  tidy : c.tidy = c

theorem runInvariant_new (options : SessionOptions) (processId : Nat) (workspace : Workspace) :
    (Client.new options processId workspace).RunInvariant :=
  ⟨orderly_new options processId workspace, Life.hasChronicle_empty,
    ownedDelivers_new options processId workspace,
    tidy_new options processId workspace⟩

theorem runInvariant_step (hw : c.RunInvariant) (hkeeps : c.dropsTurn event = false) :
    (c.step event).RunInvariant :=
  ⟨orderly_step hw.orderly event,
    Life.hasChronicle_step hw.orderly hw.chronicle (life_step hw.orderly hkeeps),
    ownedDelivers_step hw.orderly hw.delivers event, tidy_step c event⟩

theorem runInvariant_run (hw : c.RunInvariant) {events : List Event} (hkeeps : c.keepsTurns events) :
    (c.run events).RunInvariant :=
  run_of_keepsTurns (P := RunInvariant) (fun _ _ _ hw hkeeps => runInvariant_step hw hkeeps)
    hw.orderly hw
    hkeeps

/-- Somebody holds a client that owns a session. -/
theorem isHeld_of_slot (hw : c.RunInvariant) (hslot : c.slot = some g) : c.isHeld := by
  rw [← Bool.not_eq_false]
  intro hheld
  have hnone : c.tidy.slot = none := by simp [Client.tidy, hheld]
  rw [hw.tidy, hslot] at hnone
  cases hnone

theorem pumpQueue?_of_connection (harmed : c.dispatch.isArmed g) {connection : Connection}
    (hconnection : c.connection? g = some connection) :
    c.dispatch.pumpQueue? g = some ⟨true, connection.notifications, connection.isOpen⟩ := by
  obtain ⟨a, hattempt, rfl⟩ := Option.map_eq_some_iff.mp hconnection
  rw [Dispatch.isArmed, pumpQueue?_dispatch, hattempt] at harmed
  have hpump : a.pump = .armed := by simpa [Attempt.pumpQueue] using harmed
  simp [pumpQueue?_dispatch, hattempt, Attempt.pumpQueue, hpump]

/-- A pump whose connection has ended can go on. -/
theorem canPump_of_pumpQueue {waiting : List Notification}
    (h : c.dispatch.pumpQueue? g = some ⟨true, waiting, false⟩) : c.canPump g := by
  rw [pumpQueue?_dispatch, Option.map_eq_some_iff] at h
  obtain ⟨⟨launch, connection, process, pump⟩, hattempt, hqueue⟩ := h
  simp only [Attempt.pumpQueue, PumpQueue.mk.injEq, decide_eq_true_eq] at hqueue
  obtain ⟨rfl, -, hopen⟩ := hqueue
  simp [canPump, hattempt, hopen]

/-- A pump that has something to deliver leaves the session in the slot. -/
theorem step_pump_of_waiting (hheld : c.isHeld) {message : Notification} {rest : List Notification}
    {isOpen : Bool} (hqueue : c.dispatch.pumpQueue? g = some ⟨true, message :: rest, isOpen⟩) :
    (c.step (.pump g)).slot = c.slot ∧
      (c.step (.pump g)).deliveries = c.deliveries ++ [(g, message)] ∧
      (c.step (.pump g)).dispatch.pumpQueue? g = some ⟨true, rest, isOpen⟩ := by
  have hdispatch : (c.step (.pump g)).dispatch = _ := (dispatch_tidy _).trans (dispatch_pump hqueue)
  have hheld' : (c.pump g).isHeld := by rwa [isHeld_pump]
  refine ⟨(slot_tidy hheld').trans (slot_pump_of_waiting hqueue), ?_, ?_⟩
  · exact congrArg Dispatch.deliveries hdispatch
  · rw [hdispatch]
    exact Dispatch.pumpQueue?_updatePumpQueue_self.trans (by rw [hqueue]; rfl)

/-- What is noted of the loss of a session. -/
def lossEntries (g : Nat) : List Entry :=
  [.published ⟨g, .failed⟩, .called (.appendOutput
    ("[Error] Language server failed: " ++ SessionError.message .connectionClosed))]

/-- A pump that has nothing left and gets nothing more takes the session out of the slot, and the
loss is published and told. -/
theorem step_pump_of_ended (hheld : c.isHeld) (hslot : c.slot = some g)
    (hqueue : c.dispatch.pumpQueue? g = some ⟨true, [], false⟩) :
    (c.step (.pump g)).slot = none ∧ (c.step (.pump g)).journal = c.journal ++ lossEntries g := by
  have hheld' : (c.pump g).isHeld := by rwa [isHeld_pump]
  have hslot' : (c.setPump g .ended).slot = some g :=
    (congrArg Course.slot (course_setPump c g .ended)).trans hslot
  have hjournal' : (c.setPump g .ended).journal = c.journal := by
    unfold setPump updateAttempt
    split <;> rfl
  refine ⟨?_, ?_⟩
  · exact (slot_tidy hheld').trans (by rw [pump_of_ended hqueue, slot_connectionLost hslot])
  · rw [step, act, journal_tidy, pump_of_ended hqueue, connectionLost, if_pos hslot']
    change (c.setPump g .ended).journal ++ [_] ++ [_] = c.journal ++ [_, _]
    rw [hjournal', List.append_assoc]
    rfl

/-- A session that has left the slot is gone. -/
theorem gone_of_leavesSlot (hw : c.RunInvariant) (hslot : c.slot = some g)
    (hgone : (c.step event).slot ≠ some g) : (c.step event).Gone g := by
  obtain ⟨hstatus, hlatest⟩ := hw.orderly.owns g hslot
  refine ⟨hgone, ?_, ?_⟩
  · intro hstart
    rcases (derives_event hw.orderly event).start g hstart with ⟨k, call, hcall, hphase⟩ | ⟨-, hnew⟩
    · have hturn := Life.not_isTurn_of_slot hw.orderly hslot hcall
      rw [Phase.isTurn_of_startOf? hphase] at hturn
      cases hturn
    · omega
  · have harmed := hw.delivers.armed g hslot
    refine isSome_attempt?_of_attemptsGoOn (attemptsGoOn_step c event) ?_
    rw [Dispatch.isArmed, pumpQueue?_dispatch] at harmed
    cases hattempt : c.attempt? g with
    | none => simp [hattempt] at harmed
    | some a => rfl

/-- Nothing comes any more for a session whose connection has ended. -/
theorem isDraining_pumpStep {s t : Dispatch} {arrival? : Option (Nat × Notification)}
    (hm : s.PumpStep arrival? t) (hs : s.status = ⟨g, .ready⟩) (hclosed : s.isOpen g = false) :
    t.isOpen g = false ∧ (t.waiting g).length ≤ (s.waiting g).length := by
  cases hm with
  | leaves h =>
      refine ⟨?_, by rw [h.waiting]⟩
      rw [← Bool.not_eq_true] at hclosed ⊢
      exact fun hopen => hclosed (h.isOpen g hopen)
  | becomesReady hstarting h =>
      -- The session that becomes ready was starting, and this one is ready.
      have hstatus := hstarting.status
      rw [hs] at hstatus
      cases hstatus
  | delivers n message rest isOpen h =>
      have hwaiting := Dispatch.waiting_updatePumpQueue s n (fun d => { d with waiting := rest }) g
      have hopen : (s.updatePumpQueue n fun d => { d with waiting := rest }).isOpen g =
          s.isOpen g := by
        unfold Dispatch.isOpen
        rw [Dispatch.pumpQueue?_updatePumpQueue]
        split
        · cases s.pumpQueue? g <;> rfl
        · rfl
      refine ⟨hopen.trans hclosed, ?_⟩
      show ((s.updatePumpQueue n _).waiting g).length ≤ _
      rw [hwaiting]
      split
      · rename_i hn
        rw [← hn, h]
        simp [Dispatch.waiting, h]
      · exact Nat.le_refl _
  | loses n hstatus h =>
      have hdisarm := Dispatch.leavesPumps_disarm s n
      refine ⟨?_, Nat.le_of_eq (congrArg List.length (hdisarm.waiting g))⟩
      rw [← Bool.not_eq_true] at hclosed ⊢
      exact fun hopen => hclosed (hdisarm.isOpen g hopen)
  | arrives n message d h hopen =>
      -- A notification arrives only where the connection is open.
      have hn : n ≠ g := by
        rintro rfl
        rw [Dispatch.isOpen, h, Option.all_some, hopen] at hclosed
        cases hclosed
      obtain ⟨hwaiting, hopen', -⟩ :=
        Dispatch.elsewhere (Dispatch.pumpQueue?_updatePumpQueue_ne (s := s) (f := .put message) hn)
      rw [hwaiting, hopen']
      exact ⟨hclosed, Nat.le_refl _⟩

/-- Whether an event is one of the pump of a session. -/
def Event.isPumpOf (g : Nat) : Event → Bool
  | .pump n => n = g
  | _ => false

/-- A session is gone, or its connection has ended and so many notifications at most still wait. -/
def IsDraining (c : Client) (g n : Nat) : Prop :=
  c.Gone g ∨ c.slot = some g ∧ c.dispatch.isOpen g = false ∧ (c.dispatch.waiting g).length ≤ n

theorem isDraining_step (hw : c.RunInvariant) {n : Nat} (h : c.IsDraining g n) (event : Event) :
    (c.step event).IsDraining g n := by
  rcases h with hgone | ⟨hslot, hclosed, hwaiting⟩
  · exact .inl (gone_step hw.orderly hgone event)
  · by_cases hkept : (c.step event).slot = some g
    · obtain ⟨hclosed', hless⟩ := isDraining_pumpStep
        (Dispatch.pumpStep_of_step (dispatch_step hw.orderly hw.chronicle event))
          (hw.orderly.owns g hslot).1 hclosed
      exact .inr ⟨hkept, hclosed', Nat.le_trans hless hwaiting⟩
    · exact .inl (gone_of_leavesSlot hw hslot hkept)

theorem pumpQueue?_of_closed (harmed : c.dispatch.isArmed g) (hclosed : c.dispatch.isOpen g = false) :
    c.dispatch.pumpQueue? g = some ⟨true, c.dispatch.waiting g, false⟩ := by
  unfold Dispatch.isArmed at harmed
  unfold Dispatch.isOpen at hclosed
  unfold Dispatch.waiting
  cases hqueue : c.dispatch.pumpQueue? g with
  | none => simp [hqueue] at harmed
  | some d =>
      obtain ⟨armed, waiting, isOpen⟩ := d
      simp_all

/-- The pump of a session whose connection has ended gets on with what waits. -/
theorem isDraining_pump (hw : c.RunInvariant) {n : Nat} (h : c.IsDraining g n) :
    (c.step (.pump g)).Gone g ∨ ∃ m, n = m + 1 ∧ (c.step (.pump g)).IsDraining g m := by
  rcases h with hgone | ⟨hslot, hclosed, hless⟩
  · exact .inl (gone_step hw.orderly hgone _)
  · have hheld := isHeld_of_slot hw hslot
    have hqueue := pumpQueue?_of_closed (hw.delivers.armed g hslot) hclosed
    cases hwaiting : c.dispatch.waiting g with
    | nil =>
        rw [hwaiting] at hqueue
        obtain ⟨hnone, -⟩ := step_pump_of_ended hheld hslot hqueue
        exact .inl (gone_of_leavesSlot hw hslot (by rw [hnone]; nofun))
    | cons message rest =>
        rw [hwaiting] at hqueue hless
        obtain ⟨hkept, -, hqueue'⟩ := step_pump_of_waiting hheld hqueue
        obtain ⟨m, rfl⟩ := Nat.exists_eq_add_of_le' (Nat.le_trans (Nat.le_add_left 1 _) hless)
        refine .inr ⟨m, rfl, .inr ⟨hkept.trans hslot, ?_, ?_⟩⟩
        · simp [Dispatch.isOpen, hqueue']
        · simpa [Dispatch.waiting, hqueue'] using hless

/-- The pump of a session whose connection has ended need only go on often enough. -/
theorem gone_of_pumps (hw : c.RunInvariant) {n : Nat} (h : c.IsDraining g n) {later : List Event}
    (hkeeps : c.keepsTurns later) (hoften : n < later.countP (Event.isPumpOf g)) :
    (c.run later).Gone g := by
  induction later generalizing c n with
  | nil => simp at hoften
  | cons event rest ih =>
      rw [keepsTurns, Bool.and_eq_true, Bool.not_eq_true'] at hkeeps
      have hnext := runInvariant_step hw hkeeps.1
      rw [List.countP_cons] at hoften
      by_cases hpump : event.isPumpOf g
      · obtain rfl : event = .pump g := by
          cases event <;> simp_all [Event.isPumpOf]
        rw [if_pos hpump] at hoften
        rcases isDraining_pump hw h with hgone | ⟨m, rfl, hdraining⟩
        · exact gone_run hnext.orderly hgone rest
        · exact ih hnext hdraining hkeeps.2 (by omega)
      · rw [if_neg hpump] at hoften
        exact ih hnext (isDraining_step hw h event) hkeeps.2 hoften

/-- Whenever a session has left the slot in a run, one of the events had it part. -/
theorem leavesSlot_run (hw : c.RunInvariant) (hslot : c.slot = some g) {later : List Event}
    (hkeeps : c.keepsTurns later) (hgone : (c.run later).slot ≠ some g) :
    ∃ before event after, later = before ++ event :: after ∧ (c.run before).slot = some g ∧
      (c.run before).LeavesSlot g event := by
  induction later generalizing c with
  | nil => exact absurd hslot hgone
  | cons event rest ih =>
      rw [keepsTurns, Bool.and_eq_true, Bool.not_eq_true'] at hkeeps
      by_cases hkept : (c.step event).slot = some g
      · obtain ⟨before, next, after, rfl, hslot', hleaves⟩ :=
          ih (runInvariant_step hw hkeeps.1) hkept hkeeps.2 hgone
        exact ⟨event :: before, next, after, rfl, hslot', hleaves⟩
      · exact ⟨[], event, rest, rfl, hslot, leavesSlot_step hw.orderly hslot hkeeps.1 hkept⟩

/-! ### A session that a stop has taken -/

/-- The statuses go on and never back. -/
theorem pairwise_published (hw : c.RunInvariant) : c.published.Pairwise Status.Before := by
  obtain ⟨fates, hended | ⟨hstarting, -⟩ | ⟨hready, -⟩⟩ := hw.chronicle
  · obtain ⟨all, hprefix⟩ := Course.prefix_of_publishedUpTo hended
    exact pairwise_chronicle hprefix
  · obtain ⟨all, hprefix⟩ := Course.prefix_of_publishedUpTo hstarting
    exact pairwise_chronicle hprefix
  · obtain ⟨all, hprefix⟩ := Course.prefix_of_publishedUpTo hready
    exact pairwise_chronicle hprefix

/-- A session that a stop has taken is gone, and its failure has not been published. -/
theorem silent_of_stopOf? (hw : c.RunInvariant) (hcall : c.calls[k]? = some call)
    (hphase : call.phase.stopOf? = some g) : c.Gone g ∧ ⟨g, .failed⟩ ∉ c.published := by
  have hmatches := (hw.orderly.turn k call hcall (Phase.isTurn_of_stopOf? hphase)).2
  have hstopping := hmatches.stopping g hphase
  have hstatus : c.life.course.status = ⟨g, .ready⟩ := hstopping.status
  obtain ⟨fates, rfl, hupTo⟩ := Life.publishedUpTo_of_ready hw.chronicle hstatus
  refine ⟨⟨?_, ?_, ?_⟩, ?_⟩
  · rw [show c.slot = none from hstopping.slot]
    nofun
  · rintro ⟨i, other, hother, hstart⟩
    have hturn := (hw.orderly.turn i other hother (Phase.isTurn_of_startOf? hstart)).2
    have hstarting := (hturn.starting _ hstart).status
    rw [hstatus] at hstarting
    cases hstarting
  · have hlatest : fates.length + 1 = c.attempts.length := hstopping.generation
    have hplace : fates.length < c.attempts.length := by omega
    simp [attempt?, hplace]
  · have hpublished : c.published = _ := hupTo.published
    intro hfailed
    rw [hpublished, List.mem_append] at hfailed
    rcases hfailed with hbefore | hnow
    · -- What was published before it was ready is of earlier sessions.
      have hpairwise := pairwise_published hw
      rw [hpublished, List.pairwise_append] at hpairwise
      have hless := hpairwise.2.2 _ hbefore ⟨fates.length + 1, .ready⟩ (by simp [Stage.part])
      simp [Status.Before, SessionState.rank] at hless
    · simp [Stage.part] at hnow

/-- Of a session that a stop has taken no failure is published. -/
theorem silent_run (hw : c.RunInvariant) (hgone : c.Gone g) (hsilent : ⟨g, .failed⟩ ∉ c.published)
    {later : List Event} (hkeeps : c.keepsTurns later) : ⟨g, .failed⟩ ∉ (c.run later).published := by
  induction later generalizing c with
  | nil => exact hsilent
  | cons event rest ih =>
      rw [keepsTurns, Bool.and_eq_true, Bool.not_eq_true'] at hkeeps
      refine ih (runInvariant_step hw hkeeps.1) (gone_step hw.orderly hgone event) ?_ hkeeps.2
      intro hfailed
      rcases Life.failed_step (life_step hw.orderly hkeeps.1) hfailed with
        hbefore | hslot | hstart
      · exact hsilent hbefore
      · exact hgone.slot hslot
      · exact hgone.start hstart

/-- No status is published twice. -/
theorem count_published_le_one (hw : c.RunInvariant) (status : Status) :
    c.published.count status ≤ 1 := by
  refine List.nodup_iff_count.mp ((pairwise_published hw).imp ?_) status
  rintro s t hbefore rfl
  rcases hbefore with hless | ⟨-, hless⟩ <;> exact absurd hless (Nat.lt_irrefl _)

end Client
end LanguageClient
