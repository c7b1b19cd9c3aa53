import LanguageClient.Proofs.Client.Links
import LanguageClient.Proofs.Connection.Accounts
import LanguageClient.Proofs.Session.Reuse

/-!
# A stop comes to its end

A stop waits for the answer of the server, for the end of the connection and for the end of the
process, and for none of them longer than the grace that it has for each.  So whatever else happens,
it goes on when enough time has passed, and comes nearer to its end by that.

* `Client.OnlyTimePasses` — time passes, and no caller does anything on a connection.
* **`Client.onlyTimePasses_step`** — so it is with every event that takes no notice of lock and calls.
* `Phase.stopRank`, `Client.IsTimely` — how many waits of a stop are left, and that the present one
  has a bound.
* `Client.canGoOn_of_isTimely` — a stop that has had its grace can go on.
* `Client.StopProceeds`, `Client.stop_goOn` — a stop that goes on has fewer waits left, or publishes
  that the session is stopped and is over.
* `Client.IsBeingStopped` — a stop waits and the session is published as ready, or it is over and the
  session is published as stopped.
* **`Client.stop_begins`** — a stop that finds a session hands in the request to shut down.
* **`Client.isBeingStopped_poll`**, **`Client.isBeingStopped_beside`** — whatever happens then, it
  stays so.
-/

namespace LanguageClient

/-! ### The callers of a connection -/

namespace Connection

variable {c d : Connection} {action : Action}

/-- Only its caller gives a request up. -/
theorem forget_of_deed {id : Nat} (h : c.deed? action = some (.forgot id)) : action = .forget id := by
  cases action with
  | settle now n =>
      obtain ⟨r, -, hr⟩ := Option.map_eq_some_iff.mp h
      cases hr
  | forget n =>
      simp only [deed?] at h
      split at h <;> cases h
      rfl
  | finish =>
      simp only [deed?] at h
      split at h
      · obtain ⟨n, -, hn⟩ := Option.map_eq_some_iff.mp h
        cases hn
      · cases h
  | handle =>
      simp only [deed?] at h
      split at h
      · split at h <;> cases h
      · cases h
  | _ => cases h

/-- A connection that does something by itself leaves the callers alone. -/
theorem callers_step (haction : action.isSpontaneous) (hstep : c.step? action = some d) :
    d.exchanges.map Exchange.caller = c.exchanges.map Exchange.caller := by
  have hm := move_step hstep
  change d.ledger.exchanges.map Exchange.caller = c.ledger.exchanges.map Exchange.caller
  generalize hdeed : c.deed? action = deed? at hm
  generalize d.ledger = m at hm
  cases hm with
  | idle => rfl
  | request method deadline =>
      obtain ⟨params, rfl⟩ := (action_of_deed hdeed).2 _ _ _ rfl
      cases haction
  | settle now e outcome he houtcome =>
      obtain rfl := (action_of_deed hdeed).1 _ _ _ rfl
      cases haction
  | forget e he hwaits =>
      obtain rfl := forget_of_deed hdeed
      cases haction
  | wrote id rest hopen hfirst => rfl
  | answer id response hopen hpending hid => exact Exchange.map_caller_receive (·.id = id) _ _
  | stray response hopen hid => rfl
  | close hopen =>
      exact Exchange.map_caller_receive (·.id ∈ c.ledger.pending ++ c.ledger.unwritten) _ _

/-- The number of a request that is made is new, so that it is this request that is found by it. -/
theorem exchange?_request (h : c.IsNumbered) (method : String) (params : Json) (deadline : Nat) :
    ∃ e, (c.request method params deadline).1.exchange? c.nextId = some e ∧ e.isWaiting ∧
      e.deadline = deadline := by
  have hold : c.exchanges.find? (·.id = c.nextId) = none := by
    refine List.find?_eq_none.mpr fun e he => ?_
    have hbelow : e.id < c.nextId := h e he
    simpa using Nat.ne_of_lt hbelow
  rw [exchange?, request, List.find?_append, hold, Option.none_or,
    List.find?_cons_of_pos (by simp)]
  exact ⟨_, rfl, rfl, rfl⟩

end Connection

/-- How many waits of a stop are left in a phase. -/
def Phase.stopRank : Phase → Nat
  | stopping _ _ => 3
  | closing _ _ => 2
  | reaping _ _ none => 1
  | _ => 0

theorem Phase.stopRank_pos {phase : Phase} {g : Nat} (h : phase.stopOf? = some g) :
    0 < phase.stopRank := by
  cases phase with
  | reaping g' deadline error? => cases error? <;> simp_all [stopOf?, stopRank]
  | _ => simp_all [stopOf?, stopRank]

theorem Phase.isOver_of_stopOf? {phase : Phase} {g : Nat} (h : phase.stopOf? = some g) :
    phase.isOver = false := by
  cases phase <;> first | rfl | cases h

namespace Client

variable {c d e : Client} {k g id : Nat} {call : Call} {phase : Phase}

/-! ### Time passes -/

/-- Time passes, and no caller does anything on a connection. -/
structure OnlyTimePasses (c d : Client) : Prop where
  now : c.now ≤ d.now
  options : d.options = c.options
  callers : ∀ g, (d.link g).exchanges.map Exchange.caller = (c.link g).exchanges.map Exchange.caller

theorem onlyTimePasses_of_attempts (hnow : c.now ≤ d.now) (hoptions : d.options = c.options)
    (h : d.attempts = c.attempts) : c.OnlyTimePasses d :=
  ⟨hnow, hoptions, fun g => by rw [link_of_attempts h]⟩

theorem onlyTimePasses_refl (c : Client) :
    c.OnlyTimePasses c := onlyTimePasses_of_attempts (Nat.le_refl _) rfl rfl

theorem OnlyTimePasses.trans (h : c.OnlyTimePasses d) (h' : d.OnlyTimePasses e) :
    c.OnlyTimePasses e where
  now := Nat.le_trans h.now h'.now
  options := h'.options.trans h.options
  callers g := (h'.callers g).trans (h.callers g)

theorem onlyTimePasses_note (c : Client) (entry : Entry) : c.OnlyTimePasses (c.note entry) :=
  onlyTimePasses_of_attempts (Nat.le_refl _) rfl rfl

theorem onlyTimePasses_workspaceEffect {f : Client → Client} (hf : WorkspaceEffect f) (c : Client) :
    c.OnlyTimePasses (f c) :=
  onlyTimePasses_of_attempts (Nat.le_of_eq (hf.now c).symm) (hf.options c) (hf.attempts c)

theorem options_updateAttempt (c : Client) (g : Nat) (f : Attempt → Attempt) :
    (c.updateAttempt g f).options = c.options := by
  unfold updateAttempt
  split <;> rfl

theorem onlyTimePasses_updateAttempt {f : Attempt → Attempt}
    (h : ∀ a, c.attempt? g = some a → (f a).connection.exchanges.map Exchange.caller =
      a.connection.exchanges.map Exchange.caller) : c.OnlyTimePasses (c.updateAttempt g f) where
  now := by
    unfold updateAttempt
    split <;> exact Nat.le_refl _
  options := options_updateAttempt c g f
  callers i := by
    rw [link_updateAttempt]
    split
    · rename_i hi
      subst hi
      unfold link connection?
      cases ha : c.attempt? g with
      | none => rfl
      | some a => exact h a ha
    · rfl

theorem onlyTimePasses_setPump (c : Client) (g : Nat) (pump : Pump) :
    c.OnlyTimePasses (c.setPump g pump) :=
  onlyTimePasses_updateAttempt fun _ _ => rfl

theorem onlyTimePasses_moveConnection (c : Client) (g : Nat) (action : Connection.Action) :
    c.OnlyTimePasses (c.moveConnection g action) := by
  rcases moveConnection_cases c g action with ⟨hsame, -⟩ | ⟨a, k, ha, -, haction, hstep, hmoved⟩
  · rw [hsame]
    exact onlyTimePasses_refl c
  · rw [hmoved]
    refine onlyTimePasses_updateAttempt fun b hb => ?_
    obtain rfl : a = b := Option.some.inj (ha.symm.trans hb)
    exact Connection.callers_step haction hstep

theorem onlyTimePasses_pump (c : Client) (g : Nat) : c.OnlyTimePasses (c.pump g) := by
  have hchange := pumpChange_pump c g
  generalize c.pump g = d at hchange ⊢
  cases hchange with
  | rests => exact onlyTimePasses_refl c
  | @delivers a message rest hattempt harmed hwaiting =>
      have htaken : c.OnlyTimePasses
          (c.updateConnection g fun k => { k with notifications := rest }) :=
        onlyTimePasses_updateAttempt fun _ _ => rfl
      exact (htaken.trans (onlyTimePasses_note _ _)).trans
        (onlyTimePasses_workspaceEffect (workspaceEffect_deliver message) _)
  | loses =>
      exact (onlyTimePasses_setPump c g .ended).trans
        (onlyTimePasses_of_attempts (Nat.le_refl _) rfl rfl)
  | ends => exact onlyTimePasses_setPump c g .ended

theorem onlyTimePasses_tidy (c : Client) : c.OnlyTimePasses c.tidy where
  now := by
    rw [tidy_eq_sweep, disown]
    split <;> exact Nat.le_refl _
  options := by
    rw [tidy_eq_sweep, disown]
    split <;> rfl
  callers g := by
    rcases c.link_tidy g with hsame | haborted
    · rw [hsame]
    · rw [haborted]
      rfl

theorem onlyTimePasses_act (c : Client) {event : Event} (h : event.isBeside) :
    c.OnlyTimePasses (c.act event) := by
  cases event with
  | advance span => exact onlyTimePasses_of_attempts (Nat.le_add_right _ _) rfl rfl
  | launchFailed g error =>
      refine onlyTimePasses_updateAttempt fun a _ => ?_
      dsimp only
      split <;> rfl
  | launchSucceeded g taken process =>
      refine onlyTimePasses_updateAttempt fun a _ => ?_
      dsimp only
      split <;> rfl
  | processEnded g =>
      refine onlyTimePasses_updateAttempt fun a _ => ?_
      split <;> rfl
  | connection g action => exact onlyTimePasses_moveConnection c g action
  | complaint line => exact onlyTimePasses_workspaceEffect (workspaceEffect_say _) c
  | pump g => exact onlyTimePasses_pump c g
  | onReady hook => exact onlyTimePasses_workspaceEffect (workspaceEffect_onReady hook) c
  | _ => cases h

/-- **Time passes with every event that takes no notice of lock and calls.** -/
theorem onlyTimePasses_step (c : Client) {event : Event} (h : event.isBeside) :
    c.OnlyTimePasses (c.step event) :=
  (onlyTimePasses_act c h).trans (onlyTimePasses_tidy _)

/-- The time that an event lets pass. -/
def Event.span : Event → Nat
  | advance span => span
  | _ => 0

theorem now_add_span_le (c : Client) {event : Event} (h : event.isBeside) :
    c.now + event.span ≤ (c.step event).now := by
  cases event with
  | advance span => exact (onlyTimePasses_tidy { c with now := c.now + span }).now
  | _ => exact (onlyTimePasses_step c h).now

/-! ### How long a stop waits -/

theorem link_of_connection? {connection : Connection} (h : c.connection? g = some connection) :
    c.link g = connection := by
  rw [link, h, Option.getD_some]

/-- The caller of a request on the connection of a generation. -/
def caller? (c : Client) (g id : Nat) : Option Exchange := ((c.link g).exchange? id).map Exchange.caller

theorem caller?_eq_find? (c : Client) (g id : Nat) :
    c.caller? g id = ((c.link g).exchanges.map Exchange.caller).find? (·.id = id) := by
  rw [caller?, Connection.exchange?, List.find?_map]
  rfl

/-- The wait of a stop in a phase is over at a time that is bounded by its grace. -/
def IsTimely (c : Client) : Phase → Prop
  | .stopping g id => ∃ e, c.caller? g id = some e ∧ e.isWaiting ∧
      e.deadline ≤ c.now + c.options.stopGrace
  | .closing _ deadline => deadline ≤ c.now + c.options.stopGrace
  | .reaping _ deadline _ => deadline ≤ c.now + c.options.stopGrace
  | _ => True

theorem deadline_onlyTimePasses (h : c.OnlyTimePasses d) {deadline : Nat}
    (hdeadline : deadline ≤ c.now + c.options.stopGrace) :
    deadline ≤ d.now + d.options.stopGrace := by
  rw [h.options]
  exact Nat.le_trans hdeadline (Nat.add_le_add_right h.now _)

theorem isTimely_onlyTimePasses (h : c.OnlyTimePasses d) (ht : c.IsTimely phase) :
    d.IsTimely phase := by
  cases phase with
  | stopping g id =>
      obtain ⟨e, he, hwaiting, hdeadline⟩ := ht
      refine ⟨e, ?_, hwaiting, deadline_onlyTimePasses h hdeadline⟩
      rw [caller?_eq_find?, h.callers, ← caller?_eq_find?, he]
  | closing g deadline => exact deadline_onlyTimePasses h ht
  | reaping g deadline error? => exact deadline_onlyTimePasses h ht
  | _ => trivial

/-- The outcome of a request whose time is up can be taken. -/
theorem settle?_of_late {x : Exchange} (hx : c.caller? g id = some x) (hwaiting : x.isWaiting)
    (hlate : x.deadline ≤ c.now) : (c.settle? g id).isSome := by
  obtain ⟨y, hy, rfl⟩ := Option.map_eq_some_iff.mp hx
  have hstate : y.state = .waiting := by
    cases hcase : y.state <;> simp_all [Exchange.isWaiting, Exchange.caller]
  have houtcome : (Connection.outcome? c.now y).isSome := by
    rw [Connection.outcome?, hstate]
    cases y.reply? with
    | none => simp [show y.deadline ≤ c.now from hlate]
    | some reply => rfl
  obtain ⟨outcome, houtcome⟩ := Option.isSome_iff_exists.mp houtcome
  cases hconnection : c.connection? g with
  | none =>
      have hlink : c.link g = {} := by rw [link, hconnection, Option.getD_none]
      rw [hlink] at hy
      cases hy
  | some connection =>
      rw [link_of_connection? hconnection] at hy
      rw [settle?, hconnection, Option.bind_some, Connection.settle?, hy, Option.bind_some, houtcome]
      rfl

/-- **A stop that has had its grace can go on.** -/
theorem canGoOn_of_isTimely (hphase : phase.stopOf? = some g) (ht : c.IsTimely phase)
    (h : c.OnlyTimePasses d) (hlate : c.now + c.options.stopGrace ≤ d.now) : d.canGoOn k phase := by
  cases phase with
  | stopping g id =>
      obtain ⟨e, he, hwaiting, hdeadline⟩ := ht
      refine settle?_of_late (x := e) ?_ hwaiting (Nat.le_trans hdeadline hlate)
      rw [caller?_eq_find?, h.callers, ← caller?_eq_find?, he]
  | closing g deadline =>
      have hover : deadline ≤ d.now := Nat.le_trans ht hlate
      simp only [canGoOn, closeIsOver]
      cases d.connection? g with
      | none => rfl
      | some connection => simp [Connection.closeIsOver, hover]
  | reaping g deadline error? =>
      have hover : deadline ≤ d.now := Nat.le_trans ht hlate
      simp [canGoOn, reapIsOver, hover]
  | _ => cases hphase

/-! ### A stop goes on -/

/-- What comes of a stop of a session that goes on: it has fewer waits left, or it publishes that the
session is stopped and is over. -/
inductive StopProceeds (c : Client) (g rank : Nat) : Client × Next → Prop
  | waits (d : Client) (phase : Phase) (hphase : phase.stopOf? = some g)
      (hrank : phase.stopRank < rank) (htimely : d.IsTimely phase) (hcourse : d.course = c.course)
      (hoptions : d.options = c.options) : StopProceeds c g rank (d, .waits phase)
  | ends (d : Client) (hcourse : d.course = c.course.publish g .stopped)
      (hoptions : d.options = c.options) : StopProceeds c g rank (d, .ends .done)

theorem stopProceeds_afterClose (hcourse : d.course = c.course) (hoptions : d.options = c.options)
    (rank : Nat) : c.StopProceeds g rank (d.afterClose .stop g none) :=
  .ends _ (by rw [course_publish, course_setPump, hcourse])
    ((options_updateAttempt d g _).trans hoptions)

theorem stopProceeds_reap (c : Client) {rank : Nat} (hrank : 1 < rank) :
    c.StopProceeds g rank (c.reap .stop g none) := by
  have hcourse := course_updateConnection c g Connection.abort
  have hoptions : (c.updateConnection g Connection.abort).options = c.options :=
    options_updateAttempt c g _
  unfold reap
  dsimp only
  split
  · exact .waits _ _ rfl hrank (Nat.le_refl _) hcourse hoptions
  · exact stopProceeds_afterClose hcourse hoptions rank

theorem stopProceeds_afterClosing {deadline : Nat} (hover : c.closeIsOver g deadline) :
    c.StopProceeds g 2 (c.afterClosing .stop g deadline) := by
  rw [afterClosing, if_pos hover]
  exact stopProceeds_reap c (by omega)

theorem stopProceeds_afterReaping {deadline : Nat} (hover : c.reapIsOver g deadline) :
    c.StopProceeds g 1 (c.afterReaping .stop g deadline none) := by
  rw [afterReaping, if_pos hover]
  exact stopProceeds_afterClose (course_endProcess c g) (options_updateAttempt c g _) 1

theorem options_settle? {outcome : Except SessionError Json}
    (h : c.settle? g id = some (d, outcome)) : d.options = c.options := by
  obtain ⟨_, after, -, -, rfl⟩ := settle?_eq_some_iff.mp h
  exact options_updateAttempt c g _

theorem options_notify? {message : Notification} (h : c.notify? g message = some d) :
    d.options = c.options := by
  obtain ⟨_, after, -, -, rfl⟩ := notify?_eq_some_iff.mp h
  exact options_updateAttempt c g _

theorem stopProceeds_afterShutdown (hsettle : (c.settle? g id).isSome) :
    c.StopProceeds g 3 (c.afterShutdown g id) := by
  obtain ⟨⟨d, outcome⟩, hsettle⟩ := Option.isSome_iff_exists.mp hsettle
  have hcourse := course_settle? hsettle
  have hoptions := options_settle? hsettle
  simp only [afterShutdown, hsettle]
  cases outcome with
  | error error => exact .waits _ _ rfl (Nat.lt_succ_self 2) (Nat.le_refl _) hcourse hoptions
  | ok result =>
      -- The last notification may come too late for the connection.
      cases hnotify : d.notify? g ⟨Method.exit, .null⟩ with
      | none =>
          simp only [Option.getD_none]
          exact .waits _ _ rfl (Nat.lt_succ_self 2) (Nat.le_refl _) hcourse hoptions
      | some d' =>
          simp only [Option.getD_some]
          exact .waits _ _ rfl (Nat.lt_succ_self 2) (Nat.le_refl _)
            ((course_notify? hnotify).trans hcourse) ((options_notify? hnotify).trans hoptions)

theorem stop_goOn (hphase : phase.stopOf? = some g) (hcan : c.canGoOn k phase) :
    ∃ part : Client → Client × Next, IsLocal part ∧ c.goOn k .stop phase = proceed k (part c) ∧
      c.StopProceeds g phase.stopRank (part c) := by
  cases phase with
  | stopping g' id =>
      cases hphase
      exact ⟨_, local_afterShutdown g id, rfl, stopProceeds_afterShutdown hcan⟩
  | closing g' deadline =>
      cases hphase
      exact ⟨_, local_afterClosing .stop g deadline, rfl, stopProceeds_afterClosing hcan⟩
  | reaping g' deadline error? =>
      cases error? with
      | none =>
          cases hphase
          exact ⟨_, local_afterReaping .stop g deadline none, rfl, stopProceeds_afterReaping hcan⟩
      | some error => cases hphase
  | _ => cases hphase

/-- A stop has taken a session out: it waits, and the session is still published as ready, or it is
over and the session is published as stopped. -/
structure IsBeingStopped (c : Client) (g : Nat) (phase : Phase) : Prop where
  slot : c.slot = none
  status : phase.stopOf? = some g ∧ c.IsTimely phase ∧ c.status = ⟨g, .ready⟩ ∨
    phase = .finished .done ∧ c.status = ⟨g, .stopped⟩

theorem isBeingStopped_tidy (h : c.IsBeingStopped g phase) : c.tidy.IsBeingStopped g phase where
  slot := by
    rw [tidy_eq_sweep, disown]
    split
    · exact h.slot
    · rfl
  status := by
    have hstatus : c.tidy.status = c.status := by
      rw [status, published, journal_tidy]
      rfl
    rw [hstatus]
    exact h.status.imp_left
      (And.imp_right (And.imp_left (isTimely_onlyTimePasses (onlyTimePasses_tidy c))))

/-- A part of the turn of a stop brings it nearer to its end. -/
theorem isBeingStopped_proceed (hcall : c.calls[k]? = some call) (hop : call.operation = .stop)
    (h : c.IsBeingStopped g call.phase) (hphase : call.phase.stopOf? = some g)
    {part : Client → Client × Next} (hpart : IsLocal part)
    (hw : c.StopProceeds g call.phase.stopRank (part c)) :
    ∃ phase, (proceed k (part c)).calls[k]? = some { call with phase } ∧
      phase.stopRank < call.phase.stopRank ∧ (proceed k (part c)).IsBeingStopped g phase ∧
      (proceed k (part c)).options = c.options := by
  have hready : c.status = ⟨g, .ready⟩ := by
    rcases h.status with ⟨-, -, hready⟩ | ⟨hover, -⟩
    · exact hready
    · rw [hover] at hphase
      cases hphase
  have hpos := Phase.stopRank_pos hphase
  have hcalls := hpart.calls c
  generalize part c = result at hw hcalls
  cases hw with
  | waits d phase hphase hrank htimely hcourse hoptions =>
      have hcall' : d.calls[k]? = some call := (congrArg (·[k]?) hcalls).trans hcall
      refine ⟨phase, Life.getElem?_setPhase_self (l := d.life) hcall' phase, hrank,
        ⟨?_, .inl ⟨hphase, ?_, ?_⟩⟩, hoptions⟩
      · exact (congrArg Course.slot hcourse).trans h.slot
      · exact isTimely_onlyTimePasses (onlyTimePasses_of_attempts (Nat.le_refl _) rfl rfl) htimely
      · exact (congrArg Course.status hcourse).trans hready
  | ends d hcourse hoptions =>
      have hcall' : d.calls[k]? = some call := (congrArg (·[k]?) hcalls).trans hcall
      have hconclude := conclude_of_takesTurn hcall' (by rw [hop]; rfl) Outcome.done
      refine ⟨.finished .done, ?_, hpos, ⟨?_, .inr ⟨rfl, ?_⟩⟩, ?_⟩ <;> rw [proceed, hconclude]
      · exact Life.getElem?_setPhase_self (l := d.life) hcall' (.finished .done)
      · exact (congrArg Course.slot hcourse).trans h.slot
      · exact (congrArg Course.status hcourse).trans (Course.status_publish _ _ _)
      · exact hoptions

/-- **A stop that is polled waits as it did, or is nearer to its end**, and nearer if it can go on. -/
theorem isBeingStopped_poll (hcall : c.calls[k]? = some call) (hop : call.operation = .stop)
    (h : c.IsBeingStopped g call.phase) :
    ∃ phase, (c.step (.poll k)).calls[k]? = some { call with phase } ∧
      (c.step (.poll k)).IsBeingStopped g phase ∧ (c.step (.poll k)).options = c.options ∧
      (phase.stopRank < call.phase.stopRank ∨
        phase = call.phase ∧ c.canGoOn k call.phase = false ∧ c.step (.poll k) = c.tidy) := by
  have hstep : c.step (.poll k) =
      (if c.canGoOn k call.phase then c.goOn k call.operation call.phase else c).tidy :=
    congrArg tidy (poll_eq hcall)
  rw [hstep, tidy_calls]
  by_cases hcan : c.canGoOn k call.phase
  · rw [if_pos hcan, hop]
    have hphase : call.phase.stopOf? = some g := by
      rcases h.status with ⟨hphase, -⟩ | ⟨hover, -⟩
      · exact hphase
      · rw [hover] at hcan
        cases hcan
    obtain ⟨part, hpart, hgo, hw⟩ := stop_goOn hphase hcan
    obtain ⟨phase, hcalls, hrank, hstopping, hoptions⟩ :=
      isBeingStopped_proceed hcall hop h hphase hpart hw
    rw [hgo]
    exact ⟨phase, hop ▸ hcalls, isBeingStopped_tidy hstopping,
      (onlyTimePasses_tidy _).options.trans hoptions,
      .inl hrank⟩
  · rw [if_neg hcan]
    exact ⟨call.phase, hcall, isBeingStopped_tidy h, (onlyTimePasses_tidy c).options,
      .inr ⟨rfl, by simpa using hcan, rfl⟩⟩

/-! ### What happens besides -/

/-- Where no session is owned, an event that takes no notice of lock and calls publishes nothing. -/
theorem course_act_of_no_slot (hslot : c.slot = none) {event : Event} (h : event.isBeside) :
    (c.act event).course = c.course := by
  cases event with
  | advance span => rfl
  | launchFailed g error => exact course_updateAttempt c g _
  | launchSucceeded g taken process => exact course_updateAttempt c g _
  | processEnded g => exact course_endProcess c g
  | connection g action =>
      rcases moveConnection_cases c g action with ⟨hsame, -⟩ | ⟨a, d, -, -, -, -, hmoved⟩
      · exact congrArg course hsame
      · exact (congrArg course hmoved).trans (course_updateConnection c g _)
  | complaint line => exact course_of_workspaceEffect (workspaceEffect_say _) c
  | pump g =>
      rcases course_pump c g with hsame | ⟨howned, -⟩
      · exact hsame
      · cases hslot.symm.trans howned
  | onReady hook => exact course_of_workspaceEffect (workspaceEffect_onReady hook) c
  | _ => cases h

/-- **A stop waits as it did when something else happens.** -/
theorem isBeingStopped_beside (h : c.IsBeingStopped g phase) {event : Event}
    (hbeside : event.isBeside) : (c.step event).IsBeingStopped g phase := by
  have hcourse := course_act_of_no_slot h.slot hbeside
  have hstatus : (c.act event).status = c.status := congrArg Course.status hcourse
  refine isBeingStopped_tidy ⟨(congrArg Course.slot hcourse).trans h.slot, ?_⟩
  rw [hstatus]
  exact h.status.imp_left
    (And.imp_right (And.imp_left (isTimely_onlyTimePasses (onlyTimePasses_act c hbeside))))

/-! ### A stop begins -/

/-- A connection that somebody keeps stays as it is. -/
theorem connection?_tidy_of_keeps (h : c.disown.keepsConnection g) :
    c.tidy.connection? g = c.connection? g := by
  rw [connection?, connection?, attempt?_tidy]
  simp [h]

/-- The connection that a call waits for is kept. -/
theorem connection?_tidy (hcall : c.calls[k]? = some call) (h : call.phase.connection? = some g) :
    c.tidy.connection? g = c.connection? g := by
  refine connection?_tidy_of_keeps ?_
  have hcalls : c.disown.calls = c.calls := by
    unfold disown
    split <;> rfl
  have hany : c.calls.any (fun call => call.phase.connection? = some g) :=
    List.any_eq_true.mpr ⟨call, List.mem_of_getElem? hcall, by simp [h]⟩
  rw [keepsConnection, hcalls, hany, Bool.or_true]

theorem connection?_updateConnection (c : Client) (g : Nat) (f : Connection → Connection) :
    (c.updateConnection g f).connection? g = (c.connection? g).map f := by
  rw [connection?, updateConnection, attempt?_updateAttempt, if_pos rfl, connection?, Option.map_map,
    Option.map_map]
  rfl

/-- The turn of a stop that finds a session hands in a request and waits for the answer. -/
theorem poll_of_stop (hcall : c.calls[k]? = some call) (hop : call.operation = .stop)
    (hbegins : c.beginsTurn k) (hslot : c.slot = some g) {connection : Connection}
    (hconnection : c.connection? g = some connection) :
    ∃ lock : Lock, c.poll k =
      (({ c with lock, slot := none } : Client).updateConnection g fun _ =>
        (connection.request Method.shutdown .null (c.now + c.options.stopGrace)).1).setPhase k
          (.stopping g connection.nextId) := by
  obtain ⟨-, -, lock, -, hpoll⟩ := poll_of_beginsTurn hcall hbegins
  have hconnection' : ({ c with lock, slot := none } : Client).connection? g = some connection :=
    hconnection
  refine ⟨lock, ?_⟩
  rw [hpoll, hop]
  simp only [beginTurn, stopLocked, hslot, send, hconnection']
  rfl

/-- **A stop that begins its turn asks the server of the session to shut down.** -/
theorem stop_begins (hnumbered : c.IsNumbered) (howns : c.course.Owns)
    (hcall : c.calls[k]? = some call) (hop : call.operation = .stop) (hbegins : c.beginsTurn k)
    (hslot : c.slot = some g) {connection : Connection}
    (hconnection : c.connection? g = some connection) :
    (c.step (.poll k)).calls[k]? = some { call with phase := .stopping g connection.nextId } ∧
      (c.step (.poll k)).IsBeingStopped g (.stopping g connection.nextId) ∧
      (c.step (.poll k)).connection? g =
        some (connection.request Method.shutdown .null (c.now + c.options.stopGrace)).1 ∧
      (c.step (.poll k)).options = c.options := by
  obtain ⟨lock, hturn⟩ := poll_of_stop hcall hop hbegins hslot hconnection
  set asked := (connection.request Method.shutdown .null (c.now + c.options.stopGrace)).1 with hasked
  set sent := ({ c with lock, slot := none } : Client).updateConnection g fun _ => asked with hsent
  set d := sent.setPhase k (.stopping g connection.nextId) with hd
  -- The request goes out with the deadline of the grace, and the call waits for its reply.
  have hself : d.calls[k]? = some { call with phase := .stopping g connection.nextId } := by
    refine Life.getElem?_setPhase_self (l := sent.life) ?_ _
    change sent.calls[k]? = some call
    rw [hsent, updateConnection, updateAttempt]
    split <;> exact hcall
  have hconnected : d.connection? g = some asked := by
    change sent.connection? g = some asked
    rw [hsent, connection?_updateConnection]
    exact congrArg (Option.map fun _ => asked) hconnection
  have hclock : d.now = c.now ∧ d.options = c.options := by
    rw [hd, setPhase, hsent, updateConnection, updateAttempt]
    split <;> exact ⟨rfl, rfl⟩
  have hstopping : d.IsBeingStopped g (.stopping g connection.nextId) := by
    have hcourse : d.course = c.course.letGo := course_updateConnection _ g _
    refine ⟨congrArg Course.slot hcourse, .inl ⟨rfl, ?_, ?_⟩⟩
    -- The deadline counts from now on, so the grace is not over.
    · obtain ⟨e, he, hwaiting, hdeadline⟩ := Connection.exchange?_request
        (link_of_connection? hconnection ▸ hnumbered g) Method.shutdown .null
        (c.now + c.options.stopGrace)
      refine ⟨e.caller, ?_, hwaiting, ?_⟩
      · rw [caller?, link_of_connection? hconnected, he, Option.map_some]
      · rw [hclock.1, hclock.2]
        exact Nat.le_of_eq hdeadline
    · exact (congrArg Course.status hcourse).trans (howns g hslot).1
  rw [step, act, hturn]
  refine ⟨by rw [tidy_calls, hself], isBeingStopped_tidy hstopping, ?_,
    (onlyTimePasses_tidy d).options.trans hclock.2⟩
  rw [connection?_tidy hself rfl]
  exact hconnected

end Client
end LanguageClient
