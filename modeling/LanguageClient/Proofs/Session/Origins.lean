import LanguageClient.Proofs.Session.Endings

/-!
# Where sessions come from

A session is owned because a call has started it, and a call starts a session because it has
launched a server for it.  So where nothing is launched, nothing comes to be owned that is not being
started already.  This holds in every order of events, also when turns are dropped.

* `Course.Derives` — every part of a turn brings a session only from its own start or a launch.
* `Life.HasStart` — a call is starting the session of a generation.
* **`Life.derives_step`**, **`Life.derives_droppingStep`** — every step does so.
* `Client.launches_step` — which calls launch servers.
-/

namespace LanguageClient

/-! ### Phases without a start -/

namespace Phase

variable {phase : Phase} {g : Nat}

theorem startOf?_of_stopOf? (h : phase.stopOf? = some g) : phase.startOf? = none := by
  cases hstart : phase.startOf? with
  | none => rfl
  | some n =>
      rw [stopOf?_of_startOf? hstart] at h
      cases h

theorem startOf?_of_not_isTurn (h : phase.isTurn = false) : phase.startOf? = none := by
  cases hstart : phase.startOf? with
  | none => rfl
  | some n =>
      rw [isTurn_of_startOf? hstart] at h
      cases h

end Phase

/-! ### Parts of a turn -/

namespace Course

/-- A session comes to be owned only from the start that goes on, and a start begins only with a
launch. -/
structure Derives (s : Course) (start? : Option Nat) (t : Course) (next : Next) : Prop where
  slot : ∀ n, t.slot = some n → s.slot = some n ∨ start? = some n
  start : ∀ (phase : Phase) (n : Nat), next = .waits phase → phase.startOf? = some n →
    start? = some n ∨ t.launches = s.launches ++ [n] ∧ n = s.generation + 1

variable {s t : Course} {g : Nat} {next : Next} {operation : Operation} {start? : Option Nat}

/-- A turn that is over, or goes on with a stop, starts nothing. -/
theorem derives_of_no_start (hslot : ∀ n, t.slot = some n → s.slot = some n ∨ start? = some n)
    (hnext : ∀ phase, next = .waits phase → phase.startOf? = none) : s.Derives start? t next where
  slot := hslot
  start phase n heq hphase := by
    rw [hnext phase heq] at hphase
    cases hphase

theorem derives_opens (h : s.Opens t next) : s.Derives none t next := by
  cases h with
  | reuse g h => exact derives_of_no_start (fun _ => .inl) (by simp)
  | launch h =>
      refine ⟨fun _ => .inl, ?_⟩
      intro phase n heq hphase
      injection heq with heq
      subst heq
      injection hphase with hphase
      subst hphase
      exact .inr ⟨rfl, rfl⟩

theorem derives_begins (h : s.Begins operation t next) : s.Derives none t next := by
  cases h with
  | starts hop h => exact derives_opens h
  | takes g phase hop h hphase =>
      refine derives_of_no_start (by simp [letGo]) ?_
      intro phase' heq
      injection heq with heq
      exact heq ▸ Phase.startOf?_of_stopOf? hphase
  | idle hop h => exact derives_of_no_start (fun _ => .inl) (by simp)
  | restarts hop hstop h hopens => exact derives_opens hopens

theorem derives_starts (h : s.Starts g t next) : s.Derives (some g) t next := by
  cases h with
  | waits phase h =>
      refine ⟨fun _ => .inl, ?_⟩
      intro phase' n heq hphase
      injection heq with heq
      subst heq
      exact .inl (h.symm.trans hphase)
  | ready => exact derives_of_no_start (fun _ => .inr) (by simp)
  | failed error => exact derives_of_no_start (fun _ => .inl) (by simp)

theorem derives_stops (h : s.Stops operation g t next) : s.Derives none t next := by
  cases h with
  | waits phase h =>
      refine derives_of_no_start (fun _ => .inl) ?_
      intro phase' heq
      injection heq with heq
      exact heq ▸ Phase.startOf?_of_stopOf? h
  | stopped hop => exact derives_of_no_start (fun _ => .inl) (by simp)
  | restarts hop h =>
      have hopens : (s.publish g .stopped).Derives none t next := derives_opens h
      exact ⟨hopens.slot, hopens.start⟩

end Course

/-! ### Steps -/

namespace Life

variable {l m r : Life} {k n : Nat} {call : Call}

/-- A call is starting the session of a generation. -/
def HasStart (l : Life) (n : Nat) : Prop :=
  ∃ (k : Nat) (call : Call), l.calls[k]? = some call ∧ call.phase.startOf? = some n

/-- A session comes to be owned only from its start, and a start begins only with a launch. -/
structure Derives (l m : Life) : Prop where
  slot : ∀ n, m.course.slot = some n → l.course.slot = some n ∨ l.HasStart n
  start : ∀ n, m.HasStart n → l.HasStart n ∨
    m.course.launches = l.course.launches ++ [n] ∧ n = l.course.generation + 1

theorem hasStart_setPhase {phase : Phase} (hphase : phase.startOf? = none)
    (h : (l.setPhase k phase).HasStart n) : l.HasStart n := by
  obtain ⟨i, other, hother, hstart⟩ := h
  rw [getElem?_setPhase] at hother
  split at hother
  · obtain ⟨before, -, rfl⟩ := Option.map_eq_some_iff.mp hother
    rw [show ({ before with phase } : Call).phase.startOf? = none from hphase] at hstart
    cases hstart
  · exact ⟨i, other, hother, hstart⟩

/-- Changes to calls begin no start. -/
theorem hasStart_of_callChange (h : l.CallChange m) (hm : m.HasStart n) : l.HasStart n := by
  have hout : ∀ phase : Phase, phase.isInLine = false → phase.startOf? = none :=
    fun phase hphase => Phase.startOf?_of_not_isTurn (not_isTurn_of_isInLine hphase)
  cases h with
  | enter operation hheld =>
      obtain ⟨i, other, hother, hstart⟩ := hm
      rw [List.getElem?_append] at hother
      split at hother
      · exact ⟨i, other, hother, hstart⟩
      · obtain ⟨-, rfl⟩ := by simpa [List.getElem?_singleton] using hother
        cases hstart
  | shift k call phase hcall hline hover hphase hheld =>
      exact hasStart_setPhase (hout phase hphase) hm
  | ask k call phase hcall hline hover hphase hheld =>
      refine hasStart_setPhase (l := { l with lock := l.lock.acquire k }) ?_ hm
      rcases hphase with rfl | ⟨rfl, -⟩ <;> rfl
  | quit k call phase hcall hwaits hphase hheld =>
      exact hasStart_setPhase (l := { l with lock := l.lock.leave k }) (hout phase hphase) hm
  | release => exact hm

theorem hasStart_of_callChanges (h : Relation.ReflTransGen CallChange l m) (hm : m.HasStart n) :
    l.HasStart n := by
  induction h with
  | refl => exact hm
  | tail _ hlast ih => exact ih (hasStart_of_callChange hlast hm)

theorem hasStart_proceed {t : Course} {operation : Operation} {next : Next}
    (h : ({ l with course := t }.proceed k operation next).HasStart n) :
    l.HasStart n ∨ ∃ phase, next = .waits phase ∧ phase.startOf? = some n := by
  cases next with
  | ends outcome =>
      exact .inl (hasStart_setPhase (l := { l with course := t, lock := l.lock.leave k }) rfl h)
  | waits phase =>
      cases hphase : phase.startOf? with
      | none => exact .inl (hasStart_setPhase (l := { l with course := t }) hphase h)
      | some g =>
          obtain ⟨i, other, hother, hstart⟩ := h
          have hother' : (l.setPhase k phase).calls[i]? = some other := hother
          rw [getElem?_setPhase] at hother'
          split at hother'
          · obtain ⟨before, -, rfl⟩ := Option.map_eq_some_iff.mp hother'
            exact .inr ⟨phase, rfl, hstart⟩
          · exact .inl ⟨i, other, hother', hstart⟩

/-- What holds of the part of a turn holds of the life. -/
theorem derives_proceed {t : Course} {operation : Operation} {next : Next} {start? : Option Nat}
    (h : l.course.Derives start? t next) (hstart : ∀ n, start? = some n → l.HasStart n) :
    l.Derives ({ l with course := t }.proceed k operation next) where
  slot n hslot := by
    rw [course_proceed] at hslot
    exact (h.slot n hslot).imp_right (hstart n)
  start n hm := by
    rw [course_proceed]
    rcases hasStart_proceed hm with hl | ⟨phase, hnext, hphase⟩
    · exact .inl hl
    · exact (h.start phase n hnext hphase).imp_left (hstart n)

theorem derives_turn (h : l.Turn k m) : l.Derives m := by
  cases h with
  | begins call t next hcall hphase hholder hbegins =>
      exact derives_proceed (Course.derives_begins hbegins) (by simp)
  | starts call g t next hcall hphase hstarts =>
      refine derives_proceed (Course.derives_starts hstarts) ?_
      intro n hn
      injection hn with hn
      exact ⟨k, call, hcall, hn ▸ hphase⟩
  | stops call g t next hcall hphase hstops =>
      exact derives_proceed (Course.derives_stops hstops) (by simp)

/-- Calls that start nothing new, and a session that is let go at most. -/
theorem derives_of_same (hslot : ∀ n, m.course.slot = some n → l.course.slot = some n)
    (hstart : ∀ n, m.HasStart n → l.HasStart n) : l.Derives m :=
  ⟨fun n h => .inl (hslot n h), fun n h => .inl (hstart n h)⟩

theorem derives_sessionChange (h : l.SessionChange m) : l.Derives m := by
  cases h with
  | turn k hturn => exact derives_turn hturn
  | lose g hslot => exact derives_of_same (by simp [Course.publish, Course.letGo]) fun _ => id

theorem derives_tidy (h : l.Derives m) : l.Derives m.tidy := by
  unfold tidy
  split
  · exact h
  · exact ⟨by simp [Course.letGo], h.start⟩

/-- **Every step brings a session only from its start, and a start only from a launch.** -/
theorem derives_step (h : l.Step m) : l.Derives m := by
  obtain ⟨l₂, ⟨l₁, hchanges, hend⟩, rfl⟩ := h
  have hcourse := (callChanges_keep hchanges).1
  have hmoves : l₁.Derives l₂ := by
    rcases hend with rfl | hchange
    · exact derives_of_same (fun _ => id) fun _ => id
    · exact derives_sessionChange hchange
  refine derives_tidy ⟨?_, ?_⟩
  · intro n hslot
    rw [← hcourse]
    exact (hmoves.slot n hslot).imp_right (hasStart_of_callChanges hchanges)
  · intro n hstart
    rw [← hcourse]
    exact (hmoves.start n hstart).imp_left (hasStart_of_callChanges hchanges)

theorem derives_droppingStep (h : l.DroppingStep m) : l.Derives m := by
  obtain ⟨l₁, ⟨k, call, -, -, rfl⟩, rfl⟩ := h
  exact derives_tidy (derives_of_same (fun _ => id)
    fun _ => hasStart_setPhase (l := { l with lock := l.lock.leave k }) rfl)

end Life

/-! ### Events -/

/-- Whether an operation may launch a server. -/
def Operation.mayLaunch : Operation → Bool
  | stop => false
  | operation => operation.asksTurn

namespace Client

variable {c : Client} {k : Nat} {call : Call}

theorem derives_event (h : c.life.Orderly) (event : Event) :
    c.life.Derives (c.step event).life := by
  cases hdrops : c.dropsTurn event with
  | false => exact Life.derives_step (life_step h hdrops)
  | true => exact Life.derives_droppingStep (life_droppingStep hdrops)

/-- A call that may not launch anything goes on without a launch. -/
theorem launches_goOn (h : c.life.Orderly) (hf : c.Fitting) (hcall : c.calls[k]? = some call)
    (hcan : c.canGoOn k call.phase) (hop : call.operation.mayLaunch = false) :
    (c.goOn k call.operation call.phase).launches = c.launches := by
  have hfit := hf k call hcall
  have hlaunches : ∀ {d : Client}, d.course.launches = c.course.launches →
      d.launches = c.launches := id
  by_cases hstop : call.operation = .stop
  · rcases goOn_of_takesTurn hfit (by rw [hstop]; rfl) (fun ht => (h.turn k call hcall ht).1)
      hcan with ⟨lock, hgo⟩ | ⟨lock, part, -, hpart, hgo, hadvances⟩
    · rw [hgo]
      rfl
    · have hlife := life_proceed hpart (c := { c with lock }) hcall
      rw [hstop] at hadvances
      rw [hgo]
      refine hlaunches ?_
      have hcourse := congrArg Life.course hlife
      rw [Life.course_proceed] at hcourse
      exact (congrArg Course.launches hcourse).trans (Course.launches_of_stop hadvances)
  · have hasks : call.operation.asksTurn = false := by
      cases hoperation : call.operation <;> simp_all [Operation.mayLaunch]
    exact hlaunches (congrArg Course.launches (staysOutside_goOn hfit hasks c k).1)

/-- A pump launches nothing, also when it reports that a session is lost. -/
theorem launches_pump (c : Client) (g : Nat) : (c.pump g).launches = c.launches := by
  rcases course_pump c g with hcourse | ⟨-, hcourse⟩ <;> exact congrArg Course.launches hcourse

/-- An event other than a poll launches nothing. -/
theorem launches_act {event : Event} (hpoll : ∀ k, event ≠ .poll k) :
    (c.act event).launches = c.launches := by
  have hlife : ∀ d : Client, d.life = c.life → d.launches = c.launches :=
    fun d hd => congrArg (fun l : Life => l.course.launches) hd
  cases event with
  | advance span => rfl
  | invoke operation =>
      rw [act, invoke]
      split <;> rfl
  | poll k => exact absurd rfl (hpoll k)
  | cancel k =>
      rcases cancel_cases c k with ⟨hsame, -⟩ | ⟨call, -, hcall, hover, -⟩
      · exact hlife _ (congrArg life hsame)
      · exact congrArg (fun l : Life => l.course.launches) (life_cancel hcall hover)
  | launchFailed g error => exact hlife _ (life_updateAttempt c g _)
  | launchSucceeded g taken process => exact hlife _ (life_updateAttempt c g _)
  | processEnded g => exact hlife _ (life_updateAttempt c g _)
  | connection g action => exact hlife _ (life_moveConnection c g action)
  | complaint line => exact hlife _ (life_of_workspaceEffect (workspaceEffect_say _) c)
  | pump g => exact launches_pump c g
  | onReady hook => exact hlife _ (life_of_workspaceEffect (workspaceEffect_onReady hook) c)
  | relayNotification g message => exact hlife _ (life_act_relayNotification c g message)
  | release => rfl

/-- **Only the poll of a start, a restart, an activation or a command launches a server.** -/
theorem launches_step (h : c.life.Orderly) (hf : c.Fitting) (event : Event) :
    (c.step event).launches = c.launches ∨ ∃ (k : Nat) (call : Call), event = .poll k ∧
      c.calls[k]? = some call ∧ c.canGoOn k call.phase ∧ call.operation.mayLaunch := by
  have hstep : (c.step event).launches = (c.act event).launches := by
    simp [launches, step]
  rw [hstep]
  by_cases hpoll : ∃ k, event = .poll k
  · obtain ⟨k, rfl⟩ := hpoll
    cases hcall : c.calls[k]? with
    | none => exact .inl (by simp [act, poll, hcall])
    | some call =>
        have hgo : c.act (.poll k) = _ := poll_eq hcall
        by_cases hcan : c.canGoOn k call.phase
        · rw [if_pos hcan] at hgo
          rw [hgo]
          cases hop : call.operation.mayLaunch with
          | true => exact .inr ⟨k, call, rfl, hcall, hcan, hop⟩
          | false => exact .inl (launches_goOn h hf hcall hcan hop)
        · rw [if_neg hcan] at hgo
          rw [hgo]
          exact .inl rfl
  · exact .inl (launches_act fun k hk => hpoll ⟨k, hk⟩)

end Client
end LanguageClient
