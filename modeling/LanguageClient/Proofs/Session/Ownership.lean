import LanguageClient.Proofs.Session.LifeStep

/-!
# At most one session

Whether a server may be launched is decided from the status and the slot, which starts, stops and
lost connections change in different steps.  In every order of events, and with any callers that
go away, the slot holds the latest session or none, and a launch finds it empty.

* `Course.Launches` — a server is asked for while no session is owned.
* `Course.FillsEmpty` — a session comes only into an empty slot.
* `Life.step_launches` — a step launches at most one server, while no start is under way, and fills
  only an empty slot.
* **`Client.owned_session_is_the_latest`** — both, with what is published of the session that is
  owned, for every event after any others.
-/

namespace LanguageClient

/-! ### Launches -/

namespace Course

/-- A server is asked for, for the next generation, while no session is owned. -/
structure Launches (s t : Course) : Prop where
  launches : t.launches = s.launches ++ [s.generation + 1]
  before : s.slot = none
  after : t.slot = none

/-- Nothing is launched, or one server is. -/
def LaunchesAtMost (s t : Course) : Prop := t.launches = s.launches ∨ s.Launches t

variable {s t : Course} {g : Nat} {next : Next}

theorem launches_opens (hs : s.Owns) (h : s.Opens t next) : s.LaunchesAtMost t := by
  cases h with
  | reuse g h => exact .inl rfl
  | launch h =>
      rw [session?_of_owns hs] at h
      exact .inr ⟨rfl, h, h⟩

theorem launches_starts (h : s.Starts g t next) : t.launches = s.launches := by
  cases h <;> rfl

theorem launches_stops {operation : Operation} (hs : s.IsStopping g)
    (h : s.Stops operation g t next) : s.LaunchesAtMost t := by
  cases h with
  | waits phase h => exact .inl rfl
  | stopped hop => exact .inl rfl
  | restarts hop h =>
      have hempty : (s.publish g .stopped).slot = none := hs.slot
      rcases launches_opens (owns_of_empty hempty) h with hsame | hlaunch
      · exact .inl hsame
      · exact .inr ⟨hlaunch.launches, hs.slot, hlaunch.after⟩

theorem launches_begins {operation : Operation} (hs : s.Owns) (h : s.Begins operation t next) :
    s.LaunchesAtMost t := by
  cases h with
  | starts hop h => exact launches_opens hs h
  | takes g phase hop h hphase => exact .inl rfl
  | idle hop h => exact .inl rfl
  | restarts hop hstop h hopens => exact launches_opens hs hopens

/-! ### The slot -/

/-- A session comes only into an empty slot. -/
def FillsEmpty (s t : Course) : Prop := ∀ g, t.slot = some g → s.slot = some g ∨ s.slot = none

theorem fillsEmpty_of_empty (h : s.slot = none) : s.FillsEmpty t := fun _ _ => .inr h

theorem fillsEmpty_of_same (h : t.slot = s.slot) : s.FillsEmpty t := fun _ hg => .inl (h ▸ hg)

theorem fillsEmpty_begins {operation : Operation} (h : s.Begins operation t next) :
    s.FillsEmpty t := by
  cases h with
  | starts hop h => cases h <;> exact fillsEmpty_of_same rfl
  | takes g phase hop h hphase => simp [FillsEmpty, letGo]
  | idle hop h => exact fillsEmpty_of_empty h
  | restarts hop hstop h hopens => exact fillsEmpty_of_empty h

end Course

/-! ### One step of the life -/

namespace Life

variable {l m : Life} {k : Nat} {call : Call}

/-- Nothing is being started. -/
def HasNoStart (l : Life) : Prop :=
  ∀ (k : Nat) (call : Call), l.calls[k]? = some call → call.phase.startOf? = none

/-- Changes to calls do not concern the sessions. -/
theorem course_callChange (h : l.CallChange m) : m.course = l.course := by
  cases h <;> rfl

/-- A call that has its turn or is over is left as it is. -/
theorem getElem?_callChange (h : l.CallChange m) (hcall : l.calls[k]? = some call)
    (hkept : call.phase.isTurn ∨ call.phase.isOver) : m.calls[k]? = some call := by
  have hne : ∀ (i : Nat) (other : Call), l.calls[i]? = some other → other.phase.isTurn = false →
      other.phase.isOver = false → i ≠ k := by
    intro i other hother hout hover hik
    rw [hik, hcall, Option.some.injEq] at hother
    rw [← hother] at hout hover
    rw [hout, hover] at hkept
    simp at hkept
  cases h with
  | enter operation hheld =>
      rw [List.getElem?_append_left (List.getElem?_eq_some_iff.mp hcall).1]
      exact hcall
  | shift i other phase hother hout hover hphase hheld =>
      rwa [getElem?_setPhase_ne l (hne i other hother (not_isTurn_of_isInLine hout) hover)]
  | ask i other phase hother hout hover hphase hheld =>
      have hi := hne i other hother (not_isTurn_of_isInLine hout) hover
      exact (getElem?_setPhase_ne _ hi phase).trans hcall
  | quit i other phase hother hwaits hphase hheld =>
      have hi : i ≠ k := by
        rcases hwaits with hwaits | hwaits <;>
          exact hne i other hother (by rw [hwaits]; rfl) (by rw [hwaits]; rfl)
      exact (getElem?_setPhase_ne _ hi phase).trans hcall
  | release => exact hcall

theorem callChanges_keep (h : Relation.ReflTransGen CallChange l m) :
    m.course = l.course ∧ ∀ (k : Nat) (call : Call), l.calls[k]? = some call →
      call.phase.isTurn ∨ call.phase.isOver → m.calls[k]? = some call := by
  induction h with
  | refl => exact ⟨rfl, fun _ _ hcall _ => hcall⟩
  | tail _ hlast ih =>
      obtain ⟨hcourse, hcalls⟩ := ih
      refine ⟨(course_callChange hlast).trans hcourse, ?_⟩
      intro k call hcall hkept
      exact getElem?_callChange hlast (hcalls k call hcall hkept) hkept

theorem hasNoStart_of_callChanges (h : Relation.ReflTransGen CallChange l m) (hm : m.HasNoStart) :
    l.HasNoStart := by
  intro k call hcall
  cases hstart : call.phase.startOf? with
  | none => rfl
  | some g =>
      have hkept := (callChanges_keep h).2 k call hcall (.inl (Phase.isTurn_of_startOf? hstart))
      rw [← hstart]
      exact hm k call hkept

theorem course_proceed (l : Life) (t : Course) (k : Nat) (operation : Operation) (next : Next) :
    ({ l with course := t }.proceed k operation next).course = t := by
  cases next <;> rfl

/-- The holder of the lock starts nothing, so nobody does. -/
theorem hasNoStart_of_holder? (h : l.Orderly) (hholder : l.lock.holder? = some k)
    (hcall : l.calls[k]? = some call) (hstart : call.phase.startOf? = none) : l.HasNoStart := by
  intro i other hother
  by_cases hi : i = k
  · rw [hi, hcall, Option.some.injEq] at hother
    rwa [← hother]
  · have hout := not_isTurn_of_holder? h hholder hi hother
    cases hother' : other.phase.startOf? with
    | none => rfl
    | some g =>
        rw [Phase.isTurn_of_startOf? hother'] at hout
        cases hout

/-- The call that has its turn launches at most one server, when nothing is being started, and
puts a session only into an empty slot. -/
theorem turn_launches (h : l.Orderly) (hm : l.Turn k m) :
    (m.course.launches = l.course.launches ∨ l.course.Launches m.course ∧ l.HasNoStart) ∧
      l.course.FillsEmpty m.course := by
  cases hm with
  | begins call t next hcall hphase hholder hbegins =>
      rw [course_proceed]
      refine ⟨?_, Course.fillsEmpty_begins hbegins⟩
      rcases Course.launches_begins h.owns hbegins with hsame | hlaunch
      · exact .inl hsame
      · exact .inr ⟨hlaunch, hasNoStart_of_holder? h hholder hcall (by rw [hphase]; rfl)⟩
  | starts call g t next hcall hphase hstarts =>
      obtain ⟨-, hmatches⟩ := h.turn k call hcall (Phase.isTurn_of_startOf? hphase)
      rw [course_proceed]
      exact ⟨.inl (Course.launches_starts hstarts), Course.fillsEmpty_of_empty hmatches.slot⟩
  | stops call g t next hcall hphase hstops =>
      obtain ⟨hholder, hmatches⟩ := h.turn k call hcall (Phase.isTurn_of_stopOf? hphase)
      rw [course_proceed]
      refine ⟨?_, Course.fillsEmpty_of_empty hmatches.slot⟩
      rcases Course.launches_stops (hmatches.stopping g hphase) hstops with hsame | hlaunch
      · exact .inl hsame
      · refine .inr ⟨hlaunch, hasNoStart_of_holder? h hholder hcall ?_⟩
        cases hstart : call.phase.startOf? with
        | none => rfl
        | some g' =>
            rw [Phase.stopOf?_of_startOf? hstart] at hphase
            cases hphase

theorem sessionChange_launches (h : l.Orderly) (hm : l.SessionChange m) :
    (m.course.launches = l.course.launches ∨ l.course.Launches m.course ∧ l.HasNoStart) ∧
      l.course.FillsEmpty m.course := by
  cases hm with
  | turn k hturn => exact turn_launches h hturn
  | lose g hslot => exact ⟨.inl rfl, by simp [Course.FillsEmpty, Course.publish, Course.letGo]⟩

/-- What a step does to the launches and to the slot. -/
theorem step_launches (h : l.Orderly) (hm : l.Step m) :
    (m.course.launches = l.course.launches ∨ l.course.Launches m.course ∧ l.HasNoStart) ∧
      l.course.FillsEmpty m.course := by
  obtain ⟨l₂, ⟨l₁, hchanges, hend⟩, rfl⟩ := hm
  have hcourse := (callChanges_keep hchanges).1
  -- Changes to calls come before, so the one that may concern the sessions meets the same sessions.
  have hkeep : (l₂.course.launches = l.course.launches ∨
      l.course.Launches l₂.course ∧ l.HasNoStart) ∧ l.course.FillsEmpty l₂.course := by
    rcases hend with rfl | hchange
    · rw [hcourse]
      exact ⟨.inl rfl, Course.fillsEmpty_of_same rfl⟩
    · obtain ⟨hlaunch, hfills⟩ := sessionChange_launches (orderly_callChanges h hchanges) hchange
      rw [hcourse] at hlaunch hfills
      exact ⟨hlaunch.imp_right (And.imp_right (hasNoStart_of_callChanges hchanges)), hfills⟩
  unfold tidy
  split
  · exact hkeep
  · refine ⟨hkeep.1.imp_right ?_, by simp [Course.FillsEmpty, Course.letGo]⟩
    rintro ⟨hlaunch, hstart⟩
    exact ⟨⟨hlaunch.launches, hlaunch.before, rfl⟩, hstart⟩

theorem droppingStep_launches (hm : l.DroppingStep m) :
    m.course.launches = l.course.launches ∧ l.course.FillsEmpty m.course := by
  obtain ⟨l₁, ⟨k, call, -, -, rfl⟩, rfl⟩ := hm
  unfold tidy
  split
  · exact ⟨rfl, Course.fillsEmpty_of_same rfl⟩
  · exact ⟨rfl, by simp [Course.FillsEmpty, Course.letGo]⟩

end Life

/-! ### Clients -/

namespace Client

/-- **At most one session.**  After any events the session that is owned is the latest one and is
published as ready; while a call starts a session or stops one, it has the lock, none is owned, and
its session is the latest one.  The next event launches at most one server, for the next
generation, while no session is owned and no start is under way; and it puts a session only into an
empty slot. -/
theorem owned_session_is_the_latest (options : SessionOptions) (processId : Nat)
    (workspace : Workspace) (events : List Event) (event : Event) :
    let c := (Client.new options processId workspace).run events
    let d := c.step event
    (∀ g, c.slot = some g → c.status = ⟨g, .ready⟩ ∧ g = c.generation) ∧
      (∀ (k : Nat) (call : Call) (g : Nat), c.calls[k]? = some call → call.phase.turnOf? = some g →
        c.lock.holder? = some k ∧ c.slot = none ∧ g = c.generation) ∧
      (d.launches = c.launches ∨
        d.launches = c.launches ++ [c.generation + 1] ∧ c.slot = none ∧ d.slot = none ∧
          (∀ (k : Nat) (call : Call), c.calls[k]? = some call → call.phase.startOf? = none) ∧
          ∀ (i j : Nat) (call other : Call), d.calls[i]? = some call → d.calls[j]? = some other →
            call.phase.startOf?.isSome → other.phase.startOf?.isSome → i = j) ∧
      ∀ g, d.slot = some g → c.slot = some g ∨ c.slot = none := by
  intro c d
  have hc : c.life.Orderly := orderly_reached options processId workspace events
  have hd : d.life.Orderly := orderly_step hc event
  refine ⟨hc.owns, ?_, ?_⟩
  · intro k call g hcall hphase
    obtain ⟨hholder, hmatches⟩ := hc.turn k call hcall (by rw [Phase.isTurn, hphase]; rfl)
    exact ⟨hholder, hmatches.slot, hmatches.generation hphase⟩
  -- An event that drops a turn launches nothing at all.
  have hkeep : (d.launches = c.launches ∨ c.course.Launches d.course ∧ c.life.HasNoStart) ∧
      c.course.FillsEmpty d.course := by
    cases hdrops : c.dropsTurn event with
    | false => exact Life.step_launches hc (life_step hc hdrops)
    | true =>
        obtain ⟨hsame, hfills⟩ := Life.droppingStep_launches (life_droppingStep hdrops)
        exact ⟨.inl hsame, hfills⟩
  obtain ⟨hlaunch, hfills⟩ := hkeep
  refine ⟨hlaunch.imp_right ?_, hfills⟩
  rintro ⟨hlaunches, hstart⟩
  refine ⟨hlaunches.launches, hlaunches.before, hlaunches.after, hstart, ?_⟩
  -- Both calls hold the lock.
  intro i j call other hcall hother hi hj
  have hturn : ∀ phase : Phase, phase.startOf?.isSome → phase.isTurn := by
    intro phase h
    obtain ⟨g, hg⟩ := Option.isSome_iff_exists.mp h
    exact Phase.isTurn_of_startOf? hg
  have hholder := (hd.turn i call hcall (hturn _ hi)).1
  rw [(hd.turn j other hother (hturn _ hj)).1, Option.some.injEq] at hholder
  exact hholder.symm

end Client

end LanguageClient
