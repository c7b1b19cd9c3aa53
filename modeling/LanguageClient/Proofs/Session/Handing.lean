import LanguageClient.Proofs.Client.Links
import LanguageClient.Proofs.Session.Commute

/-!
# Sessions are handed out while they are ready

A call can come to a session in three ways: it starts one, it finds one that is ready when its turn
begins, or it waits for one.  In each of them the session is published as ready when the call ends
with it.

* `Client.EntersPhase` — a call comes to another phase, ends with a session only if that is ready, and
  waits only for a reply that has not come.
* `Client.entersPhase_beginCall`, `Client.entersPhase_part` — the beginning of a call, and its turn.
* **`Client.outcome?_step`** — an event ends a call with a session only if that is ready after it.
-/

namespace LanguageClient

namespace Client

variable {c d : Client} {k g : Nat} {call : Call}

/-! ### Handing out a session -/

/-- A call comes to a phase in which it has begun; it ends with a session only if that is ready, and
when it waits for the reply to a request, that has no result yet. -/
def EntersPhase (c : Client) (k : Nat) (d : Client) : Prop :=
  ∃ phase : Phase, d.calls = (c.setPhase k phase).calls ∧ phase ≠ .fresh ∧
    (∀ g, phase = .finished (.session g) → d.status = ⟨g, .ready⟩) ∧
    ∀ g id goal, phase = .awaiting g id goal → c.IsNumbered → (d.link g).untaken? id = none

theorem entersPhase_of_life (phase : Phase) (h : d.life = c.life.setPhase k phase)
    (hphase : phase ≠ .fresh ∧ (∀ g, phase ≠ .finished (.session g)) ∧
      ∀ g id goal, phase ≠ .awaiting g id goal) : c.EntersPhase k d :=
  ⟨phase, congrArg Life.calls h, hphase.1, fun g hg => absurd hg (hphase.2.1 g),
    fun g id goal hawaits => absurd hawaits (hphase.2.2 g id goal)⟩

/-- What a call comes to does not depend on what happens before to its attempts. -/
theorem entersPhase_of_attemptsGoOn {c' : Client} (hgoOn : c.AttemptsGoOn c')
    (hsame : c'.calls = c.calls) (h : c'.EntersPhase k d) : c.EntersPhase k d := by
  obtain ⟨phase, hcalls, hbegun, hready, hawaits⟩ := h
  refine ⟨phase, ?_, hbegun, hready, fun g id goal hphase hnumbered => ?_⟩
  · simp only [setPhase, hsame] at hcalls
    exact hcalls
  · exact hawaits g id goal hphase (isNumbered_attemptsGoOn hgoOn hnumbered)

theorem entersPhase_finishCommand (c : Client) (k : Nat) (result : Except CommandError Unit) :
    c.EntersPhase k (c.finishCommand k result) :=
  entersPhase_of_life _ (life_finishCommand c k result) (by simp)

theorem entersPhase_finish (c : Client) (k : Nat) {outcome : Outcome}
    (houtcome : ∀ g, outcome ≠ .session g) : c.EntersPhase k (c.finish k outcome) :=
  entersPhase_of_life _ (life_finish c k outcome) (by simpa using houtcome)

theorem status_of_session? (howns : c.course.Owns) (h : c.session? = some g) :
    c.status = ⟨g, .ready⟩ := by
  rw [session?_eq_course, Course.session?_of_owns howns] at h
  exact (howns g h).1

theorem entersPhase_look (howns : c.course.Owns) (k : Nat) : c.EntersPhase k (c.look k) := by
  unfold look
  split
  · rename_i g _ hsession
    refine ⟨_, rfl, nofun, ?_, nofun⟩
    intro g' hg'
    cases hg'
    exact status_of_session? howns hsession
  · exact entersPhase_of_life _ (life_setPhase c k _) (by simp)
  · exact entersPhase_of_life _ (life_setPhase c k _) (by simp)
  · split
    · exact entersPhase_finish c k (by simp)
    · exact ⟨.peeking, rfl, by simp⟩

theorem entersPhase_concludeShow (c : Client) (k : Nat) (source : String)
    (result : Except SessionError (Option String)) :
    c.EntersPhase k (c.concludeShow k source result) := by
  unfold concludeShow
  split
  · refine entersPhase_of_life (.finished (.command (.ok ()))) ?_ (by simp)
    dsimp only
    rw [life_finishCommand]
    split <;> simp only [life_of_workspaceEffect (workspaceEffect_say _)]
  · split <;> exact entersPhase_finish c k (by simp)

theorem entersPhase_concludeDoctor (c : Client) (k : Nat) (reply : Except SessionError Json) :
    c.EntersPhase k (c.concludeDoctor k reply) := by
  unfold concludeDoctor
  split
  · exact entersPhase_finishCommand c k _
  · exact entersPhase_finish c k (by simp)
  · refine entersPhase_of_life (.finished (.command (.ok ()))) ?_ (by simp)
    rw [life_finishCommand, life_of_workspaceEffect (workspaceEffect_say _)]

theorem entersPhase_useReply (c : Client) (k : Nat) (reply : Except SessionError Json)
    (goal : RequestGoal) : c.EntersPhase k (c.useReply k reply goal) := by
  cases goal with
  | relay => cases reply <;> exact entersPhase_finish c k (by simp)
  | read shape =>
      cases reply with
      | error e => exact entersPhase_finish c k (by simp)
      | ok value =>
          dsimp only [useReply]
          cases shape.read? value <;> exact entersPhase_finish c k (by simp)
  | virtualFile source =>
      exact entersPhase_of_attemptsGoOn (attemptsGoOn_of_attempts (attempts_showFile c source reply))
        (congrArg Life.calls (life_showFile c source reply)) (entersPhase_concludeShow _ k source _)
  | doctor => exact entersPhase_concludeDoctor c k reply

theorem entersPhase_ask (c : Client) (k g : Nat) (method : String) (params : Json)
    (goal : RequestGoal) : c.EntersPhase k (c.ask k g method params goal) := by
  let span := c.options.requestTimeout
  have hcalls : (c.send g method params span).1.calls = c.calls :=
    congrArg Life.calls (life_send c g method params span)
  refine ⟨.awaiting g (c.send g method params span).2 goal, ?_, nofun, nofun, ?_⟩
  · simp only [ask, setPhase, hcalls, span]
  · intro g' id goal' hawaits hnumbered
    cases hawaits
    exact untaken?_send hnumbered g method params span

theorem entersPhase_askSession (c : Client) (k : Nat) (method : String) (params : Json)
    (goal : RequestGoal) : c.EntersPhase k (c.askSession k method params goal) := by
  unfold askSession
  split
  · exact entersPhase_ask c k _ method params goal
  · exact entersPhase_useReply c k _ goal

/-! ### Turns that end with a session -/

theorem ready_of_opens {s t : Course} (hs : s.Owns) (h : s.Opens t (.ends (.session g))) :
    t.status = ⟨g, .ready⟩ := by
  cases h with
  | reuse _ h =>
      rw [Course.session?_of_owns hs] at h
      exact (hs g h).1

theorem ready_of_starts {s t : Course} {n : Nat} (h : s.Starts n t (.ends (.session g))) :
    t.status = ⟨g, .ready⟩ := by
  cases h with
  | ready => exact Course.status_ready s g

theorem ready_of_stops {s t : Course} {n : Nat} {operation : Operation} (hs : s.slot = none)
    (h : s.Stops operation n t (.ends (.session g))) : t.status = ⟨g, .ready⟩ := by
  cases h with
  | restarts hop h => exact ready_of_opens (Course.owns_of_empty (s := s.publish n .stopped) hs) h

theorem ready_of_begins {s t : Course} {operation : Operation} (hs : s.Owns)
    (h : s.Begins operation t (.ends (.session g))) : t.status = ⟨g, .ready⟩ := by
  cases h with
  | starts hop h => exact ready_of_opens hs h
  | restarts hop hstop hslot h => exact ready_of_opens hs h

/-- What comes next in a turn hands out no session but one that is ready. -/
theorem entersPhase_proceed {part : Client → Client × Next} (hpart : IsLocal part)
    (hcall : c.calls[k]? = some call)
    (hready : ∀ g, (part c).2 = .ends (.session g) → (part c).1.course.status = ⟨g, .ready⟩)
    (hfits : (part c).1.course.MatchesNext (part c).2) : c.EntersPhase k (proceed k (part c)) := by
  have hlife := life_proceed hpart hcall
  cases hnext : (part c).2 with
  | waits phase =>
      rw [hnext] at hlife
      have hturn := (hfits.waits phase hnext).turn
      refine ⟨phase, congrArg Life.calls hlife, ?_, ?_, ?_⟩
      · rintro rfl
        cases hturn
      · rintro g rfl
        cases hturn
      · rintro g id goal rfl
        cases hturn
  | ends outcome =>
      rw [hnext] at hlife
      refine ⟨.finished (call.operation.concluded outcome), congrArg Life.calls hlife,
        nofun, ?_, nofun⟩
      intro g hg
      have houtcome : outcome = .session g := by
        cases hop : call.operation <;> simp_all [Operation.concluded]
      have hstatus := hready g (by rw [hnext, houtcome])
      have hcourse := congrArg (fun l : Life => l.course.status) hlife
      exact hcourse.trans hstatus

theorem entersPhase_beginTurn (howns : c.course.Owns) (hcall : c.calls[k]? = some call)
    (operation : Operation) : c.EntersPhase k (proceed k (c.beginTurn operation)) := by
  have hbegins := begins_beginTurn c operation
  refine entersPhase_proceed (local_beginTurn operation) hcall ?_
    (Course.matchesNext_begins howns hbegins)
  intro g hg
  rw [hg] at hbegins
  exact ready_of_begins howns hbegins

theorem entersPhase_askTurn (howns : c.course.Owns) (hcall : c.calls[k]? = some call)
    (operation : Operation) : c.EntersPhase k (c.askTurn k operation) := by
  unfold askTurn
  dsimp only
  split
  · exact entersPhase_beginTurn (c := { c with lock := c.lock.acquire k }) howns hcall operation
  · exact ⟨.queued, rfl, by simp⟩

theorem entersPhase_of_workspaceEffect {f : Client → Client} (hf : WorkspaceEffect f)
    (h : (f c).EntersPhase k d) :
    c.EntersPhase k d :=
      entersPhase_of_attemptsGoOn (attemptsGoOn_workspaceEffect hf c) (hf.calls c) h

theorem entersPhase_runAbout (c : Client) (k : Nat) (id : String) (args : List Json) (hint : String)
    {run : String → Client} (hrun : ∀ subject, c.EntersPhase k (run subject)) :
    c.EntersPhase k (c.runAbout k id args hint run) := by
  unfold runAbout
  split
  · exact entersPhase_of_workspaceEffect (workspaceEffect_say _) (entersPhase_finishCommand _ k _)
  · split
    · exact hrun _
    · exact entersPhase_finishCommand c k _

theorem entersPhase_runCommand (howns : c.course.Owns) (hcall : c.calls[k]? = some call) (id : String)
    (args : List Json) (action : CommandAction) :
    c.EntersPhase k (c.runCommand k id args action) := by
  cases action with
  | openSnippetFolder =>
      simp only [runCommand]
      split
      · exact entersPhase_finishCommand c k _
      · exact entersPhase_of_workspaceEffect (workspaceEffect_say _) (entersPhase_finishCommand _ k _)
  | restartServer =>
      simp only [runCommand]
      split
      · have heffect := workspaceEffect_beginProgress k restartTitle
        refine entersPhase_of_workspaceEffect heffect
          (entersPhase_askTurn ?_ (by rwa [heffect.calls]) .restart)
        rwa [course_of_workspaceEffect heffect]
      · exact entersPhase_finishCommand c k _
  | showOutput =>
      exact entersPhase_of_workspaceEffect (workspaceEffect_say _) (entersPhase_finishCommand _ k _)
  | showVirtualFile =>
      exact entersPhase_runAbout c k id args _ fun _ => entersPhase_askSession c k _ _ _
  | showDoctor => exact entersPhase_runAbout c k id args _ fun _ => entersPhase_askSession c k _ _ _

theorem entersPhase_beginCall (howns : c.course.Owns) (hcall : c.calls[k]? = some call) :
    c.EntersPhase k (c.beginCall k call.operation) := by
  cases call.operation with
  | start => exact entersPhase_askTurn howns hcall .start
  | stop => exact entersPhase_askTurn howns hcall .stop
  | restart => exact entersPhase_askTurn howns hcall .restart
  | activate =>
      have heffect := workspaceEffect_prepare k
      refine entersPhase_of_workspaceEffect heffect
        (entersPhase_askTurn ?_ (by rwa [heffect.calls]) .activate)
      rwa [course_of_workspaceEffect heffect]
  | ready => exact entersPhase_look howns k
  | request method params shape => exact entersPhase_askSession c k _ _ _
  | relay g method params =>
      simp only [beginCall]
      split
      · exact entersPhase_ask c k g _ _ _
      · exact entersPhase_finish c k (by simp)
  | showVirtualFile source => exact entersPhase_askSession c k _ _ _
  | command id args reported =>
      simp only [beginCall]
      split
      · exact entersPhase_runCommand howns hcall id args _
      · exact entersPhase_finishCommand c k _

/-- The call that has its turn goes on with it. -/
theorem entersPhase_part (h : c.life.Orderly) (hcall : c.calls[k]? = some call)
    (hturn : call.phase.isTurn) : c.EntersPhase k (c.goOn k call.operation call.phase) := by
  obtain ⟨part, hpart, hgo⟩ := exists_isPart k call.operation hturn
  have hmatches := (h.turn k call hcall hturn).2
  rw [hgo]
  refine entersPhase_proceed hpart.isLocal hcall ?_ (matchesNext_part h hcall hturn hpart)
  intro g hg
  -- A start hands out its own session, and of the stops only a restart goes on to a start.
  rcases Phase.start_or_stop_of_isTurn hturn with ⟨n, hn⟩ | ⟨n, hn⟩
  · have hstarts := hpart.starts c n hn
    rw [hg] at hstarts
    exact ready_of_starts hstarts
  · have hstops := hpart.stops c n hn
    rw [hg] at hstops
    exact ready_of_stops hmatches.slot hstops

/-- A call that goes on comes to another phase, or stays where it is. -/
theorem entersPhase_goOn (h : c.life.Orderly) (hcall : c.calls[k]? = some call) :
    c.EntersPhase k (c.goOn k call.operation call.phase) ∨
      (c.goOn k call.operation call.phase).calls = c.calls := by
  by_cases hturn : call.phase.isTurn
  · exact .inl (entersPhase_part h hcall hturn)
  cases hphase : call.phase with
  | fresh => exact .inl (entersPhase_beginCall h.owns hcall)
  | queued => exact .inl (entersPhase_beginTurn h.owns hcall _)
  | watching seen => exact .inl (entersPhase_look h.owns k)
  | peeking => exact .inl (entersPhase_look (c := { c with lock := c.lock.leave k }) h.owns k)
  | awaiting g id goal =>
      simp only [goOn, afterReply]
      split
      · exact .inr rfl
      · rename_i c' reply hsettle
        exact .inl (entersPhase_of_attemptsGoOn (attemptsGoOn_settle? hsettle)
          (congrArg Life.calls (life_settle? hsettle)) (entersPhase_useReply c' k reply goal))
  | finished outcome => exact .inr rfl
  | dropped => exact .inr rfl
  | reaping g deadline error? =>
      exact absurd (by rw [hphase]; exact Phase.isTurn_reaping g deadline error?) hturn
  | _ => exact absurd (by rw [hphase]; rfl) hturn

/-! ### Outcomes -/

theorem outcome?_of_calls (h : d.calls = c.calls) (k : Nat) : d.outcome? k = c.outcome? k := by
  rw [outcome?, h, outcome?]

theorem outcome?_of_entersPhase {i : Nat} (h : c.EntersPhase i d)
    (houtcome : d.outcome? k = some (.session g)) :
    c.outcome? k = some (.session g) ∨ d.status = ⟨g, .ready⟩ := by
  obtain ⟨phase, hcalls, -, hphase, -⟩ := h
  have hd : d.outcome? k = (c.setPhase i phase).outcome? k := outcome?_of_calls hcalls k
  rw [hd, outcome?] at houtcome
  by_cases hk : i = k
  · subst hk
    right
    cases hcall : c.calls[i]? with
    | none => simp [setPhase, hcall] at houtcome
    | some call =>
        refine hphase g ?_
        cases phase <;> simp_all [setPhase]
  · left
    rw [outcome?]
    simpa [setPhase, hk] using houtcome

/-- An event ends a call with a session only if that is ready after the event. -/
theorem outcome?_step (h : c.life.Orderly) (event : Event)
    (houtcome : (c.step event).outcome? k = some (.session g)) :
    c.outcome? k = some (.session g) ∨ (c.step event).status = ⟨g, .ready⟩ := by
  have hstatus : (c.step event).status = (c.act event).status := by
    simp [status, published, step]
  have hact : (c.step event).outcome? k = (c.act event).outcome? k :=
    outcome?_of_calls (tidy_calls _) k
  rw [hact] at houtcome
  rw [hstatus]
  -- Most events leave the calls as they are; then the call had ended before.
  have hsame : (c.act event).calls = c.calls → c.outcome? k = some (.session g) := by
    intro hcalls
    rwa [← outcome?_of_calls hcalls k]
  cases hbeside : event.isBeside with
  | true =>
      left
      refine hsame ?_
      rw [eq_amid_of_beside (isBeside_act hbeside) c]
      rfl
  | false =>
      cases event with
      | invoke operation =>
          left
          rw [act, invoke] at houtcome
          split at houtcome
          · rw [outcome?] at houtcome ⊢
            by_cases hk : k < c.calls.length
            · rwa [List.getElem?_append_left hk] at houtcome
            · rw [List.getElem?_append_right (Nat.le_of_not_lt hk), List.getElem?_singleton]
                at houtcome
              split at houtcome <;> simp_all
          · exact houtcome
      | poll i =>
          rw [act, poll] at houtcome ⊢
          split at houtcome
          · rename_i call hcall
            split at houtcome
            · rename_i hcan
              rw [if_pos hcan]
              rcases entersPhase_goOn h hcall with henters | hcalls
              · exact outcome?_of_entersPhase henters houtcome
              · left
                rwa [← outcome?_of_calls hcalls k]
            · exact .inl houtcome
          · exact .inl houtcome
      | cancel i =>
          rcases cancel_cases c i with ⟨hnothing, -⟩ | ⟨call, -, hcall, hover, -⟩
          · exact .inl (hsame (congrArg calls hnothing))
          · have hcalls := congrArg Life.calls (life_cancel hcall hover)
            exact outcome?_of_entersPhase ⟨.dropped, hcalls, by simp⟩ houtcome
      | relayNotification g message =>
          exact .inl (hsame (congrArg Life.calls (life_act_relayNotification c g message)))
      | release => exact .inl (hsame rfl)
      | _ => cases hbeside

end Client
end LanguageClient
