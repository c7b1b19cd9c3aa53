import LanguageClient.Proofs.Session.Orderly

/-!
# Every event is a step of the life

* `Client.life_proceed` — the end of a part of a turn, seen in the life.
* `Client.life_useReply`, `Client.life_look`, `Client.moves_askTurn`, … — what the other parts of a
  call do to the life.
* **`Client.life_poll`** — a call that goes on makes changes to calls and at most one that may
  concern the sessions.
* **`Client.life_step`**, **`Client.life_droppingStep`** — every event is a `Life.Step`, unless it
  drops a turn; then it is a `Life.DroppingStep`.
* **`Client.orderly_reached`** — the life of a client is in order after any events.
-/

namespace LanguageClient
namespace Client

open Relation (ReflTransGen)

/-! ### What leaves the life alone -/

theorem life_of_workspaceEffect {f : Client → Client} (hf : WorkspaceEffect f) (c : Client) :
    (f c).life = c.life := by
  simp only [life, course_of_workspaceEffect hf, hf.lock, hf.calls, hf.released]

@[simp] theorem life_updateAttempt (c : Client) (g : Nat) (f : Attempt → Attempt) :
    (c.updateAttempt g f).life = c.life := by
  unfold life
  rw [course_updateAttempt]
  unfold updateAttempt
  split <;> rfl

@[simp] theorem life_updateConnection (c : Client) (g : Nat) (f : Connection → Connection) :
    (c.updateConnection g f).life = c.life := life_updateAttempt c g _

@[simp] theorem life_send (c : Client) (g : Nat) (method : String) (params : Json) (span : Nat) :
    (c.send g method params span).1.life = c.life := by
  unfold send
  cases c.connection? g with
  | none => rfl
  | some connection => exact life_updateConnection c g _

theorem life_notify? {c c' : Client} {g : Nat} {message : Notification}
    (h : c.notify? g message = some c') : c'.life = c.life := by
  obtain ⟨_, after, -, -, rfl⟩ := notify?_eq_some_iff.mp h
  exact life_updateConnection c g _

theorem life_settle? {c c' : Client} {g id : Nat} {outcome : Except SessionError Json}
    (h : c.settle? g id = some (c', outcome)) : c'.life = c.life := by
  obtain ⟨_, after, -, -, rfl⟩ := settle?_eq_some_iff.mp h
  exact life_updateConnection c g _

@[simp] theorem life_setPhase (c : Client) (k : Nat) (phase : Phase) :
    (c.setPhase k phase).life = c.life.setPhase k phase := rfl

@[simp] theorem life_finish (c : Client) (k : Nat) (outcome : Outcome) :
    (c.finish k outcome).life = c.life.setPhase k (.finished outcome) := rfl

@[simp] theorem life_finishCommand (c : Client) (k : Nat) (result : Except CommandError Unit) :
    (c.finishCommand k result).life = c.life.setPhase k (.finished (.command result)) := by
  unfold finishCommand
  dsimp only
  split
  · rw [life_finish, life_of_workspaceEffect (workspaceEffect_say _)]
  · rw [life_finish]

/-- A command that succeeds tells nothing at its end. -/
theorem finishCommand_ok (c : Client) (k : Nat) :
    c.finishCommand k (.ok ()) = c.finish k (.command (.ok ())) := by
  unfold finishCommand
  split
  · rename_i hresult
    cases hresult
  · rfl

/-! ### The end of a part of a turn -/

/-- The life of a client whose call has left the lock. -/
theorem life_leave (c : Client) (k : Nat) :
    ({ c with lock := c.lock.leave k } : Client).life = { c.life with lock := c.lock.leave k } := rfl

theorem life_conclude {c : Client} {k : Nat} {call : Call} (hcall : c.calls[k]? = some call)
    (outcome : Outcome) :
    (c.conclude k outcome).life =
      c.life.leave k (.finished (call.operation.concluded outcome)) := by
  have hoperation : ({ c with lock := c.lock.leave k } : Client).operation? k =
      some call.operation := by simp [operation?, hcall]
  unfold conclude
  dsimp only
  rw [hoperation]
  cases hop : call.operation with
  | activate =>
      dsimp only
      split <;>
        simp only [life_finish, life_of_workspaceEffect (workspaceEffect_say _),
          life_of_workspaceEffect (workspaceEffect_endProgress _),
          life_leave] <;> rfl
  | command id args reported =>
      dsimp only
      split <;>
        simp only [life_finishCommand, life_of_workspaceEffect (workspaceEffect_say _),
          life_of_workspaceEffect (workspaceEffect_endProgress _), life_leave] <;> rfl
  | _ => rfl

/-- A local part of a turn changes the course; then the call does what comes next. -/
theorem life_proceed {part : Client → Client × Next} (hpart : IsLocal part) {c : Client} {k : Nat}
    {call : Call} (hcall : c.calls[k]? = some call) :
    (proceed k (part c)).life =
      ({ c.life with course := (part c).1.course } : Life).proceed k call.operation (part c).2 := by
  have hlife : (part c).1.life = { c.life with course := (part c).1.course } := by
    simp only [life, hpart.lock, hpart.calls, hpart.released]
  rw [← hlife]
  -- The part leaves the calls alone, so the end of the turn finds the call where it was.
  cases hnext : part c with
  | mk c' next =>
      cases next with
      | waits phase => rfl
      | ends outcome =>
          have hcalls : c'.calls = c.calls := by
            have h := hpart.calls c
            rwa [hnext] at h
          exact life_conclude (by rw [hcalls]; exact hcall) outcome

/-! ### Requests -/

theorem life_showFile (c : Client) (source : String) (reply : Except SessionError Json) :
    (c.showFile source reply).1.life = c.life := by
  unfold showFile
  split
  · rfl
  · split
    · rfl
    · rfl
    · dsimp only
      rw [life_of_workspaceEffect (workspaceEffect_say _)]
      split
      · exact life_of_workspaceEffect (workspaceEffect_setFile _ _ _) c
      · rfl

theorem life_concludeShow (c : Client) (k : Nat) (source : String)
    (result : Except SessionError (Option String)) :
    ∃ outcome, (c.concludeShow k source result).life = c.life.setPhase k (.finished outcome) := by
  unfold concludeShow
  split
  · refine ⟨.command (.ok ()), ?_⟩
    dsimp only
    rw [life_finishCommand]
    split
    · rfl
    · rw [life_of_workspaceEffect (workspaceEffect_say _)]
    · rw [life_of_workspaceEffect (workspaceEffect_say _)]
  · split
    · exact ⟨_, life_finish c k _⟩
    · exact ⟨_, life_finish c k _⟩

theorem life_concludeDoctor (c : Client) (k : Nat) (reply : Except SessionError Json) :
    ∃ outcome, (c.concludeDoctor k reply).life = c.life.setPhase k (.finished outcome) := by
  unfold concludeDoctor
  split
  · exact ⟨_, life_finishCommand c k _⟩
  · exact ⟨_, life_finish c k _⟩
  · refine ⟨.command (.ok ()), ?_⟩
    rw [life_finishCommand, life_of_workspaceEffect (workspaceEffect_say _)]

/-- Whatever is done with a reply, the call ends. -/
theorem life_useReply (c : Client) (k : Nat) (reply : Except SessionError Json)
    (goal : RequestGoal) :
    ∃ outcome, (c.useReply k reply goal).life = c.life.setPhase k (.finished outcome) := by
  cases goal with
  | relay => cases reply <;> exact ⟨_, life_finish c k _⟩
  | read shape =>
      cases reply with
      | error e => exact ⟨_, life_finish c k _⟩
      | ok value =>
          dsimp only [useReply]
          cases shape.read? value <;> exact ⟨_, life_finish c k _⟩
  | virtualFile source =>
      have hfile := life_showFile c source reply
      simp only [useReply]
      rw [← hfile]
      exact life_concludeShow _ k source _
  | doctor => exact life_concludeDoctor c k reply

theorem life_ask (c : Client) (k g : Nat) (method : String) (params : Json) (goal : RequestGoal) :
    ∃ id, (c.ask k g method params goal).life = c.life.setPhase k (.awaiting g id goal) := by
  refine ⟨(c.send g method params c.options.requestTimeout).2, ?_⟩
  unfold ask
  dsimp only
  rw [life_setPhase, life_send]

/-- A request stays outside the line. -/
theorem life_askSession (c : Client) (k : Nat) (method : String) (params : Json)
    (goal : RequestGoal) :
    ∃ phase : Phase, phase.isInLine = false ∧
      (c.askSession k method params goal).life = c.life.setPhase k phase := by
  unfold askSession
  split
  · obtain ⟨id, h⟩ := life_ask c k _ method params goal
    exact ⟨_, rfl, h⟩
  · obtain ⟨outcome, h⟩ := life_useReply c k (.error .notRunning) goal
    exact ⟨_, rfl, h⟩

theorem life_afterReply (c : Client) (k g id : Nat) (goal : RequestGoal) :
    (c.afterReply k g id goal).life = c.life ∨
      ∃ outcome, (c.afterReply k g id goal).life = c.life.setPhase k (.finished outcome) := by
  unfold afterReply
  split
  · exact .inl rfl
  · rename_i c' reply hsettle
    right
    rw [← life_settle? hsettle]
    exact life_useReply c' k reply goal

/-! ### Calls outside the line -/

/-- A call that has begun, or is no command, leaves it open who holds the client. -/
theorem mayHold {l : Life} {k : Nat} {call : Call} (hcall : l.calls[k]? = some call)
    (hover : call.phase.isOver = false)
    (hbegun : call.phase.hasBegun ∨ ∀ id args reported, call.operation ≠ .command id args reported)
    (phase : Phase) : l.MayHold call phase := by
  by_cases hholds : call.holdsClient
  · left
    exact Life.isHeld_of_holdsClient hcall hholds
  · right
    cases hop : call.operation with
    | command id args reported =>
        rcases hbegun with hbegun | hbegun
        · simp [Call.holdsClient, hover, hop, hbegun] at hholds
        · exact absurd hop (hbegun id args reported)
    | _ => simp_all [Call.holdsClient]

variable {c : Client} {k : Nat} {call : Call}

theorem moves_shift (hcall : c.calls[k]? = some call) (hline : call.phase.isInLine = false)
    (hover : call.phase.isOver = false) {phase : Phase} (hphase : phase.isInLine = false)
    (hheld : c.life.MayHold call phase) : c.life.Moves (c.life.setPhase k phase) :=
  .callChange (.shift c.life k call phase hcall hline hover hphase hheld)

/-- A call that comes to its end, by whatever holds for the client. -/
theorem moves_finish (hcall : c.calls[k]? = some call) (hline : call.phase.isInLine = false)
    (hover : call.phase.isOver = false) (outcome : Outcome) :
    c.life.Moves (c.life.setPhase k (.finished outcome)) :=
  moves_shift hcall hline hover rfl (.inr (by simp [Call.holdsClient, Phase.isOver]))

/-! ### Looking for a session -/

/-- A call that looks for a session stays outside the line or waits to look again. -/
theorem life_look (c : Client) (k : Nat) :
    (∃ phase : Phase, phase.isInLine = false ∧ (c.look k).life = c.life.setPhase k phase) ∨
      (c.look k).life = c.life.enqueue k .peeking := by
  unfold look
  split
  · exact .inl ⟨_, rfl, life_finish c k _⟩
  · exact .inl ⟨_, rfl, life_setPhase c k _⟩
  · exact .inl ⟨_, rfl, life_setPhase c k _⟩
  · split
    · exact .inl ⟨_, rfl, life_finish c k _⟩
    · exact .inr rfl

theorem moves_look (hcall : c.calls[k]? = some call) (hline : call.phase.isInLine = false)
    (hover : call.phase.isOver = false)
    (hheld : ∀ phase, c.life.MayHold call phase) : c.life.Moves (c.look k).life := by
  rcases life_look c k with ⟨phase, hphase, hlife⟩ | hlife
  · rw [hlife]
    exact moves_shift hcall hline hover hphase (hheld phase)
  · rw [hlife]
    exact .callChange (.ask c.life k call .peeking hcall hline hover (.inl rfl) (hheld _))

/-- A call that waited for the lock to look again gives it up before it looks. -/
theorem moves_lookAgain (hcall : c.calls[k]? = some call) (hphase : call.phase = .peeking)
    (hheld : ∀ phase, c.life.MayHold call phase) :
    c.life.Moves (({ c with lock := c.lock.leave k } : Client).look k).life := by
  have hquit : ∀ phase : Phase, phase.isInLine = false → c.life.CallChange (c.life.leave k phase) :=
    fun phase hout => .quit c.life k call phase hcall (.inr hphase) hout (hheld phase)
  rcases life_look { c with lock := c.lock.leave k } k with ⟨phase, hout, hlife⟩ | hlife
  · rw [hlife]
    exact .callChange (hquit phase hout)
  · -- It leaves the line for a moment, in a phase that holds the client as much as before.
    rw [hlife]
    have hleft : (c.life.leave k (.watching 0)).calls[k]? =
        some { call with phase := .watching 0 } := Life.getElem?_setPhase_self hcall _
    have hask :=
      Life.CallChange.ask (c.life.leave k (.watching 0)) k _ .peeking hleft rfl rfl (.inl rfl)
      (mayHold hleft rfl (.inl rfl) _)
    have henqueue : (c.life.leave k (.watching 0)).enqueue k .peeking =
        Life.enqueue ({ c with lock := c.lock.leave k } : Client).life k .peeking := by
      exact Life.setPhase_setPhase { c.life with lock := (c.lock.leave k).acquire k } k _ _
    rw [henqueue] at hask
    exact .head (hquit _ rfl) (.callChange hask)

/-! ### Asking for a turn -/

/-- Operations that begin and stop alike have the same turns. -/
theorem begins_of_alike {s t : Course} {operation other : Operation} {next : Next}
    (hstart : operation.isStart = other.isStart) (hstop : operation = .stop ↔ other = .stop)
    (h : s.Begins operation t next) : s.Begins other t next := by
  cases h with
  | starts hop h => exact .starts (hstart ▸ hop) h
  | takes g phase hop h hphase => exact .takes g phase (hstart ▸ hop) h hphase
  | idle hop h => exact .idle (hstop.mp hop) h
  | restarts hop hne h hopens =>
      exact .restarts (hstart ▸ hop) (fun hother => hne (hstop.mpr hother)) h hopens

theorem proceed_setPhase (l : Life) (t : Course) (k : Nat) (phase : Phase) (operation : Operation)
    (next : Next) :
    ({ l.setPhase k phase with course := t } : Life).proceed k operation next =
      ({ l with course := t } : Life).proceed k operation next := by
  cases next with
  | waits phase' => exact Life.setPhase_setPhase { l with course := t } k phase phase'
  | ends outcome =>
      exact Life.setPhase_setPhase { l with course := t, lock := l.lock.leave k } k phase _

/-- A call asks for the lock, and begins its turn at once if the lock is free. -/
theorem moves_askTurn (hcall : c.calls[k]? = some call) (hline : call.phase.isInLine = false)
    (hover : call.phase.isOver = false) {operation : Operation}
    (hstart : operation.isStart = call.operation.isStart)
    (hstop : operation = .stop ↔ call.operation = .stop)
    (hholds : ({ call with phase := .queued } : Call).holdsClient)
    (hheld : ∀ phase, c.life.MayHold call phase) : c.life.Moves (c.askTurn k operation).life := by
  have hask : c.life.CallChange (c.life.enqueue k .queued) :=
    .ask c.life k call .queued hcall hline hover (.inr ⟨rfl, hholds⟩) (hheld _)
  unfold askTurn
  dsimp only
  split
  · rename_i hfree
    have hpart : IsLocal (beginTurn · operation) := local_beginTurn operation
    let c₁ : Client := { c with lock := c.lock.acquire k }
    have hlife := life_proceed hpart (c := c₁) hcall
    have hbegins : c.life.course.Begins call.operation (c₁.beginTurn operation).1.course
        (c₁.beginTurn operation).2 := begins_of_alike hstart hstop (begins_beginTurn c₁ operation)
    -- It is as if the call had waited in the line of a lock that it gets at once.
    have hturn := Life.Turn.begins (l := c.life.enqueue k .queued) (k := k)
      { call with phase := .queued } _ _ (Life.getElem?_setPhase_self hcall _) rfl
      (Lock.holder?_acquire_of_free hfree k) hbegins
    rw [hlife]
    refine .head hask (.sessionChange (.turn k ?_))
    have hsame := proceed_setPhase c₁.life (c₁.beginTurn operation).1.course k .queued
      call.operation (c₁.beginTurn operation).2
    rw [← hsame]
    exact hturn
  · exact .callChange hask

/-! ### The beginning of a call -/

theorem moves_askSession (hcall : c.calls[k]? = some call) (hline : call.phase.isInLine = false)
    (hover : call.phase.isOver = false) (hheld : ∀ phase, c.life.MayHold call phase)
    (method : String) (params : Json) (goal : RequestGoal) :
    c.life.Moves (c.askSession k method params goal).life := by
  obtain ⟨phase, hphase, hlife⟩ := life_askSession c k method params goal
  rw [hlife]
  exact moves_shift hcall hline hover hphase (hheld phase)

/-- An effect on the workspace before a change of the life makes no difference. -/
theorem moves_after {f : Client → Client} (hf : WorkspaceEffect f) {m : Life}
    (h : (f c).life.Moves m) : c.life.Moves m := by
  rwa [life_of_workspaceEffect hf] at h

theorem moves_runAbout (hcall : c.calls[k]? = some call) (hphase : call.phase = .fresh)
    (id : String) (args : List Json) (hint : String) (method : String) (params : String → Json)
    (goal : String → RequestGoal) :
    c.life.Moves (c.runAbout k id args hint fun subject =>
      c.askSession k method (params subject) (goal subject)).life := by
  have hline : call.phase.isInLine = false := by rw [hphase]; rfl
  have hover : call.phase.isOver = false := by rw [hphase]; rfl
  unfold runAbout
  split
  · rw [life_finishCommand, life_of_workspaceEffect (workspaceEffect_say _)]
    exact moves_finish hcall hline hover _
  · split
    · rename_i hheld
      exact moves_askSession hcall hline hover (fun _ => .inl hheld) _ _ _
    · rw [life_finishCommand]
      exact moves_finish hcall hline hover _

theorem moves_runCommand (hcall : c.calls[k]? = some call) (hphase : call.phase = .fresh)
    {id : String} {args : List Json} {reported : Bool}
    (hop : call.operation = .command id args reported) (action : CommandAction) :
    c.life.Moves (c.runCommand k id args action).life := by
  have hline : call.phase.isInLine = false := by rw [hphase]; rfl
  have hover : call.phase.isOver = false := by rw [hphase]; rfl
  cases action with
  | openSnippetFolder =>
      simp only [runCommand]
      split <;> rw [life_finishCommand]
      · exact moves_finish hcall hline hover _
      · rw [life_of_workspaceEffect (workspaceEffect_say _)]
        exact moves_finish hcall hline hover _
  | restartServer =>
      simp only [runCommand]
      split
      · rename_i hheld
        have heffect := workspaceEffect_beginProgress k restartTitle
        have hcall' : (c.beginProgress k restartTitle).calls[k]? = some call := by
          rw [heffect.calls]
          exact hcall
        refine moves_after heffect (moves_askTurn hcall' hline hover ?_ ?_ ?_ ?_)
        · rw [hop]
          rfl
        · simp [hop]
        · simp [Call.holdsClient, hop, Phase.isOver, Phase.hasBegun]
        · intro phase
          left
          rw [life_of_workspaceEffect heffect]
          exact hheld
      · rw [life_finishCommand]
        exact moves_finish hcall hline hover _
  | showOutput =>
      simp only [runCommand, life_finishCommand]
      rw [life_of_workspaceEffect (workspaceEffect_say _)]
      exact moves_finish hcall hline hover _
  | showVirtualFile => exact moves_runAbout hcall hphase id args _ _ queryParams _
  | showDoctor => exact moves_runAbout hcall hphase id args _ _ doctorParams _

theorem moves_activate (hcall : c.calls[k]? = some call) (hphase : call.phase = .fresh)
    (hop : call.operation = .activate) : c.life.Moves (c.activate k).life := by
  have heffect := workspaceEffect_prepare k
  unfold activate
  refine moves_after heffect ?_
  have hcall' := congrArg (·[k]?) (heffect.calls c)
  rw [hcall] at hcall'
  refine moves_askTurn hcall' (by rw [hphase]; rfl) (by rw [hphase]; rfl) ?_ ?_ ?_ ?_
  · rw [hop]
  · rw [hop]
  · simp [Call.holdsClient, hop, Phase.isOver]
  · exact mayHold hcall' (by rw [hphase]; rfl) (.inr (by simp [hop]))

/-- A call begins. -/
theorem moves_beginCall (hcall : c.calls[k]? = some call) (hphase : call.phase = .fresh) :
    c.life.Moves (c.beginCall k call.operation).life := by
  have hline : call.phase.isInLine = false := by rw [hphase]; rfl
  have hover : call.phase.isOver = false := by rw [hphase]; rfl
  have hturn : ∀ operation : Operation, call.operation = operation → (∀ id args reported,
      operation ≠ .command id args reported) →
      ({ call with phase := .queued } : Call).holdsClient →
      c.life.Moves (c.askTurn k operation).life := by
    intro operation hop hcommand hholds
    refine moves_askTurn hcall hline hover ?_ ?_ hholds ?_
    · rw [hop]
    · rw [hop]
    · exact mayHold hcall hover (.inr (by rw [hop]; exact hcommand))
  cases hop : call.operation with
  | start => exact hturn .start hop (by simp) (by simp [Call.holdsClient, hop, Phase.isOver])
  | stop => exact hturn .stop hop (by simp) (by simp [Call.holdsClient, hop, Phase.isOver])
  | restart => exact hturn .restart hop (by simp) (by simp [Call.holdsClient, hop, Phase.isOver])
  | activate => exact moves_activate hcall hphase hop
  | ready => exact moves_look hcall hline hover (mayHold hcall hover (.inr (by simp [hop])))
  | request method params shape =>
      exact moves_askSession hcall hline hover (mayHold hcall hover (.inr (by simp [hop]))) _ _ _
  | relay g method params =>
      simp only [beginCall]
      split
      · obtain ⟨id, hlife⟩ := life_ask c k g method params .relay
        rw [hlife]
        exact moves_shift hcall hline hover rfl (mayHold hcall hover (.inr (by simp [hop])) _)
      · exact moves_finish hcall hline hover _
  | showVirtualFile source =>
      exact moves_askSession hcall hline hover (mayHold hcall hover (.inr (by simp [hop]))) _ _ _
  | command id args reported =>
      simp only [beginCall]
      split
      · exact moves_runCommand hcall hphase hop _
      · rw [life_finishCommand]
        exact moves_finish hcall hline hover _

/-! ### A call goes on -/

/-- What a call does next in its turn fits to the sessions. -/
theorem matchesNext_part (h : c.life.Orderly) (hcall : c.calls[k]? = some call)
    (hturn : call.phase.isTurn)
    {part : Client → Client × Next} (hpart : IsPart part call.operation call.phase) :
    (part c).1.course.MatchesNext (part c).2 := by
  have hmatches := (h.turn k call hcall hturn).2
  rcases Phase.start_or_stop_of_isTurn hturn with ⟨g, hg⟩ | ⟨g, hg⟩
  · exact Course.matchesNext_starts (hmatches.starting g hg) (hpart.starts c g hg)
  · exact Course.matchesNext_stops (hmatches.stopping g hg) (hpart.stops c g hg)

/-- The call that has its turn goes on with a part of it. -/
theorem moves_part (hcall : c.calls[k]? = some call) (hturn : call.phase.isTurn)
    {part : Client → Client × Next} (hpart : IsPart part call.operation call.phase) :
    c.life.Moves (proceed k (part c)).life := by
  rw [life_proceed hpart.isLocal hcall]
  rcases Phase.start_or_stop_of_isTurn hturn with ⟨g, hg⟩ | ⟨g, hg⟩
  · exact .sessionChange (.turn k (.starts call g _ _ hcall hg (hpart.starts c g hg)))
  · exact .sessionChange (.turn k (.stops call g _ _ hcall hg (hpart.stops c g hg)))

theorem moves_goOn (hcall : c.calls[k]? = some call) (hcan : c.canGoOn k call.phase) :
    c.life.Moves (c.goOn k call.operation call.phase).life := by
  by_cases hturn : call.phase.isTurn
  · obtain ⟨part, hpart, hgo⟩ := exists_isPart k call.operation hturn
    rw [hgo]
    exact moves_part hcall hturn hpart
  cases hphase : call.phase with
  | fresh => exact moves_beginCall hcall hphase
  | queued =>
      have hholder : c.lock.holder? = some k := by simpa [hphase, canGoOn] using hcan
      have hlife := life_proceed (local_beginTurn call.operation) hcall
      simp only [goOn, hlife]
      exact .sessionChange (.turn k (.begins call _ _ hcall hphase hholder
        (begins_beginTurn c call.operation)))
  | watching seen =>
      have hover : call.phase.isOver = false := by rw [hphase]; rfl
      exact moves_look hcall (by rw [hphase]; rfl) hover
        (mayHold hcall hover (.inl (by rw [hphase]; rfl)))
  | peeking =>
      exact moves_lookAgain hcall hphase
        (mayHold hcall (by rw [hphase]; rfl) (.inl (by rw [hphase]; rfl)))
  | awaiting g id goal =>
      simp only [goOn]
      rcases life_afterReply c k g id goal with hlife | ⟨outcome, hlife⟩
      · rw [hlife]
        exact .refl _
      · rw [hlife]
        exact moves_finish hcall (by rw [hphase]; rfl) (by rw [hphase]; rfl) outcome
  | finished outcome => exact .refl _
  | dropped => exact .refl _
  | reaping g deadline error? =>
      exact absurd (by rw [hphase]; exact Phase.isTurn_reaping g deadline error?) hturn
  | _ => exact absurd (by rw [hphase]; rfl) hturn

/-- A call that goes on makes changes to calls and at most one that may concern the sessions. -/
theorem life_poll (c : Client) (k : Nat) : c.life.Moves (c.poll k).life := by
  unfold poll
  split
  · rename_i call hcall
    split
    · rename_i hcan
      exact moves_goOn hcall hcan
    · exact .refl _
  · exact .refl _

/-! ### Callers come and go -/

theorem moves_invoke (c : Client) (operation : Operation) :
    c.life.Moves (c.invoke operation).life := by
  unfold invoke
  split
  · rename_i hheld
    rw [Bool.or_eq_true, Bool.not_eq_true'] at hheld
    exact .callChange (.enter c.life operation hheld)
  · exact .refl _

/-- The caller of a call that is not over goes away: the call leaves the lock and its line. -/
theorem life_cancel (hcall : c.calls[k]? = some call) (hover : call.phase.isOver = false) :
    (c.cancel k).life = c.life.leave k .dropped := by
  rcases cancel_cases c k with ⟨-, hall⟩ | ⟨-, d, -, -, hforgets, hcancel⟩
  · rw [hall call hcall] at hover
    cases hover
  · have hlife : d.life = c.life := by
      rcases hforgets with rfl | ⟨g, id, rfl⟩
      · rfl
      · exact life_updateConnection c g _
    have hlock : d.lock = c.lock := congrArg Life.lock hlife
    rw [hcancel, life_setPhase, life_of_workspaceEffect (workspaceEffect_endProgress k), hlock]
    exact congrArg (fun l : Life => { l with lock := c.lock.leave k }.setPhase k .dropped) hlife

/-- Whether an event is that the caller of a call that has its turn goes away. -/
def dropsTurn (c : Client) : Event → Bool
  | .cancel k => c.calls[k]?.any fun call => call.phase.isTurn
  | _ => false

/-- A caller goes away whose call does not have its turn: the line may lose a place. -/
theorem moves_cancel (h : c.life.Orderly) (hkeeps : c.dropsTurn (.cancel k) = false) :
    c.life.Moves (c.cancel k).life := by
  rcases cancel_cases c k with ⟨hsame, -⟩ | ⟨call, -, hcall, hover, -⟩
  · rw [hsame]
    exact .refl _
  · rw [life_cancel hcall hover]
    have hturn : call.phase.isTurn = false := by simpa [dropsTurn, hcall] using hkeeps
    have hheld : c.life.MayHold call .dropped := .inr (by simp [Call.holdsClient, Phase.isOver])
    -- Outside the line there is no place to lose.
    cases hline : call.phase.isInLine with
    | true =>
        have hwaits : call.phase = .queued ∨ call.phase = .peeking := by
          cases hphase : call.phase <;> simp_all [Phase.isInLine]
        exact .callChange (.quit c.life k call .dropped hcall hwaits rfl hheld)
    | false =>
        have hk := Life.not_mem_line h hcall hline
        have hstay : c.life.leave k .dropped = c.life.setPhase k .dropped := by
          simp [Life.leave, Lock.leave_of_not_mem hk]
        rw [hstay]
        exact moves_shift hcall hline hover rfl hheld

theorem dropped_cancel (hdrops : c.dropsTurn (.cancel k)) : c.life.Dropped (c.cancel k).life := by
  obtain ⟨call, hcall, hturn⟩ : ∃ call, c.calls[k]? = some call ∧ call.phase.isTurn := by
    simpa [dropsTurn, Option.any_eq_true] using hdrops
  have hover : call.phase.isOver = false := by
    cases hphase : call.phase with
    | finished outcome => rw [hphase] at hturn; cases hturn
    | dropped => rw [hphase] at hturn; cases hturn
    | _ => rfl
  exact ⟨k, call, hcall, hturn, life_cancel hcall hover⟩

theorem life_act_relayNotification (c : Client) (g : Nat) (message : Notification) :
    (c.act (.relayNotification g message)).life = c.life := by
  rcases relayNotification_cases c g message with hsame | ⟨-, hnotify⟩
  · rw [hsame]
  · exact life_notify? hnotify

/-! ### Servers -/

theorem moves_pump (c : Client) (g : Nat) : c.life.Moves (c.pump g).life := by
  have hchange := pumpChange_pump c g
  generalize c.pump g = d at hchange ⊢
  cases hchange with
  | rests => exact .refl _
  | @delivers a message rest hattempt harmed hwaiting =>
      rw [life_of_workspaceEffect (workspaceEffect_deliver message),
        life_of_workspaceEffect (workspaceEffect_note _ (by simp) (by simp)),
        life_updateConnection]
      exact .refl _
  | loses hattempt harmed hnone hended hslot =>
      -- The report of the failure concerns the workspace; what counts is the status and the slot.
      have hlife : (({ c.setPump g .ended with slot := none } : Client).reportFailure g
          .connectionClosed).life = { c.life with course := c.course.letGo.publish g .failed } := by
        unfold reportFailure
        rw [life_of_workspaceEffect (workspaceEffect_say _), ← course_setPump c g .ended,
          ← life_updateAttempt c g _]
        have hcourse := course_publish { c.setPump g .ended with slot := none } g .failed
        unfold life
        rw [hcourse]
        rfl
      rw [hlife]
      exact .sessionChange (.lose g hslot)
  | ends =>
      rw [setPump, life_updateAttempt]
      exact .refl _

theorem life_moveConnection (c : Client) (g : Nat) (action : Connection.Action) :
    (c.moveConnection g action).life = c.life := by
  rcases moveConnection_cases c g action with ⟨hsame, -⟩ | ⟨a, d, -, -, -, -, hmoved⟩
  · rw [hsame]
  · rw [hmoved, life_updateConnection]

/-! ### Every event -/

theorem life_tidy (c : Client) : c.tidy.life = c.life.tidy := by
  unfold tidy Life.tidy
  rw [← isHeld_eq_life]
  dsimp only
  split <;> simp [life, course, Course.letGo, published, launches, generation]

/-- What an event does to the life before what nobody keeps goes away, unless it drops a turn. -/
theorem moves_act (h : c.life.Orderly) {event : Event} (hkeeps : c.dropsTurn event = false) :
    c.life.Moves (c.act event).life := by
  cases event with
  | advance span => exact .refl _
  | invoke operation => exact moves_invoke c operation
  | poll k => exact life_poll c k
  | cancel k => exact moves_cancel h hkeeps
  | launchFailed g error =>
      rw [act, setLaunch, life_updateAttempt]
      exact .refl _
  | launchSucceeded g taken process =>
      rw [act, setLaunch, life_updateAttempt]
      exact .refl _
  | processEnded g =>
      rw [act, endProcess, life_updateAttempt]
      exact .refl _
  | connection g action =>
      rw [act, life_moveConnection]
      exact .refl _
  | complaint line =>
      rw [act, life_of_workspaceEffect (workspaceEffect_say _)]
      exact .refl _
  | pump g => exact moves_pump c g
  | onReady hook =>
      rw [act, life_of_workspaceEffect (workspaceEffect_onReady hook)]
      exact .refl _
  | relayNotification g message =>
      rw [life_act_relayNotification]
      exact .refl _
  | release => exact .callChange (.release c.life)

/-- Every event that drops no turn is a step of the life. -/
theorem life_step (h : c.life.Orderly) {event : Event} (hkeeps : c.dropsTurn event = false) :
    c.life.Step (c.step event).life := ⟨(c.act event).life, moves_act h hkeeps, life_tidy _⟩

theorem life_droppingStep {event : Event} (hdrops : c.dropsTurn event) :
    c.life.DroppingStep (c.step event).life := by
  cases event with
  | cancel k => exact ⟨(c.cancel k).life, dropped_cancel hdrops, life_tidy _⟩
  | _ => cases hdrops

/-! ### Runs -/

theorem orderly_step (h : c.life.Orderly) (event : Event) : (c.step event).life.Orderly := by
  cases hdrops : c.dropsTurn event with
  | false => exact h.step (life_step h hdrops)
  | true => exact h.droppingStep (life_droppingStep hdrops)

theorem orderly_run (h : c.life.Orderly) (events : List Event) : (c.run events).life.Orderly := by
  induction events generalizing c with
  | nil => exact h
  | cons event rest ih => exact ih (orderly_step h event)

theorem orderly_new (options : SessionOptions) (processId : Nat) (workspace : Workspace) :
    (Client.new options processId workspace).life.Orderly := Life.orderly_empty

/-- A client is in order after any events. -/
theorem orderly_reached (options : SessionOptions) (processId : Nat) (workspace : Workspace)
    (events : List Event) : ((Client.new options processId workspace).run events).life.Orderly :=
  orderly_run (orderly_new options processId workspace) events

end Client
end LanguageClient
