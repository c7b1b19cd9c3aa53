import LanguageClient.Proofs.Client.StopProgress

/-!
# A client that is not given away

No call of a client gives the client away; only its owner does.  A client that its owner keeps can be
asked for everything, and whatever happens to it, it stays so.

* `Client.released_poll`, **`Client.released_step`** — a client is given away by its owner alone.
* `Client.calls_poll` — a call that goes on leaves all other calls alone.
* `Client.IsRetained` — a client that is kept and in order.
* **`Client.isRetained_step`** — a client is kept as long as its owner does not give it away.
-/

namespace LanguageClient

theorem Life.released_proceed (l : Life) (k : Nat) (operation : Operation) (next : Next) :
    (l.proceed k operation next).released = l.released := by
  cases next <;> rfl

namespace Client

variable {c d : Client} {k : Nat} {call : Call}

/-! ### Who gives a client away -/

theorem released_proceed {part : Client → Client × Next} (hpart : IsLocal part)
    (hcall : c.calls[k]? = some call) : (proceed k (part c)).released = c.released :=
  (congrArg Life.released (life_proceed hpart hcall)).trans (Life.released_proceed _ k _ _)

theorem released_askTurn (hcall : c.calls[k]? = some call) (operation : Operation) :
    (c.askTurn k operation).released = c.released := by
  unfold askTurn
  dsimp only
  split
  · exact released_proceed (c := { c with lock := c.lock.acquire k }) (local_beginTurn operation) hcall
  · rfl

theorem released_look (c : Client) (k : Nat) : (c.look k).released = c.released := by
  rcases life_look c k with ⟨phase, -, hlife⟩ | hlife <;> exact congrArg Life.released hlife

theorem released_askSession (c : Client) (k : Nat) (method : String) (params : Json)
    (goal : RequestGoal) : (c.askSession k method params goal).released = c.released := by
  obtain ⟨phase, -, hlife⟩ := life_askSession c k method params goal
  exact congrArg Life.released hlife

theorem released_finishCommand (c : Client) (k : Nat) (result : Except CommandError Unit) :
    (c.finishCommand k result).released = c.released :=
  congrArg Life.released (life_finishCommand c k result)

theorem released_runAbout (c : Client) (k : Nat) (id : String) (args : List Json) (hint : String)
    {run : String → Client} (h : ∀ subject, (run subject).released = c.released) :
    (c.runAbout k id args hint run).released = c.released := by
  unfold runAbout
  split
  · exact (released_finishCommand _ k _).trans ((workspaceEffect_say _).released c)
  · split
    · exact h _
    · exact released_finishCommand c k _

theorem released_runCommand (hcall : c.calls[k]? = some call) (id : String) (args : List Json)
    (action : CommandAction) : (c.runCommand k id args action).released = c.released := by
  cases action with
  | openSnippetFolder =>
      simp only [runCommand]
      split
      · exact released_finishCommand c k _
      · exact (released_finishCommand _ k _).trans ((workspaceEffect_say _).released c)
  | restartServer =>
      simp only [runCommand]
      split
      · have heffect := workspaceEffect_beginProgress k restartTitle
        have hcall' := (congrArg (·[k]?) (heffect.calls c)).trans hcall
        exact (released_askTurn hcall' .restart).trans (heffect.released c)
      · exact released_finishCommand c k _
  | showOutput => exact (released_finishCommand _ k _).trans ((workspaceEffect_say _).released c)
  | showVirtualFile => exact released_runAbout c k id args _ fun _ => released_askSession c k _ _ _
  | showDoctor => exact released_runAbout c k id args _ fun _ => released_askSession c k _ _ _

theorem released_beginCall (hcall : c.calls[k]? = some call) (operation : Operation) :
    (c.beginCall k operation).released = c.released := by
  cases operation with
  | start => exact released_askTurn hcall .start
  | stop => exact released_askTurn hcall .stop
  | restart => exact released_askTurn hcall .restart
  | activate =>
      have heffect := workspaceEffect_prepare k
      have hcall' := (congrArg (·[k]?) (heffect.calls c)).trans hcall
      exact (released_askTurn hcall' .activate).trans (heffect.released c)
  | ready => exact released_look c k
  | request method params shape => exact released_askSession c k _ _ _
  | relay g method params =>
      simp only [beginCall]
      split
      · obtain ⟨id, hlife⟩ := life_ask c k g method params .relay
        exact congrArg Life.released hlife
      · rfl
  | showVirtualFile source => exact released_askSession c k _ _ _
  | command id args reported =>
      simp only [beginCall]
      split
      · exact released_runCommand hcall id args _
      · exact released_finishCommand c k _

/-- No call gives the client away. -/
theorem released_goOn (hcall : c.calls[k]? = some call) :
    (c.goOn k call.operation call.phase).released = c.released := by
  by_cases hturn : call.phase.isTurn
  · obtain ⟨part, hpart, hgo⟩ := exists_isPart k call.operation hturn
    rw [hgo]
    exact released_proceed hpart.isLocal hcall
  cases hphase : call.phase with
  | fresh => exact released_beginCall hcall _
  | queued => exact released_proceed (local_beginTurn call.operation) hcall
  | watching seen => exact released_look c k
  | peeking => exact released_look { c with lock := c.lock.leave k } k
  | awaiting g id goal =>
      rcases life_afterReply c k g id goal with hlife | ⟨outcome, hlife⟩ <;>
        exact congrArg Life.released hlife
  | finished outcome => rfl
  | dropped => rfl
  | reaping g deadline error? =>
      exact absurd (by rw [hphase]; exact Phase.isTurn_reaping g deadline error?) hturn
  | _ => exact absurd (by rw [hphase]; rfl) hturn

theorem released_poll (c : Client) (k : Nat) : (c.poll k).released = c.released := by
  cases hcall : c.calls[k]? with
  | none => rw [poll, hcall]
  | some call =>
      rw [poll_eq hcall]
      split
      · exact released_goOn hcall
      · rfl

theorem released_tidy (c : Client) : c.tidy.released = c.released := by
  rw [tidy_eq_sweep, disown]
  split <;> rfl

/-- **A client is given away by its owner alone.** -/
theorem released_step (c : Client) {event : Event} (h : event ≠ .release) :
    (c.step event).released = c.released := by
  rw [step, released_tidy]
  cases hbeside : event.isBeside with
  | true => rw [eq_amid_of_beside (isBeside_act hbeside) c]; rfl
  | false =>
      cases event with
      | invoke operation =>
          rw [act, invoke]
          split <;> rfl
      | poll k => exact released_poll c k
      | cancel k =>
          rw [act]
          rcases cancel_cases c k with ⟨hsame, -⟩ | ⟨call, -, hcall, hover, -⟩
          · rw [hsame]
          · exact congrArg Life.released (life_cancel hcall hover)
      | relayNotification g message =>
          exact congrArg Life.released (life_act_relayNotification c g message)
      | release => exact absurd rfl h
      | _ => cases hbeside

/-! ### Other calls -/

/-- A call that goes on leaves all other calls alone. -/
theorem calls_poll (h : c.life.Orderly) (k : Nat) : (c.step (.poll k)).calls = c.calls ∨
    ∃ phase, (c.step (.poll k)).calls = (c.setPhase k phase).calls := by
  rw [step, tidy_calls, act]
  cases hcall : c.calls[k]? with
  | none => rw [poll, hcall]; exact .inl rfl
  | some call =>
      rw [poll_eq hcall]
      split
      · rcases entersPhase_goOn h hcall with ⟨phase, hcalls, -⟩ | hcalls
        · exact .inr ⟨phase, hcalls⟩
        · exact .inl hcalls
      · exact .inl rfl

theorem map_operation_poll (h : c.life.Orderly) (k : Nat) :
    (c.step (.poll k)).calls.map Call.operation = c.calls.map Call.operation := by
  rcases calls_poll h k with hcalls | ⟨phase, hcalls⟩
  · rw [hcalls]
  · rw [hcalls, setPhase]
    refine List.ext_getElem? fun i => ?_
    simp only [List.getElem?_map, List.getElem?_modify]
    by_cases hi : k = i <;> cases c.calls[i]? <;> simp [hi]

theorem length_calls_poll (h : c.life.Orderly) (k : Nat) :
    (c.step (.poll k)).calls.length = c.calls.length := by
  simpa using congrArg List.length (map_operation_poll h k)

theorem outcome?_poll_ne (h : c.life.Orderly) {i : Nat} (hi : k ≠ i) :
    (c.step (.poll k)).outcome? i = c.outcome? i := by
  rcases calls_poll h k with hcalls | ⟨phase, hcalls⟩
  · exact outcome?_of_calls hcalls i
  · exact (outcome?_of_calls hcalls i).trans (outcome?_setPhase_ne hi c phase)

theorem calls_beside {event : Event} (h : event.isBeside) : (c.step event).calls = c.calls := by
  rw [step, tidy_calls, eq_amid_of_beside (isBeside_act h) c]
  rfl

/-! ### A client that is kept -/

/-- A client that is in order and that its owner has not given away. -/
structure IsRetained (c : Client) : Prop where
  orderly : c.life.Orderly
  fitting : c.Fitting
  numbered : c.IsNumbered
  delivers : c.OwnedDelivers
  released : c.released = false

theorem isRetained_new (options : SessionOptions) (processId : Nat) (workspace : Workspace) :
    (Client.new options processId workspace).IsRetained where
  orderly := orderly_new options processId workspace
  fitting := fitting_reached options processId workspace []
  numbered := isNumbered_new options processId workspace
  delivers := ownedDelivers_new options processId workspace
  released := rfl

theorem isHeld_of_released (h : c.released = false) : c.isHeld := by simp [isHeld, h]

theorem disown_of_held (h : c.isHeld) : c.disown = c := if_pos h

/-- **A client is kept as long as its owner does not give it away.** -/
theorem isRetained_step (h : c.IsRetained) {event : Event} (hevent : event ≠ .release) :
    (c.step event).IsRetained where
  orderly := orderly_step h.orderly event
  fitting := fitting_step h.orderly h.fitting event
  numbered := isNumbered_attemptsGoOn (attemptsGoOn_step c event) h.numbered
  delivers := ownedDelivers_step h.orderly h.delivers event
  released := (released_step c hevent).trans h.released

/-- The workspace has nothing to do with the order of a client. -/
theorem isRetained_workspace (h : c.IsRetained) (workspace : Workspace) :
    ({ c with workspace } : Client).IsRetained where
  orderly := h.orderly
  fitting := h.fitting
  numbered := h.numbered
  delivers := ⟨h.delivers.armed, h.delivers.started⟩
  released := h.released

/-- While every call is over, nobody has the lock. -/
theorem isFree_of_over (h : c.life.Orderly)
    (hover : ∀ (k : Nat) (call : Call), c.calls[k]? = some call → call.phase.isInLine = false) :
    c.lock.isFree := by
  rw [Lock.isFree, Option.isNone_iff_eq_none, Option.eq_none_iff_forall_ne_some]
  intro k hholder
  obtain ⟨call, hcall, hline⟩ := (h.line k).mp (Lock.mem_line_of_holder? hholder)
  rw [hover k call hcall] at hline
  cases hline

/-- The session that is owned has a connection. -/
theorem exists_connection (h : c.IsRetained) {g : Nat} (hslot : c.slot = some g) :
    ∃ connection, c.connection? g = some connection := by
  have harmed := h.delivers.armed g hslot
  rw [Dispatch.isArmed, pumpQueue?_dispatch] at harmed
  obtain ⟨pumpQueue, hqueue, -⟩ := (Option.any_eq_true _ _).mp harmed
  obtain ⟨a, ha, -⟩ := Option.map_eq_some_iff.mp hqueue
  exact ⟨a.connection, by rw [connection?, ha, Option.map_some]⟩

/-! ### Asking a client that is kept -/

/-- A client that is kept can be asked for everything, and nothing else changes but what nobody keeps
in being. -/
theorem step_invoke (h : c.IsRetained) (operation : Operation) :
    c.step (.invoke operation) = ({ c with calls := c.calls ++ [{ operation }] } : Client).sweep := by
  rw [step, act, invoke, isHeld_of_released h.released, Bool.true_or, if_pos rfl, tidy_eq_sweep,
    disown_of_held]
  exact isHeld_of_released h.released

theorem calls_invoke (h : c.IsRetained) (operation : Operation) :
    (c.step (.invoke operation)).calls = c.calls ++ [({ operation } : Call)] :=
  congrArg calls (step_invoke h operation)

/-- Asking for something leaves the connection of the session that is owned alone. -/
theorem connection?_invoke (h : c.IsRetained) (operation : Operation) {g : Nat}
    (hslot : c.slot = some g) : (c.step (.invoke operation)).connection? g = c.connection? g := by
  have hkeeps : ({ c with calls := c.calls ++ [{ operation }] } : Client).disown.keepsConnection g := by
    rw [disown_of_held]
    · simp [keepsConnection, hslot]
    · exact isHeld_of_released h.released
  rw [step, act, invoke, isHeld_of_released h.released, Bool.true_or, if_pos rfl]
  exact connection?_tidy_of_keeps hkeeps

end Client
end LanguageClient
