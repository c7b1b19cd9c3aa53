import LanguageClient.Proofs.Client.Tidy
import LanguageClient.Proofs.Client.Transitions
import LanguageClient.Proofs.Client.WorkspaceEffects
import LanguageClient.Proofs.Connection.Intake
import Mathlib.Logic.Relation

/-!
# How attempts go on

Whatever happens to the client, each of its attempts goes on by moves of its own: its launch comes to
something, its connection takes a step, its process or its pump changes.  So whatever these moves
keep holds of every attempt, after any events.

* `Attempt.Move`, `Attempt.GoesOn` — one move of an attempt, and several.
* `Client.AttemptsGoOn` — every attempt goes on, and a new one begins at its beginning.
* `attemptsGoOn_send`, `attemptsGoOn_goOn`, `attemptsGoOn_step`, … — whatever the client does
  carries its attempts on.
* **`Client.attempt_reached`** — what every move keeps holds of every attempt.
* `Connection.staysEnded_step?` — how a connection comes to its end, and **`Client.isClosed_step`**:
  one that is flagged closed stays so.
-/

namespace LanguageClient

/-! ### Moves of an attempt -/

namespace Attempt

/-- One move of an attempt. -/
inductive Move (a : Attempt) : Attempt → Prop
  /-- Its launch comes to something. -/
  | launch (launch : Launch) (taken : Bool) (process : Process) (h : a.launch = .awaited) :
      a.Move { a with launch, connection := { a.connection with taken }, process }
  /-- Its connection takes a step. -/
  | connection (action : Connection.Action) {k : Connection}
      (h : a.connection.step? action = some k) : a.Move { a with connection := k }
  /-- Its pump takes the next notification. -/
  | receive {message : Notification} {rest : List Notification}
      (h : a.connection.notifications = message :: rest) :
      a.Move { a with connection := { a.connection with notifications := rest } }
  /-- Its process changes. -/
  | process (process : Process) : a.Move { a with process }
  /-- Its pump changes. -/
  | pump (pump : Pump) : a.Move { a with pump }

/-- Several moves of an attempt. -/
def GoesOn (a b : Attempt) : Prop := Relation.ReflTransGen Move a b

variable {a b : Attempt}

theorem goesOn_refl (a : Attempt) : a.GoesOn a := Relation.ReflTransGen.refl

theorem goesOn_of_move (h : a.Move b) : a.GoesOn b := Relation.ReflTransGen.single h

/-- What every move keeps is kept by several. -/
theorem goesOn_keeps {P : Attempt → Prop} (hmove : ∀ a b : Attempt, P a → a.Move b → P b)
    (h : a.GoesOn b) (ha : P a) : P b := by
  induction h with
  | refl => exact ha
  | tail _ hlast ih => exact hmove _ _ ih hlast

end Attempt

namespace Client

variable {c d e : Client} {g : Nat}

/-! ### Carrying attempts on -/

/-- Every attempt goes on, and one that is new has begun at its beginning. -/
structure AttemptsGoOn (c d : Client) : Prop where
  goesOn : ∀ (g : Nat) (a : Attempt), c.attempt? g = some a →
    ∃ b, d.attempt? g = some b ∧ a.GoesOn b
  begins : ∀ (g : Nat) (b : Attempt), c.attempt? g = none → d.attempt? g = some b →
    Attempt.GoesOn {} b

theorem attemptsGoOn_of_attempts (h : d.attempts = c.attempts) : c.AttemptsGoOn d where
  goesOn g a ha := by
    refine ⟨a, ?_, a.goesOn_refl⟩
    rwa [attempt?, h]
  begins g b hnone hb := by
    have hsame : d.attempt? g = c.attempt? g := by rw [attempt?, h, attempt?]
    rw [hsame, hnone] at hb
    cases hb

theorem attemptsGoOn_refl (c : Client) : c.AttemptsGoOn c := attemptsGoOn_of_attempts rfl

theorem AttemptsGoOn.trans (h : c.AttemptsGoOn d) (h' : d.AttemptsGoOn e) : c.AttemptsGoOn e where
  goesOn g a ha := by
    obtain ⟨b, hb, hab⟩ := h.goesOn g a ha
    obtain ⟨b', hb', hbb'⟩ := h'.goesOn g b hb
    exact ⟨b', hb', Relation.ReflTransGen.trans hab hbb'⟩
  begins g b hnone hb := by
    cases hmiddle : d.attempt? g with
    | none => exact h'.begins g b hmiddle hb
    | some a =>
        obtain ⟨b', hb', hab'⟩ := h'.goesOn g a hmiddle
        rw [hb, Option.some.injEq] at hb'
        subst hb'
        exact Relation.ReflTransGen.trans (h.begins g a hnone hmiddle) hab'

theorem attemptsGoOn_workspaceEffect {f : Client → Client} (hf : WorkspaceEffect f) (c : Client) :
    c.AttemptsGoOn (f c) :=
  attemptsGoOn_of_attempts (hf.attempts c)

theorem attempt?_updateAttempt (c : Client) (g : Nat) (f : Attempt → Attempt) (i : Nat) :
    (c.updateAttempt g f).attempt? i = if g = i then (c.attempt? i).map f else c.attempt? i := by
  unfold updateAttempt attempt?
  by_cases hg : g = 0 <;> by_cases hi : i = 0
  · simp [hg, hi]
  · simp [hg, hi, Ne.symm hi]
  · simp [hg, hi]
  · by_cases hgi : g = i
    · subst hgi
      simp [hg]
    · have hplace : g - 1 ≠ i - 1 := by omega
      simp [hg, hi, hgi, hplace]

theorem attemptsGoOn_updateAttempt {f : Attempt → Attempt}
    (h : ∀ a, c.attempt? g = some a → a.GoesOn (f a)) : c.AttemptsGoOn (c.updateAttempt g f) where
  goesOn i a ha := by
    rw [attempt?_updateAttempt]
    split
    · rename_i hi
      subst hi
      exact ⟨f a, by rw [ha, Option.map_some], h a ha⟩
    · exact ⟨a, ha, a.goesOn_refl⟩
  begins i b hnone hb := by
    rw [attempt?_updateAttempt, hnone] at hb
    split at hb <;> cases hb

/-- A connection takes a step of its own. -/
theorem attemptsGoOn_updateConnection {f : Connection → Connection}
    (h : ∀ k, c.connection? g = some k → ∃ action, k.step? action = some (f k)) :
    c.AttemptsGoOn (c.updateConnection g f) := by
  refine attemptsGoOn_updateAttempt fun a ha => ?_
  obtain ⟨action, hstep⟩ := h a.connection (by rw [connection?, ha, Option.map_some])
  exact Attempt.goesOn_of_move (.connection action hstep)

theorem attemptsGoOn_setPump (c : Client) (g : Nat) (pump : Pump) :
    c.AttemptsGoOn (c.setPump g pump) :=
  attemptsGoOn_updateAttempt fun _ _ => Attempt.goesOn_of_move (.pump pump)

theorem attemptsGoOn_endProcess (c : Client) (g : Nat) : c.AttemptsGoOn (c.endProcess g) := by
  refine attemptsGoOn_updateAttempt fun a _ => ?_
  split
  · exact Attempt.goesOn_of_move (.process .ended)
  · exact a.goesOn_refl

theorem attemptsGoOn_setLaunch (c : Client) (g : Nat) (launch : Launch) (taken : Bool)
    (process : Process) : c.AttemptsGoOn (c.setLaunch g launch taken process) := by
  refine attemptsGoOn_updateAttempt fun a _ => ?_
  dsimp only
  split
  · rename_i hawaited
    exact Attempt.goesOn_of_move (.launch launch taken process hawaited)
  · exact a.goesOn_refl

/-! ### Talking to a server -/

theorem attemptsGoOn_send (c : Client) (g : Nat) (method : String) (params : Json) (span : Nat) :
    c.AttemptsGoOn (c.send g method params span).1 := by
  unfold send
  cases hconnection : c.connection? g with
  | none => exact attemptsGoOn_refl c
  | some connection =>
      change c.AttemptsGoOn (c.updateConnection g fun _ => _)
      refine attemptsGoOn_updateConnection fun k hk => ?_
      rw [hconnection, Option.some.injEq] at hk
      subst hk
      exact ⟨.request method params (c.now + span), rfl⟩

theorem attemptsGoOn_notify? {message : Notification} (h : c.notify? g message = some d) :
    c.AttemptsGoOn d := by
  obtain ⟨before, after, hbefore, hnotify, rfl⟩ := notify?_eq_some_iff.mp h
  refine attemptsGoOn_updateConnection fun k hk => ⟨.notify message, ?_⟩
  rw [hbefore, Option.some.injEq] at hk
  exact hk ▸ hnotify

theorem attemptsGoOn_settle? {id : Nat} {outcome : Except SessionError Json}
    (h : c.settle? g id = some (d, outcome)) : c.AttemptsGoOn d := by
  obtain ⟨before, after, hbefore, hsettle, rfl⟩ := settle?_eq_some_iff.mp h
  refine attemptsGoOn_updateConnection fun k hk => ⟨.settle c.now id, ?_⟩
  rw [hbefore, Option.some.injEq] at hk
  rw [← hk, Connection.step?, hsettle, Option.map_some]

theorem attemptsGoOn_forget (c : Client) (g id : Nat) : c.AttemptsGoOn (c.forget g id) :=
  attemptsGoOn_updateConnection fun _ _ => ⟨.forget id, rfl⟩

theorem attemptsGoOn_abort (c : Client) (g : Nat) :
    c.AttemptsGoOn (c.updateConnection g Connection.abort) :=
  attemptsGoOn_updateConnection fun _ _ => ⟨.abort, rfl⟩

/-! ### A turn -/

theorem attemptsGoOn_startLocked (c : Client) : c.AttemptsGoOn c.startLocked.1 := by
  unfold startLocked
  split
  · exact attemptsGoOn_refl c
  · constructor
    · intro g a ha
      refine ⟨a, ?_, a.goesOn_refl⟩
      unfold attempt? at ha ⊢
      split
      · rename_i hg
        rw [if_pos hg] at ha
        cases ha
      · rename_i hg
        rw [if_neg hg] at ha
        exact (List.getElem?_append_left (List.getElem?_eq_some_iff.mp ha).1).trans ha
    · intro g b hnone hb
      -- The one attempt that is new is at its beginning.
      unfold attempt? at hnone hb
      split at hb
      · cases hb
      · rename_i hg
        rw [if_neg hg, List.getElem?_eq_none_iff] at hnone
        have hnew : ([{}] : List Attempt)[g - 1 - c.attempts.length]? = some b :=
          (List.getElem?_append_right hnone).symm.trans hb
        rw [List.getElem?_singleton] at hnew
        split at hnew
        · cases hnew
          exact Attempt.goesOn_refl _
        · cases hnew

theorem attemptsGoOn_afterLaunch (c : Client) (g : Nat) : c.AttemptsGoOn (c.afterLaunch g).1 := by
  unfold afterLaunch
  split
  · exact attemptsGoOn_of_attempts rfl
  · unfold beginHandshake
    split
    · exact attemptsGoOn_of_attempts rfl
    · rename_i connection htake
      have htaken : c.AttemptsGoOn (c.updateConnection g fun _ => connection) := by
        refine attemptsGoOn_updateConnection fun k hk => ?_
        rw [hk, Option.bind_some] at htake
        exact ⟨.take, htake⟩
      exact htaken.trans (attemptsGoOn_send _ g _ _ _)
  · exact attemptsGoOn_refl c

theorem attemptsGoOn_install (c : Client) (g : Nat) : c.AttemptsGoOn (c.install g).1 := by
  have hwaiting := attemptsGoOn_setPump c g .waiting
  unfold install
  dsimp only
  split
  · exact hwaiting.trans (attemptsGoOn_of_attempts rfl)
  · refine hwaiting.trans (.trans ?_ (attemptsGoOn_setPump _ g .armed))
    exact attemptsGoOn_of_attempts ((workspaceEffect_runHooks g).attempts _)

theorem attemptsGoOn_afterHandshake (c : Client) (g id : Nat) :
    c.AttemptsGoOn (c.afterHandshake g id).1 := by
  unfold afterHandshake
  split
  · exact attemptsGoOn_refl c
  · rename_i hsettle
    exact attemptsGoOn_settle? hsettle
  · rename_i hsettle
    refine (attemptsGoOn_settle? hsettle).trans ?_
    split
    · split
      · rename_i hnotify
        exact (attemptsGoOn_notify? hnotify).trans (attemptsGoOn_install _ g)
      · exact attemptsGoOn_refl _
    · exact attemptsGoOn_refl _

theorem attemptsGoOn_afterStop (c : Client) (operation : Operation) :
    c.AttemptsGoOn (c.afterStop operation).1 := by
  unfold afterStop
  split
  · exact attemptsGoOn_refl c
  · exact attemptsGoOn_startLocked c

theorem attemptsGoOn_stopLocked (c : Client) (operation : Operation) :
    c.AttemptsGoOn (c.stopLocked operation).1 := by
  unfold stopLocked
  split
  · exact attemptsGoOn_afterStop c operation
  · rename_i g hslot
    have hgone : c.AttemptsGoOn { c with slot := none } := attemptsGoOn_of_attempts rfl
    exact hgone.trans (attemptsGoOn_send _ g _ _ _)

theorem attemptsGoOn_afterShutdown (c : Client) (g id : Nat) :
    c.AttemptsGoOn (c.afterShutdown g id).1 := by
  unfold afterShutdown
  split
  · exact attemptsGoOn_refl c
  · rename_i d outcome hsettle
    refine (attemptsGoOn_settle? hsettle).trans ?_
    dsimp only
    split
    · cases hnotify : d.notify? g ⟨Method.exit, .null⟩ with
      | none => exact attemptsGoOn_refl d
      | some e => exact attemptsGoOn_notify? hnotify
    · exact attemptsGoOn_refl d

theorem attemptsGoOn_afterClose (c : Client) (operation : Operation) (g : Nat)
    (error? : Option SessionError) : c.AttemptsGoOn (c.afterClose operation g error?).1 := by
  cases error? with
  | some error => exact attemptsGoOn_of_attempts rfl
  | none =>
      have hended : c.AttemptsGoOn ((c.setPump g .ended).publish g .stopped) :=
        (attemptsGoOn_setPump c g .ended).trans (attemptsGoOn_of_attempts rfl)
      exact hended.trans (attemptsGoOn_afterStop _ operation)

theorem attemptsGoOn_reap (c : Client) (operation : Operation) (g : Nat)
    (error? : Option SessionError) : c.AttemptsGoOn (c.reap operation g error?).1 := by
  refine (attemptsGoOn_abort c g).trans ?_
  unfold reap
  dsimp only
  split
  · exact attemptsGoOn_refl _
  · exact attemptsGoOn_afterClose _ operation g error?

theorem attemptsGoOn_afterAbandoning (c : Client) (operation : Operation) (g : Nat)
    (error : SessionError) (deadline : Nat) :
    c.AttemptsGoOn (c.afterAbandoning operation g error deadline).1 := by
  unfold afterAbandoning
  split
  · exact attemptsGoOn_reap c operation g _
  · exact attemptsGoOn_refl c

theorem attemptsGoOn_afterClosing (c : Client) (operation : Operation) (g deadline : Nat) :
    c.AttemptsGoOn (c.afterClosing operation g deadline).1 := by
  unfold afterClosing
  split
  · exact attemptsGoOn_reap c operation g _
  · exact attemptsGoOn_refl c

theorem attemptsGoOn_afterReaping (c : Client) (operation : Operation) (g deadline : Nat)
    (error? : Option SessionError) :
    c.AttemptsGoOn (c.afterReaping operation g deadline error?).1 := by
  unfold afterReaping
  split
  · exact (attemptsGoOn_endProcess c g).trans (attemptsGoOn_afterClose _ operation g error?)
  · exact attemptsGoOn_refl c

theorem attemptsGoOn_beginTurn (c : Client) (operation : Operation) :
    c.AttemptsGoOn (c.beginTurn operation).1 := by
  unfold beginTurn
  split
  · exact attemptsGoOn_startLocked c
  · exact attemptsGoOn_startLocked c
  · exact attemptsGoOn_stopLocked c operation

/-! ### Calls -/

@[simp] theorem attempts_finishCommand (c : Client) (k : Nat) (result : Except CommandError Unit) :
    (c.finishCommand k result).attempts = c.attempts := by
  unfold finishCommand
  dsimp only
  split <;> rfl

@[simp] theorem attempts_conclude (c : Client) (k : Nat) (outcome : Outcome) :
    (c.conclude k outcome).attempts = c.attempts := by
  have hended : ({ c with lock := c.lock.leave k }.endProgress k).attempts = c.attempts :=
    (workspaceEffect_endProgress k).attempts _
  unfold conclude
  dsimp only
  split
  · split <;> exact hended
  · rw [attempts_finishCommand]
    split <;> exact hended
  · rfl

@[simp] theorem attempts_proceed (k : Nat) (result : Client × Next) :
    (proceed k result).attempts = result.1.attempts := by
  obtain ⟨c, next⟩ := result
  cases next with
  | waits phase => rfl
  | ends outcome => exact attempts_conclude c k outcome

theorem attemptsGoOn_finishCommand (c : Client) (k : Nat) (result : Except CommandError Unit) :
    c.AttemptsGoOn (c.finishCommand k result) :=
  attemptsGoOn_of_attempts (attempts_finishCommand c k result)

theorem attemptsGoOn_proceed (k : Nat) {result : Client × Next} (h : c.AttemptsGoOn result.1) :
    c.AttemptsGoOn (proceed k result) :=
  h.trans (attemptsGoOn_of_attempts (attempts_proceed k result))

theorem attemptsGoOn_askTurn (c : Client) (k : Nat) (operation : Operation) :
    c.AttemptsGoOn (c.askTurn k operation) := by
  have hasked : c.AttemptsGoOn { c with lock := c.lock.acquire k } := attemptsGoOn_of_attempts rfl
  refine hasked.trans ?_
  unfold askTurn
  dsimp only
  split
  · exact attemptsGoOn_proceed k (attemptsGoOn_beginTurn _ operation)
  · exact attemptsGoOn_of_attempts rfl

theorem attempts_showFile (c : Client) (source : String) (reply : Except SessionError Json) :
    (c.showFile source reply).1.attempts = c.attempts := by
  unfold showFile
  split
  · rfl
  · split
    · rfl
    · rfl
    · dsimp only
      split <;> rfl

theorem attempts_concludeShow (c : Client) (k : Nat) (source : String)
    (result : Except SessionError (Option String)) :
    (c.concludeShow k source result).attempts = c.attempts := by
  unfold concludeShow
  dsimp only
  split
  · rw [attempts_finishCommand]
    split <;> rfl
  · split <;> rfl

theorem attempts_concludeDoctor (c : Client) (k : Nat) (reply : Except SessionError Json) :
    (c.concludeDoctor k reply).attempts = c.attempts := by
  unfold concludeDoctor
  split
  · exact attempts_finishCommand c k _
  · rfl
  · exact attempts_finishCommand _ k _

/-- What is done with a reply concerns no attempt. -/
theorem attempts_useReply (c : Client) (k : Nat) (reply : Except SessionError Json)
    (goal : RequestGoal) : (c.useReply k reply goal).attempts = c.attempts := by
  cases goal with
  | relay => cases reply <;> rfl
  | read shape =>
      cases reply with
      | error e => rfl
      | ok value =>
          dsimp only [useReply]
          cases shape.read? value <;> rfl
  | virtualFile source =>
      exact (attempts_concludeShow _ k source _).trans (attempts_showFile c source reply)
  | doctor => exact attempts_concludeDoctor c k reply

theorem attempts_look (c : Client) (k : Nat) : (c.look k).attempts = c.attempts := by
  unfold look
  repeat' split
  all_goals rfl

theorem attemptsGoOn_useReply (c : Client) (k : Nat) (reply : Except SessionError Json)
    (goal : RequestGoal) : c.AttemptsGoOn (c.useReply k reply goal) :=
  attemptsGoOn_of_attempts (attempts_useReply c k reply goal)

theorem attemptsGoOn_look (c : Client) (k : Nat) : c.AttemptsGoOn (c.look k) :=
  attemptsGoOn_of_attempts (attempts_look c k)

theorem attemptsGoOn_ask (c : Client) (k g : Nat) (method : String) (params : Json)
    (goal : RequestGoal) : c.AttemptsGoOn (c.ask k g method params goal) :=
  (attemptsGoOn_send c g method params c.options.requestTimeout).trans (attemptsGoOn_of_attempts rfl)

theorem attemptsGoOn_askSession (c : Client) (k : Nat) (method : String) (params : Json)
    (goal : RequestGoal) : c.AttemptsGoOn (c.askSession k method params goal) := by
  unfold askSession
  split
  · exact attemptsGoOn_ask c k _ method params goal
  · exact attemptsGoOn_useReply c k _ goal

theorem attemptsGoOn_afterReply (c : Client) (k g id : Nat) (goal : RequestGoal) :
    c.AttemptsGoOn (c.afterReply k g id goal) := by
  unfold afterReply
  split
  · exact attemptsGoOn_refl c
  · rename_i hsettle
    exact (attemptsGoOn_settle? hsettle).trans (attemptsGoOn_useReply _ k _ goal)

theorem attemptsGoOn_runAbout (c : Client) (k : Nat) (id : String) (args : List Json) (hint : String)
    {run : String → Client} (hrun : ∀ subject, c.AttemptsGoOn (run subject)) :
    c.AttemptsGoOn (c.runAbout k id args hint run) := by
  unfold runAbout
  split
  · exact (attemptsGoOn_workspaceEffect (workspaceEffect_say _) c).trans
      (attemptsGoOn_finishCommand _ k _)
  · split
    · exact hrun _
    · exact attemptsGoOn_finishCommand c k _

theorem attemptsGoOn_runCommand (c : Client) (k : Nat) (id : String) (args : List Json)
    (action : CommandAction) : c.AttemptsGoOn (c.runCommand k id args action) := by
  cases action with
  | openSnippetFolder =>
      dsimp only [runCommand]
      split
      · exact attemptsGoOn_finishCommand c k _
      · exact (attemptsGoOn_workspaceEffect (workspaceEffect_say _) c).trans
          (attemptsGoOn_finishCommand _ k _)
  | restartServer =>
      dsimp only [runCommand]
      split
      · exact (attemptsGoOn_workspaceEffect (workspaceEffect_beginProgress k _) c).trans
          (attemptsGoOn_askTurn _ k .restart)
      · exact attemptsGoOn_finishCommand c k _
  | showOutput =>
      exact (attemptsGoOn_workspaceEffect (workspaceEffect_say _) c).trans
        (attemptsGoOn_finishCommand _ k _)
  | showVirtualFile =>
      exact attemptsGoOn_runAbout c k id args _ fun _ => attemptsGoOn_askSession c k _ _ _
  | showDoctor => exact attemptsGoOn_runAbout c k id args _ fun _ => attemptsGoOn_askSession c k _ _ _

theorem attemptsGoOn_activate (c : Client) (k : Nat) : c.AttemptsGoOn (c.activate k) :=
  (attemptsGoOn_workspaceEffect (workspaceEffect_prepare k) c).trans
    (attemptsGoOn_askTurn _ k .activate)

theorem attemptsGoOn_beginCall (c : Client) (k : Nat) (operation : Operation) :
    c.AttemptsGoOn (c.beginCall k operation) := by
  cases operation with
  | start => exact attemptsGoOn_askTurn c k .start
  | stop => exact attemptsGoOn_askTurn c k .stop
  | restart => exact attemptsGoOn_askTurn c k .restart
  | activate => exact attemptsGoOn_activate c k
  | ready => exact attemptsGoOn_look c k
  | request method params shape => exact attemptsGoOn_askSession c k _ _ _
  | relay g method params =>
      dsimp only [beginCall]
      split
      · exact attemptsGoOn_ask c k g method params .relay
      · exact attemptsGoOn_of_attempts rfl
  | showVirtualFile source => exact attemptsGoOn_askSession c k _ _ _
  | command id args _ =>
      dsimp only [beginCall]
      split
      · exact attemptsGoOn_runCommand c k id args _
      · exact attemptsGoOn_finishCommand c k _

theorem attemptsGoOn_goOn (c : Client) (k : Nat) (operation : Operation) (phase : Phase) :
    c.AttemptsGoOn (c.goOn k operation phase) := by
  cases phase with
  | fresh => exact attemptsGoOn_beginCall c k operation
  | queued => exact attemptsGoOn_proceed k (attemptsGoOn_beginTurn c operation)
  | launching g => exact attemptsGoOn_proceed k (attemptsGoOn_afterLaunch c g)
  | initializing g id => exact attemptsGoOn_proceed k (attemptsGoOn_afterHandshake c g id)
  | abandoning g error deadline =>
      exact attemptsGoOn_proceed k (attemptsGoOn_afterAbandoning c operation g error deadline)
  | stopping g id => exact attemptsGoOn_proceed k (attemptsGoOn_afterShutdown c g id)
  | closing g deadline =>
      exact attemptsGoOn_proceed k (attemptsGoOn_afterClosing c operation g deadline)
  | reaping g deadline error? =>
      exact attemptsGoOn_proceed k (attemptsGoOn_afterReaping c operation g deadline error?)
  | watching seen => exact attemptsGoOn_look c k
  | peeking =>
      have hleft : c.AttemptsGoOn { c with lock := c.lock.leave k } := attemptsGoOn_of_attempts rfl
      exact hleft.trans (attemptsGoOn_look _ k)
  | awaiting g id goal => exact attemptsGoOn_afterReply c k g id goal
  | finished outcome => exact attemptsGoOn_refl c
  | dropped => exact attemptsGoOn_refl c

/-! ### Events -/

theorem attemptsGoOn_poll (c : Client) (k : Nat) : c.AttemptsGoOn (c.poll k) := by
  unfold poll
  split
  · split
    · exact attemptsGoOn_goOn c k _ _
    · exact attemptsGoOn_refl c
  · exact attemptsGoOn_refl c

theorem attemptsGoOn_cancel (c : Client) (k : Nat) : c.AttemptsGoOn (c.cancel k) := by
  have hgone : ∀ d : Client, d.AttemptsGoOn
      (({ d with lock := d.lock.leave k }.endProgress k).setPhase k .dropped) :=
    fun d => attemptsGoOn_of_attempts ((workspaceEffect_endProgress k).attempts _)
  rcases cancel_cases c k with ⟨hsame, -⟩ | ⟨call, d, -, -, rfl | ⟨g, id, rfl⟩, hcancel⟩
  · rw [hsame]
    exact attemptsGoOn_refl c
  · rw [hcancel]
    exact hgone _
  · rw [hcancel]
    exact (attemptsGoOn_forget c g id).trans (hgone _)

theorem attemptsGoOn_moveConnection (c : Client) (g : Nat) (action : Connection.Action) :
    c.AttemptsGoOn (c.moveConnection g action) := by
  rcases moveConnection_cases c g action with ⟨hsame, -⟩ | ⟨a, d, ha, -, -, hstep, hmoved⟩
  · rw [hsame]
    exact attemptsGoOn_refl c
  · rw [hmoved]
    refine attemptsGoOn_updateConnection fun k hk => ⟨action, ?_⟩
    rw [connection?, ha, Option.map_some, Option.some.injEq] at hk
    rwa [← hk]

theorem attemptsGoOn_pump (c : Client) (g : Nat) : c.AttemptsGoOn (c.pump g) := by
  have hchange := pumpChange_pump c g
  generalize c.pump g = d at hchange ⊢
  cases hchange with
  | rests => exact attemptsGoOn_refl c
  | @delivers a message rest hattempt harmed hwaiting =>
      have htaken : c.AttemptsGoOn
          (c.updateConnection g fun k => { k with notifications := rest }) := by
        refine attemptsGoOn_updateAttempt fun b hb => ?_
        obtain rfl : a = b := Option.some.inj (hattempt.symm.trans hb)
        exact Attempt.goesOn_of_move (.receive hwaiting)
      refine htaken.trans (attemptsGoOn_of_attempts ?_)
      exact (workspaceEffect_deliver message).attempts _
  | loses => exact (attemptsGoOn_setPump c g .ended).trans (attemptsGoOn_of_attempts rfl)
  | ends => exact attemptsGoOn_setPump c g .ended

theorem attemptsGoOn_act (c : Client) (event : Event) : c.AttemptsGoOn (c.act event) := by
  cases event with
  | advance span => exact attemptsGoOn_of_attempts rfl
  | invoke operation =>
      refine attemptsGoOn_of_attempts ?_
      rw [act, invoke]
      split <;> rfl
  | poll k => exact attemptsGoOn_poll c k
  | cancel k => exact attemptsGoOn_cancel c k
  | launchFailed g error => exact attemptsGoOn_setLaunch c g _ _ _
  | launchSucceeded g taken process => exact attemptsGoOn_setLaunch c g _ _ _
  | processEnded g => exact attemptsGoOn_endProcess c g
  | connection g action => exact attemptsGoOn_moveConnection c g action
  | complaint line => exact attemptsGoOn_workspaceEffect (workspaceEffect_say _) c
  | pump g => exact attemptsGoOn_pump c g
  | onReady hook => exact attemptsGoOn_workspaceEffect (workspaceEffect_onReady hook) c
  | relayNotification g message =>
      rcases relayNotification_cases c g message with hsame | ⟨-, hnotify⟩
      · rw [hsame]
        exact attemptsGoOn_refl c
      · exact attemptsGoOn_notify? hnotify
  | release => exact attemptsGoOn_of_attempts rfl

/-- What is discarded is aborted, and its process and its pump end. -/
theorem goesOn_discard (a : Attempt) : a.GoesOn (discard a) := by
  unfold discard
  split
  · have hconnection : a.GoesOn { a with connection := a.connection.abort } :=
      Attempt.goesOn_of_move (.connection .abort rfl)
    exact (hconnection.tail (.process _)).tail (.pump _)
  · exact a.goesOn_refl

theorem attempt?_tidy (c : Client) (g : Nat) : c.tidy.attempt? g =
    (c.attempt? g).map fun a => if c.disown.keepsConnection g then a else discard a := by
  have hplace : ∀ i : Nat, c.tidy.attempts[i]? = c.disown.attempts[i]?.map fun a =>
      if c.disown.keepsConnection (i + 1) then a else discard a :=
    fun i => List.getElem?_mapIdx
  have hattempts : c.disown.attempts = c.attempts := by
    unfold disown
    split <;> rfl
  unfold attempt?
  split
  · rfl
  · rename_i hg
    have hnext : g - 1 + 1 = g := by omega
    rw [hplace, hattempts, hnext]

theorem attemptsGoOn_tidy (c : Client) : c.AttemptsGoOn c.tidy where
  goesOn g a ha := by
    rw [attempt?_tidy, ha, Option.map_some]
    split
    · exact ⟨a, rfl, a.goesOn_refl⟩
    · exact ⟨discard a, rfl, goesOn_discard a⟩
  begins g b hnone hb := by
    rw [attempt?_tidy, hnone] at hb
    cases hb

/-- **Every event carries the attempts on.** -/
theorem attemptsGoOn_step (c : Client) (event : Event) : c.AttemptsGoOn (c.step event) :=
  (attemptsGoOn_act c event).trans (attemptsGoOn_tidy _)

theorem attemptsGoOn_run (c : Client) (events : List Event) : c.AttemptsGoOn (c.run events) := by
  induction events generalizing c with
  | nil => exact attemptsGoOn_refl c
  | cons event rest ih => exact (attemptsGoOn_step c event).trans (ih _)

/-- **What every move of an attempt keeps holds of every attempt**, after any events, if it holds at
the beginning. -/
theorem attempt_reached (options : SessionOptions) (processId : Nat) (workspace : Workspace)
    {P : Attempt → Prop} (hnew : P {}) (hmove : ∀ a b : Attempt, P a → a.Move b → P b)
    (events : List Event) {g : Nat} {a : Attempt}
    (ha : ((Client.new options processId workspace).run events).attempt? g = some a) : P a := by
  have hnone : (Client.new options processId workspace).attempt? g = none := by
    simp [attempt?, Client.new]
  have hbegun :=
    (attemptsGoOn_run (Client.new options processId workspace) events).begins g a hnone ha
  exact Attempt.goesOn_keeps hmove hbegun hnew

end Client

/-! ### Connections that have ended -/

namespace Connection

/-- A connection that has ended stays so, and its loop flags it closed only when it ends. -/
structure StaysEnded (c d : Connection) : Prop where
  isOpen : d.isOpen → c.isOpen
  closed : d.closed = c.closed ∨ d.closed ∧ d.isOpen = false

variable {c d : Connection}

theorem staysEnded_same (hloop : d.loop = c.loop) (hclosed : d.closed = c.closed) :
    c.StaysEnded d where
  isOpen h := by rwa [isOpen, hloop] at h
  closed := .inl hclosed

theorem staysEnded_closeCalls (c : Connection) : c.StaysEnded c.closeCalls where
  isOpen h := by cases h
  closed := .inl (by rw [closeCalls_eq])

theorem staysEnded_teardown (c : Connection) : c.StaysEnded c.teardown where
  isOpen h := by cases h
  closed := .inr ⟨rfl, rfl⟩

/-- **No step opens a connection that has ended**, and every step that flags one closed ends it. -/
theorem staysEnded_step? {action : Action} (h : c.step? action = some d) : c.StaysEnded d := by
  cases transition_of_step h with
  | start hcreated hkept => exact ⟨fun _ => by simp [isOpen, hcreated], .inl rfl⟩
  | handle value rest after hruns hfree hinbox haccepts =>
      have hintake := intake_of_acceptance haccepts
      exact staysEnded_same (congrArg Intake.loop hintake) (congrArg Intake.closed hintake)
  | breakOff | fault | finish => exact staysEnded_teardown c
  | remove haborted hopen => exact staysEnded_closeCalls c
  | request | notify | settle | forget | take | find | lose | skip | fail | stop | write | wrote
    | abort | receive | endOfStream | stopReading => exact staysEnded_same rfl rfl

end Connection

theorem Attempt.staysEnded_move {a b : Attempt} (h : a.Move b) :
    a.connection.StaysEnded b.connection := by
  cases h with
  | launch launch taken process h => exact Connection.staysEnded_same rfl rfl
  | connection action h => exact Connection.staysEnded_step? h
  | receive h => exact Connection.staysEnded_same rfl rfl
  | process process => exact Connection.staysEnded_same rfl rfl
  | pump pump => exact Connection.staysEnded_same rfl rfl

/-- The loop of a connection that is flagged closed has ended. -/
def Attempt.EndsBeforeClosed (a : Attempt) : Prop := a.connection.closed → a.connection.isOpen = false

theorem Attempt.endsBeforeClosed_move {a b : Attempt} (h : a.EndsBeforeClosed) (hm : a.Move b) :
    b.EndsBeforeClosed := by
  intro hafter
  obtain ⟨hopen, hsame | ⟨-, hended⟩⟩ := Attempt.staysEnded_move hm
  · have hnot := h (hsame ▸ hafter)
    rw [Bool.eq_false_iff] at hnot ⊢
    exact fun h => hnot (hopen h)
  · exact hended

namespace Client

/-- Whether the connection of a generation is flagged closed. -/
def isClosed (c : Client) (g : Nat) : Bool := (c.connection? g).any Connection.closed

/-- After any events, the loop of a connection that is flagged closed has ended. -/
theorem not_isOpen_of_closed (options : SessionOptions) (processId : Nat) (workspace : Workspace)
    (events : List Event) {g : Nat} {a : Attempt}
    (ha : ((Client.new options processId workspace).run events).attempt? g = some a) :
    a.EndsBeforeClosed :=
  attempt_reached options processId workspace (P := Attempt.EndsBeforeClosed) (fun h => by cases h)
    (fun _ _ => Attempt.endsBeforeClosed_move) events ha

/-- A connection that is flagged closed stays so. -/
theorem isClosed_step (c : Client) (event : Event) {g : Nat} (h : c.isClosed g) :
    (c.step event).isClosed g := by
  unfold isClosed connection? at h ⊢
  cases hattempt : c.attempt? g with
  | none => simp [hattempt] at h
  | some a =>
      obtain ⟨b, hb, hgoes⟩ := (attemptsGoOn_step c event).goesOn g a hattempt
      have hclosed : a.connection.closed := by simpa [hattempt] using h
      have hstays : b.connection.closed := by
        refine Attempt.goesOn_keeps (P := fun a => a.connection.closed) ?_ hgoes hclosed
        intro a b hbefore hmove
        rcases (Attempt.staysEnded_move hmove).closed with hsame | ⟨hclosed, -⟩
        · exact hsame.trans hbefore
        · exact hclosed
      simpa [hb] using hstays

end Client
end LanguageClient
