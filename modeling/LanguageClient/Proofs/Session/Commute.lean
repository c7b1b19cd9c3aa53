import LanguageClient.Proofs.Session.Postponed

/-!
# Every event happens alike in the view

Apart from the polls after which a call still waits, an event does the same to a client and to its
unqueued view.

* `Client.unqueued_cancel`, `Client.unqueued_invoke`, `Client.isBeside_act` — events that are no polls.
* `Client.unqueued_tidy` — what nobody keeps goes away alike.
* `Client.postpones` — the call still waits after a poll.
* **`Client.unqueued_step`** — an event that postpones nothing is an event of the view, and any other
  leaves the view as it was.
-/

namespace LanguageClient
namespace Client

variable {c : Client} {k : Nat} {call : Call}

/-! ### Events that take no notice of lock and calls -/

theorem isBeside_setLaunch (g : Nat) (launch : Launch) (taken : Bool) (process : Process) :
    IsBeside fun c => c.setLaunch g launch taken process :=
  fun c b => updateAttempt_amid c b g _

theorem isBeside_moveConnection (g : Nat) (action : Connection.Action) :
    IsBeside fun c => c.moveConnection g action := by
  intro c b
  have hattempt : (c.amid b).attempt? g = c.attempt? g := rfl
  dsimp only
  unfold moveConnection
  rw [hattempt]
  split
  · split
    · split
      · exact updateConnection_amid c b g _
      · rfl
    · rfl
  · rfl

theorem isBeside_connectionLost (g : Nat) : IsBeside fun c => c.connectionLost g := by
  intro c b
  have hslot : (c.amid b).slot = c.slot := rfl
  dsimp only
  unfold connectionLost
  rw [hslot]
  split <;> rfl

theorem isBeside_pump (g : Nat) : IsBeside fun c => c.pump g := by
  intro c b
  have hattempt : (c.amid b).attempt? g = c.attempt? g := rfl
  dsimp only
  unfold pump
  rw [hattempt]
  split
  · split
    · rename_i message rest _
      have hdeliver := (isBeside_of_workspaceEffect (workspaceEffect_deliver message)).comp
        (isBeside_of_workspaceEffect
          (workspaceEffect_note (.delivered g message) (by simp) (by simp)))
      rw [updateConnection_amid]
      exact hdeliver _ b
    · split
      · rfl
      · rw [setPump_amid]
        exact isBeside_connectionLost g _ b
  · rfl

/-! ### Callers -/

theorem isHeld_unqueued (hp : c.Plain) : c.unqueued.isHeld = c.isHeld := by
  have hany : c.unqueued.calls.any Call.holdsClient = c.calls.any Call.holdsClient := by
    simp only [unqueued, List.any_map]
    rw [Bool.eq_iff_iff, List.any_eq_true, List.any_eq_true]
    refine exists_congr fun call => and_congr_right fun hmem => ?_
    obtain ⟨i, hi⟩ := List.mem_iff_getElem?.mp hmem
    rw [Function.comp, Call.holdsClient_unqueued (hp i call hi)]
  unfold isHeld
  rw [hany]
  rfl

theorem hasSession_unqueued (c : Client) (g : Nat) : c.unqueued.hasSession g = c.hasSession g := by
  simp only [hasSession, unqueued, List.any_map]
  congr 2
  funext call
  simp [Call.unqueued]

theorem keepsConnection_unqueued (c : Client) (g : Nat) :
    c.unqueued.keepsConnection g = c.keepsConnection g := by
  simp only [keepsConnection, unqueued, List.any_map]
  congr 2
  funext call
  simp [Call.unqueued]

theorem unqueued_invoke (hp : c.Plain) (operation : Operation) :
    (c.invoke operation).unqueued = c.unqueued.invoke operation := by
  unfold invoke
  rw [isHeld_unqueued hp]
  split
  · have hholder : ({ c with calls := c.calls ++ [{ operation }] } : Client).turnHolder? =
        c.turnHolder? := by
      unfold turnHolder?
      dsimp only
      congr 1
      funext i
      rw [List.getElem?_append]
      split
      · rfl
      · rename_i hlong
        have hnone : c.calls[i]? = none := List.getElem?_eq_none (by omega)
        rw [hnone]
        cases hnew : [({ operation } : Call)][i - c.calls.length]? with
        | none => rfl
        | some call =>
            obtain ⟨-, rfl⟩ := by simpa [List.getElem?_singleton] using hnew
            rfl
    unfold unqueued
    rw [hholder]
    simp only [List.map_append]
    rfl
  · rfl

theorem plain_invoke (hp : c.Plain) {operation : Operation} (hop : operation.isPlain) :
    (c.invoke operation).Plain := by
  unfold invoke
  split
  · intro i call hcall
    rw [List.getElem?_append] at hcall
    split at hcall
    · exact hp i call hcall
    · obtain ⟨-, rfl⟩ := by simpa [List.getElem?_singleton] using hcall
      refine ⟨hop, ?_, ?_⟩
      · rintro (hphase | hphase) <;> cases hphase
      · rintro (hphase | ⟨seen, hphase⟩) <;> cases hphase
  · exact hp

/-- The request that a call waits for is forgotten. -/
def forgetExchange (c : Client) : Option (Nat × Nat) → Client
  | some (g, id) => c.forget g id
  | none => c

theorem isBeside_forgetExchange (exchange? : Option (Nat × Nat)) :
    IsBeside fun c => c.forgetExchange exchange? := by
  intro c b
  cases exchange? with
  | none => rfl
  | some exchange =>
      exact updateConnection_amid c b exchange.1 fun connection => connection.forget exchange.2

/-- A caller goes away: something happens beside lock and calls, and the call leaves the line. -/
theorem cancel_eq (hcall : c.calls[k]? = some call) (hover : call.phase.isOver = false) :
    c.cancel k = (((c.forgetExchange call.phase.exchange?).endProgress k).amid
      { c with lock := c.lock.leave k }).setPhase k .dropped := by
  have hsame : c.forgetExchange call.phase.exchange? =
      (c.forgetExchange call.phase.exchange?).amid c :=
    eq_amid_of_beside (isBeside_forgetExchange _) c
  have hcancel : c.cancel k = (({ c.forgetExchange call.phase.exchange? with
      lock := (c.forgetExchange call.phase.exchange?).lock.leave k } : Client).endProgress
      k).setPhase k .dropped := by
    unfold cancel
    rw [hcall]
    dsimp only
    rw [if_neg (by simp [hover])]
    rfl
  have hleave : ({ c.forgetExchange call.phase.exchange? with
      lock := (c.forgetExchange call.phase.exchange?).lock.leave k } : Client) =
      (c.forgetExchange call.phase.exchange?).amid { c with lock := c.lock.leave k } := by
    rw [hsame]
    rfl
  rw [hcancel, hleave]
  congr 1
  exact isBeside_of_workspaceEffect (workspaceEffect_endProgress k) _ _

/-- In the view the lock becomes free when the call that leaves had its turn, and stays as it is
otherwise. -/
theorem lock_unqueued_cancel (h : c.life.Orderly) (hcall : c.calls[k]? = some call) :
    (⟨(({ c with lock := c.lock.leave k } : Client).setPhase k .dropped).turnHolder?, []⟩ : Lock) =
      c.unqueued.lock.leave k := by
  cases hturn : call.phase.isTurn with
  | true =>
      -- The lock may go to a call that waits, but that has not begun its turn.
      have hholder : c.lock.holder? = some k := (h.turn k call hcall hturn).1
      have hnobody : (({ c with lock := c.lock.leave k } : Client).setPhase k
          .dropped).turnHolder? = none := by
        refine turnHolder?_of_nobody ?_
        intro i other hother
        by_cases hi : k = i
        · subst hi
          obtain rfl : { call with phase := .dropped } = other := by
            simpa [setPhase, hcall] using hother
          rfl
        · have hother' : c.calls[i]? = some other := by simpa [setPhase, hi] using hother
          exact Life.not_isTurn_of_holder? h hholder (Ne.symm hi) hother'
      rw [hnobody, unqueued_of_turn hcall hholder hturn]
      simp [unqueuedFor, Lock.leave, Lock.release]
  | false =>
      have hsame : (({ c with lock := c.lock.leave k } : Client).setPhase k
          .dropped).turnHolder? = c.turnHolder? :=
        (turnHolder?_setPhase (c := { c with lock := c.lock.leave k }) hcall hturn rfl).trans
          (turnHolder?_leave h hcall hturn)
      have hne : c.turnHolder? ≠ some k := by
        intro hholder
        obtain ⟨-, hany⟩ := Option.filter_eq_some_iff.mp hholder
        simp [hcall, hturn] at hany
      rw [hsame]
      simp [unqueued, Lock.leave, hne]

theorem unqueued_cancel (h : c.life.Orderly) (k : Nat) :
    (c.cancel k).unqueued = c.unqueued.cancel k := by
  cases hcall : c.calls[k]? with
  | none =>
      have hview : c.unqueued.calls[k]? = none := by rw [getElem?_unqueued, hcall]; rfl
      simp only [cancel, hcall, hview]
  | some call =>
      have hview : c.unqueued.calls[k]? = some call.unqueued := by
        rw [getElem?_unqueued, hcall]
        rfl
      have hover' : call.unqueued.phase.isOver = call.phase.isOver :=
        Phase.isOver_unqueued call.phase
      cases hover : call.phase.isOver with
      | true =>
          rw [hover] at hover'
          simp only [cancel, hcall, hview, hover, hover', if_true]
      | false =>
          rw [hover] at hover'
          have hexchange : call.unqueued.phase.exchange? = call.phase.exchange? :=
            Phase.exchange?_unqueued call.phase
          have hf : IsBeside fun c => (c.forgetExchange call.phase.exchange?).endProgress k :=
            (isBeside_of_workspaceEffect (workspaceEffect_endProgress k)).comp
              (isBeside_forgetExchange _)
          have heffect : (c.unqueued.forgetExchange call.phase.exchange?).endProgress k =
              ((c.forgetExchange call.phase.exchange?).endProgress k).amid c.unqueued :=
            hf c c.unqueued
          have hlock := lock_unqueued_cancel h hcall
          rw [cancel_eq hcall hover, cancel_eq hview hover', hexchange, heffect]
          generalize (c.forgetExchange call.phase.exchange?).endProgress k = d
          have hcalls := map_unqueued_modify c.calls k .dropped
          have hleft : ((d.amid { c with lock := c.lock.leave k }).setPhase k .dropped).unqueued =
              (d.amid { c with
                lock := ⟨(({ c with lock := c.lock.leave k } : Client).setPhase k
                  .dropped).turnHolder?, []⟩
                calls := (c.calls.modify k fun call => { call with phase := .dropped }).map
                  Call.unqueued }) := rfl
          rw [hleft, hlock, hcalls]
          rfl

theorem plain_cancel (hp : c.Plain) (k : Nat) : (c.cancel k).Plain := by
  rcases cancel_cases c k with ⟨hsame, -⟩ | ⟨call, -, hcall, hover, -⟩
  · rwa [hsame]
  · rw [cancel_eq hcall hover]
    have hdropped : ({ call with phase := .dropped } : Call).IsPlain := by
      refine ⟨(hp k call hcall).plain, ?_, ?_⟩
      · rintro (hphase | hphase) <;> cases hphase
      · rintro (hphase | ⟨seen, hphase⟩) <;> cases hphase
    exact plain_setPhase hp hcall hdropped rfl

/-! ### Notifications -/

theorem relayNotification_unqueued (c : Client) (g : Nat) (message : Notification) :
    c.unqueued.act (.relayNotification g message) =
      (c.act (.relayNotification g message)).amid c.unqueued := by
  have hnotify : c.unqueued.notify? g message = (c.notify? g message).map (amid · c.unqueued) :=
    notify?_amid c c.unqueued g message
  simp only [act, relayNotification, hasSession_unqueued, hnotify]
  cases c.hasSession g with
  | false => rfl
  | true => cases c.notify? g message <;> rfl

/-! ### What nobody keeps -/

theorem unqueued_tidy (hp : c.Plain) : c.tidy.unqueued = c.unqueued.tidy := by
  have hdisown : c.disown.unqueued = c.unqueued.disown := by
    unfold disown
    rw [isHeld_unqueued hp]
    split <;> rfl
  have hsweep : ∀ c : Client, c.sweep.unqueued = c.unqueued.sweep := by
    intro c
    unfold sweep
    simp only [keepsConnection_unqueued]
    rfl
  rw [tidy_eq_sweep, hsweep, hdisown]
  rfl

theorem plain_tidy (hp : c.Plain) : c.tidy.Plain := plain_of_calls hp (tidy_calls c)

/-! ### Every event -/

/-- Whether an event asks for nothing but what is plain. -/
def Event.isPlain : Event → Bool
  | invoke operation => operation.isPlain
  | _ => true

/-- Whether the call that an event polls still waits after it. -/
def postpones (c : Client) : Event → Bool
  | .poll k => (c.step (.poll k)).isPatient k
  | _ => false

/-- Whether an event takes no notice of lock and calls. -/
def Event.isBeside : Event → Bool
  | invoke _ => false
  | poll _ => false
  | cancel _ => false
  | relayNotification _ _ => false
  | release => false
  | _ => true

theorem isBeside_act {event : Event} (h : event.isBeside) : IsBeside fun c => c.act event := by
  cases event with
  | advance span => exact fun _ _ => rfl
  | launchFailed g error => exact isBeside_setLaunch g _ _ _
  | launchSucceeded g taken process => exact isBeside_setLaunch g _ _ _
  | processEnded g => exact fun c b => endProcess_amid c b g
  | connection g action => exact isBeside_moveConnection g action
  | complaint line => exact isBeside_of_workspaceEffect (workspaceEffect_say _)
  | pump g => exact isBeside_pump g
  | onReady hook => exact isBeside_of_workspaceEffect (workspaceEffect_onReady hook)
  | _ => cases h

/-- What a client does before what nobody keeps goes away. -/
theorem unqueued_act (h : c.life.Orderly) (hp : c.Plain) {event : Event} (hevent : event.isPlain)
    (hpoll : ∀ k, event ≠ .poll k) :
    (c.act event).Plain ∧ (c.act event).unqueued = c.unqueued.act event := by
  cases hbeside : event.isBeside with
  | true =>
      have hact := isBeside_act hbeside
      exact ⟨plain_of_beside hp hact, unqueued_of_beside hact c⟩
  | false =>
      cases event with
      | invoke operation => exact ⟨plain_invoke hp hevent, unqueued_invoke hp operation⟩
      | poll k => exact absurd rfl (hpoll k)
      | cancel k => exact ⟨plain_cancel hp k, unqueued_cancel h k⟩
      | relayNotification g message =>
          have hlife := life_act_relayNotification c g message
          refine ⟨plain_of_calls hp (congrArg Life.calls hlife), ?_⟩
          rw [relayNotification_unqueued]
          exact unqueued_amid (congrArg Life.lock hlife) (congrArg Life.calls hlife)
            (congrArg Life.released hlife)
      | release => exact ⟨plain_of_calls hp rfl, rfl⟩
      | _ => cases hbeside

/-- **Every event happens alike in the view**, unless it is a poll after which the call still
waits; such a poll leaves the view as it was. -/
theorem unqueued_step (h : c.life.Orderly) (hp : c.Plain) (htidy : c.tidy = c) {event : Event}
    (hevent : event.isPlain) :
    (c.step event).Plain ∧ (c.step event).unqueued =
      if c.postpones event then c.unqueued else c.unqueued.step event := by
  have hpolled : ∀ k, (c.step (.poll k)).Plain ∧ (c.step (.poll k)).unqueued =
      if (c.step (.poll k)).isPatient k then c.unqueued else c.unqueued.step (.poll k) := by
    intro k
    have hafter := viewAfter_poll h hp k
    have hpatient : (c.step (.poll k)).isPatient k = (c.poll k).isPatient k := by
      simp [isPatient, step, act]
    have hview : (c.step (.poll k)).unqueued = (c.poll k).unqueued.tidy :=
      unqueued_tidy hafter.plain
    refine ⟨plain_tidy hafter.plain, ?_⟩
    rw [hpatient, hview]
    split
    · rename_i hwaits
      rw [hafter.waits hwaits, ← unqueued_tidy hp, htidy]
    · rename_i hgoes
      rw [hafter.goes (by simpa using hgoes)]
      rfl
  have hother : (∀ k, event ≠ .poll k) →
      (c.step event).Plain ∧ (c.step event).unqueued = c.unqueued.step event := by
    intro hpoll
    obtain ⟨hplain, hview⟩ := unqueued_act h hp hevent hpoll
    refine ⟨plain_tidy hplain, ?_⟩
    unfold step
    rw [unqueued_tidy hplain, hview]
  cases event with
  | poll k => exact hpolled k
  | _ => exact hother (by simp)

end Client
end LanguageClient
