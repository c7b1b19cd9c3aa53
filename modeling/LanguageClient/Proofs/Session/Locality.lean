import LanguageClient.Proofs.Session.Course

/-!
# A turn looks at nobody else

No part of a turn sees or changes the lock, the calls or whether the client has been given away.
Only at the end of a part, in `Client.proceed`, the lock and the call itself change.  Effects on the
workspace and messages to a server are local in the same sense.

* `Client.amid` — a client with the lock and the calls of another one.
* `IsLocal` — a part of a turn that takes no notice of lock and calls.
* `local_beginTurn`, `local_afterLaunch`, `local_afterHandshake`, `local_afterClosing`, … — all
  parts of a turn are local.
* **`exists_isPart`** — in every phase of its turn a call goes on with a local part that obeys the
  judgment of the phase.
-/

namespace LanguageClient

namespace Client

/-- A client with the lock and the calls of `b`. -/
def amid (c b : Client) : Client := { c with lock := b.lock, calls := b.calls, released := b.released }

@[simp] theorem amid_self (c : Client) : c.amid c = c := rfl

end Client

/-- A part of a turn that neither sees nor changes lock and calls. -/
def IsLocal (part : Client → Client × Next) : Prop :=
  ∀ c b : Client, part (c.amid b) = ((part c).1.amid b, (part c).2)

namespace IsLocal

variable {part : Client → Client × Next} (h : IsLocal part) (c : Client)
include h

theorem eq_amid : (part c).1 = (part c).1.amid c := by
  have hself := h c c
  rw [Client.amid_self] at hself
  exact congrArg Prod.fst hself

theorem lock : (part c).1.lock = c.lock := by rw [h.eq_amid]; rfl

theorem calls : (part c).1.calls = c.calls := by rw [h.eq_amid]; rfl

theorem released : (part c).1.released = c.released := by rw [h.eq_amid]; rfl

end IsLocal

namespace Client

/-! ### Effects on the workspace, and messages -/

theorem amid_of_workspaceEffect {f : Client → Client} (hf : WorkspaceEffect f) (c b : Client) :
    f (c.amid b) = (f c).amid b := by
  have hamid : c.amid b = c.onto (c.amid b) := rfl
  rw [hamid, hf.onto, hf.eq_onto c]
  rfl

theorem updateAttempt_amid (c b : Client) (g : Nat) (f : Attempt → Attempt) :
    (c.amid b).updateAttempt g f = (c.updateAttempt g f).amid b := by
  unfold updateAttempt
  split <;> rfl

theorem updateConnection_amid (c b : Client) (g : Nat) (f : Connection → Connection) :
    (c.amid b).updateConnection g f = (c.updateConnection g f).amid b :=
  updateAttempt_amid c b g _

theorem setPump_amid (c b : Client) (g : Nat) (pump : Pump) :
    (c.amid b).setPump g pump = (c.setPump g pump).amid b := updateAttempt_amid c b g _

theorem endProcess_amid (c b : Client) (g : Nat) :
    (c.amid b).endProcess g = (c.endProcess g).amid b := updateAttempt_amid c b g _

theorem send_amid (c b : Client) (g : Nat) (method : String) (params : Json) (span : Nat) :
    (c.amid b).send g method params span =
      ((c.send g method params span).1.amid b, (c.send g method params span).2) := by
  unfold send
  have hconnection : (c.amid b).connection? g = c.connection? g := rfl
  have hnow : (c.amid b).now = c.now := rfl
  rw [hconnection, hnow]
  cases c.connection? g with
  | none => rfl
  | some connection => simp only [updateConnection_amid]

theorem notify?_amid (c b : Client) (g : Nat) (message : Notification) :
    (c.amid b).notify? g message = (c.notify? g message).map (amid · b) := by
  unfold notify?
  have hconnection : (c.amid b).connection? g = c.connection? g := rfl
  rw [hconnection]
  cases (c.connection? g).bind (Connection.notify? · message) with
  | none => rfl
  | some connection => simp only [updateConnection_amid, Option.map_some]

theorem settle?_amid (c b : Client) (g id : Nat) :
    (c.amid b).settle? g id = (c.settle? g id).map fun r => (r.1.amid b, r.2) := by
  unfold settle?
  have hconnection : (c.amid b).connection? g = c.connection? g := rfl
  have hnow : (c.amid b).now = c.now := rfl
  rw [hconnection, hnow]
  cases (c.connection? g).bind (Connection.settle? · c.now id) with
  | none => rfl
  | some r => simp only [updateConnection_amid, Option.map_some]

/-! ### Starts -/

theorem local_startLocked : IsLocal startLocked := by
  intro c b
  unfold startLocked
  have hsession : (c.amid b).session? = c.session? := rfl
  rw [hsession]
  cases c.session? <;> rfl

theorem local_beginHandshake (g : Nat) : IsLocal (beginHandshake · g) := by
  intro c b
  dsimp only
  unfold beginHandshake
  have hconnection : (c.amid b).connection? g = c.connection? g := rfl
  rw [hconnection]
  cases (c.connection? g).bind Connection.take? with
  | none => rfl
  | some connection =>
      simp only [updateConnection_amid, send_amid]
      rfl

theorem local_afterLaunch (g : Nat) : IsLocal (afterLaunch · g) := by
  intro c b
  dsimp only
  unfold afterLaunch
  have hattempt : (c.amid b).attempt? g = c.attempt? g := rfl
  rw [hattempt]
  cases hlaunch : (c.attempt? g).map Attempt.launch with
  | none => rfl
  | some launch =>
      cases launch with
      | awaited => rfl
      | failed error => rfl
      | connected => exact local_beginHandshake g c b

theorem local_install (g : Nat) : IsLocal (install · g) := by
  intro c b
  dsimp only
  unfold install
  dsimp only
  rw [setPump_amid]
  have hconnection : ((c.setPump g .waiting).amid b).connection? g =
      (c.setPump g .waiting).connection? g := rfl
  rw [hconnection]
  split
  · rfl
  · -- The hooks run on a client that differs only in what they do not see.
    have hready : (({ (c.setPump g .waiting).amid b with slot := some g } : Client).publish g
        .ready) = (({ c.setPump g .waiting with slot := some g } : Client).publish g .ready).amid b :=
      rfl
    rw [hready, amid_of_workspaceEffect (workspaceEffect_runHooks g), setPump_amid]

theorem local_afterHandshake (g id : Nat) : IsLocal (afterHandshake · g id) := by
  intro c b
  dsimp only
  unfold afterHandshake
  rw [settle?_amid]
  cases hsettle : c.settle? g id with
  | none => rfl
  | some r =>
      obtain ⟨c', outcome⟩ := r
      cases outcome with
      | error error => rfl
      | ok result =>
          simp only [Option.map_some]
          split
          · rw [notify?_amid]
            cases c'.notify? g ⟨Method.initialized, Handshake.noParams⟩ with
            | none => rfl
            | some c'' => exact local_install g c'' b
          · rfl

/-! ### Stops -/

theorem local_afterStop (operation : Operation) : IsLocal (afterStop · operation) := by
  intro c b
  cases operation with
  | stop => rfl
  | _ => exact local_startLocked c b

theorem local_stopLocked (operation : Operation) : IsLocal (stopLocked · operation) := by
  intro c b
  dsimp only
  unfold stopLocked
  have hslot : (c.amid b).slot = c.slot := rfl
  rw [hslot]
  cases c.slot with
  | none => exact local_afterStop operation c b
  | some g =>
      have hsend := send_amid { c with slot := none } b g Method.shutdown .null c.options.stopGrace
      dsimp only
      exact congrArg (fun r : Client × Nat => (r.1, Next.waits (.stopping g r.2))) hsend

theorem local_afterShutdown (g id : Nat) : IsLocal (afterShutdown · g id) := by
  intro c b
  dsimp only
  unfold afterShutdown
  rw [settle?_amid]
  cases c.settle? g id with
  | none => rfl
  | some r =>
      obtain ⟨c', outcome⟩ := r
      cases outcome with
      | error error => rfl
      | ok result =>
          simp only [Option.map_some, notify?_amid]
          cases c'.notify? g ⟨Method.exit, .null⟩ <;> rfl

theorem local_afterClose (operation : Operation) (g : Nat) (error? : Option SessionError) :
    IsLocal (afterClose · operation g error?) := by
  intro c b
  cases error? with
  | some error => rfl
  | none =>
      simp only [afterClose, setPump_amid]
      exact local_afterStop operation ((c.setPump g .ended).publish g .stopped) b

theorem local_reap (operation : Operation) (g : Nat) (error? : Option SessionError) :
    IsLocal (reap · operation g error?) := by
  intro c b
  dsimp only
  unfold reap
  simp only [updateConnection_amid]
  have hprocess : ((c.updateConnection g Connection.abort).amid b).hasProcess g =
      (c.updateConnection g Connection.abort).hasProcess g := rfl
  rw [hprocess]
  split
  · rfl
  · exact local_afterClose operation g error? _ b

theorem local_afterAbandoning (operation : Operation) (g : Nat) (error : SessionError)
    (deadline : Nat) : IsLocal (afterAbandoning · operation g error deadline) := by
  intro c b
  dsimp only
  unfold afterAbandoning
  have hover : (c.amid b).closeIsOver g deadline = c.closeIsOver g deadline := rfl
  rw [hover]
  split
  · exact local_reap operation g _ c b
  · rfl

theorem local_afterClosing (operation : Operation) (g deadline : Nat) :
    IsLocal (afterClosing · operation g deadline) := by
  intro c b
  dsimp only
  unfold afterClosing
  have hover : (c.amid b).closeIsOver g deadline = c.closeIsOver g deadline := rfl
  rw [hover]
  split
  · exact local_reap operation g none c b
  · rfl

theorem local_afterReaping (operation : Operation) (g deadline : Nat)
    (error? : Option SessionError) : IsLocal (afterReaping · operation g deadline error?) := by
  intro c b
  dsimp only
  unfold afterReaping
  have hover : (c.amid b).reapIsOver g deadline = c.reapIsOver g deadline := rfl
  rw [hover]
  split
  · rw [endProcess_amid]
    exact local_afterClose operation g error? _ b
  · rfl

theorem local_beginTurn (operation : Operation) : IsLocal (beginTurn · operation) := by
  intro c b
  cases operation with
  | start => exact local_startLocked c b
  | activate => exact local_startLocked c b
  | _ => exact local_stopLocked _ c b

/-! ### Every part of a turn -/

/-- What a call of an operation does in a phase of its turn: a local part that obeys the judgment of
the phase. -/
structure IsPart (part : Client → Client × Next) (operation : Operation) (phase : Phase) :
    Prop where
  isLocal : IsLocal part
  starts : ∀ (c : Client) (g : Nat), phase.startOf? = some g →
    c.course.Starts g (part c).1.course (part c).2
  stops : ∀ (c : Client) (g : Nat), phase.stopOf? = some g →
    c.course.Stops operation g (part c).1.course (part c).2

theorem isPart_of_starts {part : Client → Client × Next} {operation : Operation} {phase : Phase}
    {g : Nat} (hpart : IsLocal part) (hphase : phase.startOf? = some g)
    (h : ∀ c : Client, c.course.Starts g (part c).1.course (part c).2) :
    IsPart part operation phase := by
  refine ⟨hpart, ?_, ?_⟩
  · intro c g' hg'
    rw [hphase, Option.some.injEq] at hg'
    exact hg' ▸ h c
  · intro c g' hg'
    rw [Phase.stopOf?_of_startOf? hphase] at hg'
    cases hg'

theorem isPart_of_stops {part : Client → Client × Next} {operation : Operation} {phase : Phase}
    {g : Nat} (hpart : IsLocal part) (hphase : phase.stopOf? = some g)
    (h : ∀ c : Client, c.course.Stops operation g (part c).1.course (part c).2) :
    IsPart part operation phase := by
  refine ⟨hpart, ?_, ?_⟩
  · intro c g' hg'
    rw [Phase.stopOf?_of_startOf? hg'] at hphase
    cases hphase
  · intro c g' hg'
    rw [hphase, Option.some.injEq] at hg'
    exact hg' ▸ h c

/-- **A call that has its turn goes on with a part of it.** -/
theorem exists_isPart (k : Nat) (operation : Operation) {phase : Phase} (h : phase.isTurn) :
    ∃ part : Client → Client × Next, IsPart part operation phase ∧
      ∀ c : Client, c.goOn k operation phase = proceed k (part c) := by
  cases phase with
  | launching g =>
      exact ⟨_, isPart_of_starts (local_afterLaunch g) rfl (starts_afterLaunch · g), fun _ => rfl⟩
  | initializing g id =>
      exact ⟨_, isPart_of_starts (local_afterHandshake g id) rfl (starts_afterHandshake · g id),
        fun _ => rfl⟩
  | abandoning g error deadline =>
      exact ⟨_, isPart_of_starts (local_afterAbandoning operation g error deadline) rfl
        (starts_afterAbandoning · operation g error deadline), fun _ => rfl⟩
  | stopping g id =>
      exact ⟨_, isPart_of_stops (local_afterShutdown g id) rfl
        (stops_afterShutdown · operation g id), fun _ => rfl⟩
  | closing g deadline =>
      exact ⟨_, isPart_of_stops (local_afterClosing operation g deadline) rfl
        (stops_afterClosing · operation g deadline), fun _ => rfl⟩
  | reaping g deadline error? =>
      have hpart := local_afterReaping operation g deadline error?
      cases error? with
      | some error =>
          exact ⟨_, isPart_of_starts hpart rfl (starts_afterReaping · operation g deadline error),
            fun _ => rfl⟩
      | none =>
          exact ⟨_, isPart_of_stops hpart rfl (stops_afterReaping · operation g deadline),
            fun _ => rfl⟩
  | _ => cases h

end Client

end LanguageClient
