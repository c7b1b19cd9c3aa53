import LanguageClient.Client.Step

/-!
# What single events of a client change

A caller goes away, somebody sends a notification, a connection takes a step, or a pump has its turn.  What each of these can come
to is said here once, with the conditions; whatever holds of a client is shown from these cases.

* `Client.cancel_cases` — nothing, or the call leaves the lock and its line.
* `Client.relayNotification_cases` — nothing, or the connection takes the notification.
* `Client.moveConnection_cases` — nothing, or the connection takes its step.
* `Client.PumpChange`, **`Client.pumpChange_pump`** — what a pump comes to.
-/

namespace LanguageClient
namespace Client

/-- The caller of a call that is over does nothing by going away; any other call forgets its request,
if it has one, and leaves. -/
theorem cancel_cases (c : Client) (k : Nat) :
    (c.cancel k = c ∧ ∀ call : Call, c.calls[k]? = some call → call.phase.isOver) ∨
    ∃ (call : Call) (d : Client), c.calls[k]? = some call ∧ call.phase.isOver = false ∧
      (d = c ∨ ∃ g id, d = c.forget g id) ∧
        c.cancel k = ({ d with lock := d.lock.leave k }.endProgress k).setPhase k .dropped := by
  unfold cancel
  cases hcall : c.calls[k]? with
  | none => exact .inl ⟨rfl, nofun⟩
  | some call =>
      dsimp only
      split
      · rename_i hover
        refine .inl ⟨rfl, ?_⟩
        rintro _ ⟨⟩
        exact hover
      · rename_i hover
        refine .inr ⟨call, _, rfl, by simpa using hover, ?_, rfl⟩
        cases call.phase.exchange? with
        | none => exact .inl rfl
        | some exchange => exact .inr ⟨exchange.1, exchange.2, rfl⟩

/-- A notification that somebody sends by a session is refused and changes nothing, or it is taken by
the connection of the session, which somebody keeps. -/
theorem relayNotification_cases (c : Client) (g : Nat) (message : Notification) :
    c.act (.relayNotification g message) = c ∨
      c.hasSession g ∧ c.notify? g message = some (c.act (.relayNotification g message)) := by
  cases hkept : c.hasSession g with
  | false => exact .inl (by simp [act, relayNotification, hkept])
  | true =>
      cases hnotify : c.notify? g message with
      | none => exact .inl (by simp [act, relayNotification, hkept, hnotify])
      | some d => exact .inr ⟨rfl, by simp [act, relayNotification, hkept, hnotify]⟩

/-- A connection takes a step, or it cannot take it and nothing happens. -/
theorem moveConnection_cases (c : Client) (g : Nat) (action : Connection.Action) :
    (c.moveConnection g action = c ∧ ∀ a, c.attempt? g = some a → a.launch = .connected →
      action.isSpontaneous → a.connection.step? action = none) ∨
    ∃ (a : Attempt) (k : Connection), c.attempt? g = some a ∧ a.launch = .connected ∧
      action.isSpontaneous ∧ a.connection.step? action = some k ∧
        c.moveConnection g action = c.updateConnection g fun _ => k := by
  unfold moveConnection
  split
  · rename_i connection process pump hattempt
    split
    · rename_i haction
      cases hstep : connection.step? action with
      | none =>
          refine .inl ⟨rfl, fun a ha _ _ => ?_⟩
          rw [← Option.some.inj (hattempt.symm.trans ha), hstep]
      | some k => exact .inr ⟨_, k, hattempt, rfl, haction, hstep, rfl⟩
    · rename_i haction
      exact .inl ⟨rfl, fun _ _ _ h => absurd h haction⟩
  · rename_i hother
    refine .inl ⟨rfl, fun a ha hlaunch => ?_⟩
    obtain ⟨launch, connection, process, pump⟩ := a
    cases hlaunch
    exact absurd ha (hother connection process pump)

/-- What a pump does: it rests, delivers the notification that came first, or ends.  A session that
is owned is lost when its pump ends. -/
inductive PumpChange (c : Client) (g : Nat) : Client → Prop
  | rests : PumpChange c g c
  | delivers {a : Attempt} {message : Notification} {rest : List Notification}
      (hattempt : c.attempt? g = some a) (harmed : a.pump = .armed)
      (hwaiting : a.connection.notifications = message :: rest) :
      PumpChange c g (((c.updateConnection g fun connection =>
        { connection with notifications := rest }).note (.delivered g message)).deliver message)
  | loses {a : Attempt} (hattempt : c.attempt? g = some a) (harmed : a.pump = .armed)
      (hnone : a.connection.notifications = []) (hended : a.connection.isOpen = false)
      (hslot : c.slot = some g) :
      PumpChange c g ({ c.setPump g .ended with slot := none }.reportFailure g .connectionClosed)
  | ends {a : Attempt} (hattempt : c.attempt? g = some a) (harmed : a.pump = .armed)
      (hnone : a.connection.notifications = []) (hended : a.connection.isOpen = false)
      (hslot : c.slot ≠ some g) : PumpChange c g (c.setPump g .ended)

theorem pumpChange_pump (c : Client) (g : Nat) : c.PumpChange g (c.pump g) := by
  unfold pump
  split
  · rename_i launch connection process hattempt
    split
    · rename_i message rest hwaiting
      exact .delivers hattempt rfl hwaiting
    · rename_i hnone
      split
      · exact .rests
      · rename_i hended
        rw [Bool.not_eq_true] at hended
        have hsame : (c.setPump g .ended).slot = c.slot := by
          unfold setPump updateAttempt
          split <;> rfl
        unfold connectionLost
        rw [hsame]
        split
        · exact .loses hattempt rfl hnone hended ‹_›
        · exact .ends hattempt rfl hnone hended ‹_›
  · exact .rests

end Client
end LanguageClient
