import LanguageClient.Proofs.Client.Attempts
import LanguageClient.Proofs.Client.Speakers
import LanguageClient.Proofs.Connection.Answers

/-!
# The mail of every generation

Every generation has a connection of its own, and with it a mail of its own.  Whatever the client
does leaves all of them as they are, but for the one on which something is handed in.

* `Client.mails` — the mail of the connection of each generation.
* `Client.HandsIn` — something is handed in on one connection.
* `Client.handsIn_send`, `Client.handsIn_notify?` — requests and notifications.
* `Client.mails_settle?`, `Client.mails_tidy`, … — what hands nothing in.
* **`Client.acceptsNothing_moveConnection`** — what a connection does by itself hands nothing in
  either.
-/

namespace LanguageClient
namespace Client

variable {c d e : Client} {g : Nat}

/-- The mail of the connection of a generation; it is empty as long as there is none. -/
def mails (c : Client) (g : Nat) : Mail := (c.connection? g).elim {} Connection.mail

/-- Something is handed in on the connection of a generation. -/
structure HandsIn (c : Client) (g : Nat) (speech : Speech) (d : Client) : Prop where
  self : d.mails g = (c.mails g).hand speech
  others : ∀ i, i ≠ g → d.mails i = c.mails i

theorem handsIn_of_mails {speech : Speech} (h : c.HandsIn g speech d) (hmails : e.mails = d.mails) :
    c.HandsIn g speech e := ⟨hmails ▸ h.self, hmails ▸ h.others⟩

theorem handsIn_after {speech : Speech} (hmails : d.mails = c.mails) (h : d.HandsIn g speech e) :
    c.HandsIn g speech e := ⟨hmails ▸ h.self, hmails ▸ h.others⟩

/-! ### What hands nothing in -/

theorem mails_of_attempts (h : d.attempts = c.attempts) : d.mails = c.mails := by
  funext i
  rw [mails, connection?, attempt?, h, mails, connection?, attempt?]

theorem mails_updateAttempt (c : Client) (g : Nat) {f : Attempt → Attempt}
    (hf : ∀ a, (f a).connection.mail = a.connection.mail) :
    (c.updateAttempt g f).mails = c.mails := by
  funext i
  rw [mails, connection?, attempt?_updateAttempt, mails, connection?]
  split
  · cases c.attempt? i with
    | none => rfl
    | some a => exact hf a
  · rfl

theorem mails_setPump (c : Client) (g : Nat) (pump : Pump) : (c.setPump g pump).mails = c.mails :=
  mails_updateAttempt c g fun _ => rfl

theorem mails_endProcess (c : Client) (g : Nat) : (c.endProcess g).mails = c.mails :=
  mails_updateAttempt c g fun a => by split <;> rfl

theorem mails_setLaunch (c : Client) (g : Nat) (launch : Launch) (taken : Bool)
    (process : Process) : (c.setLaunch g launch taken process).mails = c.mails :=
  mails_updateAttempt c g fun a => by split <;> rfl

theorem mails_forget (c : Client) (g id : Nat) : (c.forget g id).mails = c.mails :=
  mails_updateAttempt c g fun _ => rfl

theorem mails_abort (c : Client) (g : Nat) :
    (c.updateConnection g Connection.abort).mails = c.mails := mails_updateAttempt c g fun _ => rfl

/-- A connection changes and its mail does not. -/
theorem mails_updateConnection {k k' : Connection} (hk : c.connection? g = some k)
    (hmail : k'.mail = k.mail) : (c.updateConnection g fun _ => k').mails = c.mails := by
  funext i
  rw [mails, connection?, updateConnection, attempt?_updateAttempt, mails, connection?]
  split
  · rename_i hi
    subst hi
    rw [connection?] at hk
    cases hattempt : c.attempt? g with
    | none => rfl
    | some a =>
        rw [hattempt, Option.map_some, Option.some.injEq] at hk
        simp [hmail, hk]
  · rfl

theorem mails_settle? {id : Nat} {outcome : Except SessionError Json}
    (h : c.settle? g id = some (d, outcome)) : d.mails = c.mails := by
  obtain ⟨k, _, hk, hsettle, rfl⟩ := settle?_eq_some_iff.mp h
  obtain ⟨-, rfl⟩ := Connection.settle?_eq_some_iff.mp hsettle
  exact mails_updateConnection hk rfl

/-- A new attempt has an empty mail, as its generation had before. -/
theorem mails_startLocked (c : Client) : c.startLocked.1.mails = c.mails := by
  unfold startLocked
  split
  · rfl
  · funext i
    rw [mails, connection?, mails, connection?]
    change (((if i = 0 then none else (c.attempts ++ [({} : Attempt)])[i - 1]?).map
      Attempt.connection).elim {} Connection.mail) = _
    unfold attempt?
    split
    · rfl
    · rw [List.getElem?_append]
      split
      · rfl
      · rename_i hold
        rw [List.getElem?_eq_none (Nat.le_of_not_lt hold), List.getElem?_singleton]
        split <;> rfl

theorem mails_tidy (c : Client) : c.tidy.mails = c.mails := by
  funext i
  rw [mails, connection?, attempt?_tidy, mails, connection?]
  cases c.attempt? i with
  | none => rfl
  | some a =>
      simp only [Option.map_some, Option.elim_some]
      split
      · rfl
      · unfold discard
        split <;> rfl

/-! ### Messages -/

theorem mails_of_connection? {k : Connection} (h : c.connection? g = some k) :
    c.mails g = k.mail := by rw [mails, h, Option.elim_some]

/-- A connection changes in that something is handed in. -/
theorem handsIn_updateConnection {k k' : Connection} {speech : Speech}
    (hk : c.connection? g = some k) (hmail : k'.mail = k.mail.hand speech) :
    c.HandsIn g speech (c.updateConnection g fun _ => k') where
  self := by
    obtain ⟨a, ha, rfl⟩ := Option.map_eq_some_iff.mp hk
    have hk' : (c.updateConnection g fun _ => k').connection? g = some k' := by
      rw [connection?, updateConnection, attempt?_updateAttempt, if_pos rfl, ha]
      rfl
    rw [mails_of_connection? hk, mails_of_connection? hk', hmail]
  others i hi := by
    rw [mails, connection?, updateConnection, attempt?_updateAttempt, if_neg (Ne.symm hi)]
    rfl

/-- A request is handed in, and gets the next number. -/
theorem handsIn_send (hattempt : (c.attempt? g).isSome) (method : String) (params : Json)
    (span : Nat) : c.HandsIn g (.request method params) (c.send g method params span).1 ∧
      (c.send g method params span).2 = (c.mails g).nextId := by
  obtain ⟨a, ha⟩ := Option.isSome_iff_exists.mp hattempt
  have hk : c.connection? g = some a.connection := by rw [connection?, ha, Option.map_some]
  unfold send
  rw [hk, mails_of_connection? hk]
  exact ⟨handsIn_updateConnection hk rfl, rfl⟩

/-- A notification is handed in as long as the connection is open. -/
theorem handsIn_notify? {message : Notification} (h : c.notify? g message = some d) :
    (c.mails g).isOpen ∧ c.HandsIn g (.notify message) d := by
  obtain ⟨k, _, hk, hnotify, rfl⟩ := notify?_eq_some_iff.mp h
  obtain ⟨hopen, rfl⟩ := Connection.notify?_eq_some_iff.mp hnotify
  rw [mails_of_connection? hk]
  refine ⟨hopen, handsIn_updateConnection hk ?_⟩
  exact (Mail.hand_of_open k.mail _ hopen).symm

/-! ### What a connection does by itself -/

end Client

namespace Connection

variable {k k' : Connection} {action : Action}

theorem accepted?_of_isSpontaneous (k : Connection) (hself : action.isSpontaneous) :
    (k.post? action).bind Post.accepted? = none := by
  have hcut : (k.writing?.map Post.cut).bind Post.accepted? = none := by
    cases k.writing? <;> rfl
  cases action with
  | finish =>
      simp only [post?]
      split
      · rfl
      · exact hcut
  | handle =>
      simp only [post?]
      split
      · split <;> rfl
      · rfl
  | remove => exact hcut
  | request method params deadline => cases hself
  | notify message => cases hself
  | _ => rfl

theorem acceptsNothing_step (hself : action.isSpontaneous) (h : k.step? action = some k') :
    k.mail.AcceptsNothing k'.mail := by
  refine ⟨k.post? action, mail_step h, accepted?_of_isSpontaneous k hself, nextId_step h ?_⟩
  rintro method params deadline rfl
  cases hself

end Connection

namespace Client

variable {c d : Client} {g : Nat}

/-- **What a connection does by itself hands nothing in.** -/
theorem acceptsNothing_moveConnection (c : Client) (g : Nat) (action : Connection.Action) (i : Nat) :
    (c.mails i).AcceptsNothing ((c.moveConnection g action).mails i) := by
  rcases moveConnection_cases c g action with ⟨hsame, -⟩ | ⟨a, d, ha, -, hself, hstep, hmoved⟩
  · rw [hsame]
    exact Mail.acceptsNothing_refl _
  · rw [hmoved]
    by_cases hi : g = i
    · subst hi
      have hbefore : c.connection? g = some a.connection := by rw [connection?, ha, Option.map_some]
      have hafter : (c.updateConnection g fun _ => d).connection? g = some d := by
        rw [connection?, updateConnection, attempt?_updateAttempt, if_pos rfl, ha]
        rfl
      rw [mails_of_connection? hbefore, mails_of_connection? hafter]
      exact Connection.acceptsNothing_step hself hstep
    · have hother : (c.updateConnection g fun _ => d).mails i = c.mails i := by
        rw [mails, connection?, updateConnection, attempt?_updateAttempt, if_neg hi]
        rfl
      rw [hother]
      exact Mail.acceptsNothing_refl _

/-! ### Answers -/

/-- The caller of a request on the connection of a generation has an acceptable result. -/
def Answered (c : Client) (g id : Nat) : Prop :=
  ∃ a : Attempt, c.attempt? g = some a ∧ a.connection.Answered id

/-- **Whatever the client does, no answer is taken back.** -/
theorem answered_attemptsGoOn (h : c.AttemptsGoOn d) {id : Nat} (ha : c.Answered g id) :
    d.Answered g id := by
  obtain ⟨a, hattempt, hanswered⟩ := ha
  obtain ⟨b, hb, hgoes⟩ := h.goesOn g a hattempt
  refine ⟨b, hb, ?_⟩
  refine Attempt.goesOn_keeps (P := fun a => a.connection.Answered id) ?_ hgoes hanswered
  intro a b hbefore hmove
  cases hmove with
  | connection action hstep => exact Connection.answered_step hbefore hstep
  | _ => exact hbefore

/-- A caller who takes an acceptable result has it. -/
theorem answered_settle? {id : Nat} {result : Json} (h : c.settle? g id = some (d, .ok result))
    (haccepted : InitializeResult.isAccepted result) : d.Answered g id := by
  obtain ⟨before, after, hbefore, hsettle, rfl⟩ := settle?_eq_some_iff.mp h
  obtain ⟨a, ha, rfl⟩ := Option.map_eq_some_iff.mp hbefore
  refine ⟨{ a with connection := after }, ?_, Connection.answered_settle hsettle haccepted⟩
  rw [updateConnection, attempt?_updateAttempt, if_pos rfl, ha, Option.map_some]

end Client
end LanguageClient
