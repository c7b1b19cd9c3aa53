import LanguageClient.Proofs.Client.Conversation

/-!
# How the talk with a server ends

A stop takes the session away and asks the server to come to an end.  From then on the client itself
says nothing more than that the server is to exit.  But the session is in being until the stop has
ended, and whoever holds on to it can talk by it until then.

* `Client.RefusesHandle` — whoever holds on to a session gets an error for whatever they ask for.
* `Client.refusesHandle_of_gone`, `Client.refusesHandle_of_ended` — when the session is gone, and
  when its connection has ended.
* `Client.Concludes` — how the talk with a server ends.
* **`Client.talks_are_concluded`** — so it does, after any events.
* **`Client.handle_talks_after_the_last_request`** — what a session in being can still say.
-/

namespace LanguageClient
namespace Client

variable {c d : Client} {k g : Nat} {call : Call}

/-! ### Sessions that are gone or have ended -/

/-- Whoever holds on to the session of a generation gets an error for whatever they ask for. -/
structure RefusesHandle (c : Client) (g : Nat) (error : SessionError) : Prop where
  /-- A notification is refused. -/
  notify : ∀ message, c.relayNotification g message = .error error
  /-- A request fails when its call begins, or as soon as it goes on after that. -/
  request : ∀ (k : Nat) (call : Call) (method : String) (params : Json), c.calls[k]? = some call →
    call.phase = .fresh → call.operation = .relay g method params →
      (c.run [.poll k, .poll k]).outcome? k = some (.failed error)

theorem poll_of_relay (hcall : c.calls[k]? = some call) (hphase : call.phase = .fresh)
    {method : String} {params : Json} (hop : call.operation = .relay g method params) :
    c.poll k = if c.hasSession g then c.ask k g method params .relay
      else c.finish k (.failed .notRunning) := by
  rw [poll_eq hcall, hphase, hop]
  rfl

/-- **When a session is gone, nothing is running.** -/
theorem refusesHandle_of_gone (h : c.hasSession g = false) : c.RefusesHandle g .notRunning where
  notify message := by rw [relayNotification, if_neg (by simp [h])]
  request k call method params hcall hphase hop := by
    have hpoll := poll_of_relay hcall hphase hop
    rw [if_neg (by simp [h])] at hpoll
    have hover : (c.step (.poll k)).calls[k]? =
        some { call with phase := .finished (.failed .notRunning) } := by
      change (c.poll k).tidy.calls[k]? = _
      rw [tidy_calls, hpoll]
      exact Life.getElem?_setPhase_self (l := c.life) hcall _
    have hidle : (c.step (.poll k)).poll k = c.step (.poll k) := by
      rw [poll_eq hover, if_neg (by simp [canGoOn])]
    change ((c.step (.poll k)).poll k).tidy.outcome? k = _
    rw [hidle, outcome?_of_calls (tidy_calls _) k, outcome?, hover]
    rfl

/-- A request on a connection that has ended has failed after the step in which it is made. -/
theorem settle?_of_ask {a : Attempt} (ha : c.attempt? g = some a)
    (hnumbered : a.connection.IsNumbered) (hended : a.connection.isOpen = false) (k : Nat)
    (method : String) (params : Json) :
    ∃ d : Client, (c.ask k g method params .relay).tidy.settle? g a.connection.nextId =
      some (d, .error .connectionClosed) := by
  let asked := (a.connection.request method params (c.now + c.options.requestTimeout)).1
  have hattempt : (c.ask k g method params .relay).attempt? g =
      some { a with connection := asked } := by
    have hk : c.connection? g = some a.connection := by rw [connection?, ha, Option.map_some]
    unfold ask send
    rw [hk]
    change (c.updateConnection g fun _ => asked).attempt? g = _
    rw [updateConnection, attempt?_updateAttempt, if_pos rfl, ha, Option.map_some]
  have hafter : ∃ k' : Connection, (c.ask k g method params .relay).tidy.connection? g = some k' ∧
      k'.exchanges = asked.exchanges := by
    rw [connection?, attempt?_tidy, hattempt, Option.map_some]
    refine ⟨_, rfl, ?_⟩
    split
    · rfl
    · unfold discard
      split <;> rfl
  obtain ⟨k', hk', hexchanges⟩ := hafter
  obtain ⟨e, hsettle⟩ := Connection.settle?_of_late_request hnumbered hended method params
    (c.now + c.options.requestTimeout) (c.ask k g method params .relay).tidy.now hexchanges
  rw [settle?, hk', Option.bind_some, hsettle]
  exact ⟨_, rfl⟩

/-- **When a connection has ended, it is closed for whoever holds on to the session.** -/
theorem refusesHandle_of_ended {a : Attempt} (hkept : c.hasSession g) (ha : c.attempt? g = some a)
    (hnumbered : a.connection.IsNumbered) (hended : a.connection.isOpen = false) :
    c.RefusesHandle g .connectionClosed where
  notify message := by
    have hk : c.connection? g = some a.connection := by rw [connection?, ha, Option.map_some]
    have hnone : c.notify? g message = none := by
      rw [notify?, hk, Option.bind_some, Connection.notify?, if_neg (by simp [hended])]
    rw [relayNotification, if_pos hkept, hnone]
  request k call method params hcall hphase hop := by
    have hpoll := poll_of_relay hcall hphase hop
    rw [if_pos hkept] at hpoll
    have hstep : c.step (.poll k) = (c.ask k g method params .relay).tidy := congrArg tidy hpoll
    obtain ⟨d, hsettle⟩ := settle?_of_ask ha hnumbered hended k method params
    have hawaiting : (c.step (.poll k)).calls[k]? =
        some { call with phase := .awaiting g a.connection.nextId .relay } := by
      have hlife : (c.ask k g method params .relay).life =
          c.life.setPhase k (.awaiting g a.connection.nextId .relay) := by
        have hk : c.connection? g = some a.connection := by rw [connection?, ha, Option.map_some]
        unfold ask send
        rw [hk, life_setPhase, life_updateConnection]
        rfl
      rw [hstep, tidy_calls]
      exact (congrArg (fun l : Life => l.calls[k]?) hlife).trans
        (Life.getElem?_setPhase_self (l := c.life) hcall _)
    -- The request has failed when the call looks for the answer.
    have hagain : (c.step (.poll k)).poll k = d.finish k (.failed .connectionClosed) := by
      rw [← hstep] at hsettle
      rw [poll_eq hawaiting, if_pos (by rw [canGoOn, hsettle]; rfl), goOn, afterReply, hsettle]
      rfl
    have hcalls : d.calls[k]? =
        some { call with phase := .awaiting g a.connection.nextId .relay } := by
      rw [← hstep] at hsettle
      have hlife := congrArg Life.calls (life_settle? hsettle)
      exact (congrArg (fun calls : List Call => calls[k]?) hlife).trans hawaiting
    change ((c.step (.poll k)).poll k).tidy.outcome? k = _
    have hover : (d.finish k (.failed .connectionClosed)).calls[k]? =
        some { call with phase := .finished (.failed .connectionClosed) } :=
      Life.getElem?_setPhase_self (l := d.life) hcalls _
    rw [hagain, outcome?_of_calls (tidy_calls _) k, outcome?, hover]
    rfl

/-- When a session that has been introduced is gone, nobody has anything to say to its server. -/
theorem nobodyLeft_of_gone {talk : Talk} (h : (c.speakers g).AgreesWith talk)
    (htalk : talk.isIntroduced)
    (hgone : c.hasSession g = false) : (c.speakers g).NobodyLeft := by
  obtain ⟨hbegun, hlaunching, hinitializing⟩ := Speakers.agreesWith_after h htalk
  have hkept : ¬ c.hasSession g := by simp [hgone]
  refine ⟨hbegun, hlaunching, hinitializing, ?_, ?_, hkept⟩
  · exact fun howned => hkept (hasSession_iff.mpr (.inl howned))
  · exact fun id hstopping => hkept (hasSession_iff.mpr (.inr ⟨_, hstopping, rfl⟩))

/-! ### The end of a talk -/

/-- How the talk with the server of a generation ends. -/
structure Concludes (c : Client) (events : List Event) (g : Nat) : Prop where
  /-- The server gets a beginning of what is said, in order, and besides only answers. -/
  written : c.Delivers events g
  /-- After the request of a stop, the client itself says nothing but, at most once, that the server
  is to exit; all else is said by those who hold on to the session. -/
  last : ∀ (before after : List Said) (id : Nat),
    c.sent g events = before ++ .shutdown id :: after →
      (∀ said ∈ after, said.voice = .handle g ∨ said = .exit) ∧
        (after.filter fun said => said.voice = .lifeCycle).length ≤ 1
  /-- When the session is gone, those who hold on to it are refused. -/
  gone : (c.run events).hasSession g = false → (c.run events).RefusesHandle g .notRunning
  /-- So they are while it is in being and its connection has ended. -/
  ended : (c.run events).hasSession g → ((c.run events).mails g).isOpen = false →
    (c.run events).RefusesHandle g .connectionClosed
  /-- After the request of a stop, nothing more is said once the session is gone. -/
  silent : (∃ id, .shutdown id ∈ c.sent g events) → (c.run events).hasSession g = false →
    ∀ future, c.sent g (events ++ future) = c.sent g events
  /-- Nothing more is said once the connection has ended. -/
  closed : ((c.run events).mails g).isOpen = false →
    ∀ future, c.sent g (events ++ future) = c.sent g events

section Reached

variable (options : SessionOptions) (processId : Nat) (workspace : Workspace)

theorem isNumbered_reached (events : List Event) {a : Attempt}
    (ha : ((Client.new options processId workspace).run events).attempt? g = some a) :
    a.connection.IsNumbered := by
  refine attempt_reached options processId workspace (P := fun a => a.connection.IsNumbered)
    (fun _ he => by cases he) ?_ events ha
  intro a b h hm
  cases hm with
  | connection action hstep => exact Connection.isNumbered_step h hstep
  | _ => exact h

/-- **The talk with every server is concluded.**  After any events, when the client has asked a
server to come to an end, it says itself nothing more than, at most once, that the server is to
exit.  As long as the session is in being and its connection has not ended, those who hold on to it
may talk on; then they are refused, and nothing more is said to the server. -/
theorem talks_are_concluded (events : List Event) (g : Nat) :
    (Client.new options processId workspace).Concludes events g := by
  obtain ⟨talk, hallows, hagrees⟩ := agreesWith_reached options processId workspace events g
  have hpoised := isConsistent_reached options processId workspace events
  refine ⟨delivers_reached options processId workspace events g, ?_, refusesHandle_of_gone, ?_, ?_,
    fun hended future => ended_reached options processId workspace events future g hended⟩
  · intro before after id hsent
    rw [hsent] at hallows
    exact Talk.ending_of_allowsAll hallows
  · intro hkept hended
    obtain ⟨a, ha⟩ := Option.isSome_iff_exists.mp (hpoised.kept g hkept)
    have hk : ((Client.new options processId workspace).run events).connection? g =
        some a.connection := by rw [connection?, ha, Option.map_some]
    rw [mails_of_connection? hk] at hended
    exact refusesHandle_of_ended hkept ha (isNumbered_reached options processId workspace events ha)
      hended
  · rintro ⟨id, hshutdown⟩ hgone future
    have hintroduced : talk.isIntroduced := by
      rcases Talk.opening_of_allowsAll hallows with
          ⟨hnothing, -⟩ | ⟨params, ⟨hfirst, -⟩ | ⟨-, -, htalk⟩⟩
      · rw [hnothing] at hshutdown
        cases hshutdown
      · -- The first request is not the last one.
        rw [hfirst, List.mem_singleton, Said.shutdown, Said.opening] at hshutdown
        injection hshutdown with _ hmessage
        injection hmessage with _ hmethod
        exact absurd hmethod (by decide)
      · exact htalk
    exact (nobodyLeft_reached options processId workspace events future g
      (nobodyLeft_of_gone hagrees hintroduced hgone)).1

end Reached

/-- While a stop waits for the answer of the server, somebody who holds on to the session sends a
notification: it is written after the last request, and it is not the one that tells the server to
exit. -/
theorem handle_talks_after_the_last_request :
    let answer : Json :=
      .obj [("id", .ofNat 1), ("result", .obj [("capabilities", .obj [])])]
    let events : List Event := [.invoke .start, .poll 0, .launchSucceeded 1 false false, .poll 0,
      .connection 1 .start, .connection 1 .write, .connection 1 .finish,
      .connection 1 (.receive (Frame.encode answer)), .connection 1 .read, .connection 1 .handle,
      .poll 0, .connection 1 .write, .connection 1 .finish,
      .invoke .stop, .poll 1, .connection 1 .write, .connection 1 .finish,
      .relayNotification 1 ⟨"late", .null⟩, .connection 1 .write, .connection 1 .finish]
    let methods := (((Client.new {} 0 {}).run events).mails 1).written.map fun message =>
      (message.get? "method").bind Json.asString?
    (Client.new {} 0 {}).keepsTurns events ∧
      methods = [some Method.initializeServer, some Method.initialized, some Method.shutdown,
        some "late"] ∧
      ¬ ∀ before after : List (Option String), methods = before ++ some Method.shutdown :: after →
        ∀ method ∈ after, method = none ∨ method = some Method.exit := by
  intro answer events methods
  have hmethods : methods = [some Method.initializeServer, some Method.initialized,
      some Method.shutdown, some "late"] := by decide +kernel
  refine ⟨by decide +kernel, hmethods, fun hclaim => ?_⟩
  have hlate := hclaim [some Method.initializeServer, some Method.initialized] [some "late"]
    hmethods (some "late") List.mem_cons_self
  revert hlate
  decide

end Client
end LanguageClient
