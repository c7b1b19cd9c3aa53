import LanguageClient.Proofs.Client.FailedStart
import LanguageClient.Proofs.Session.Hooks

/-!
# Every server is introduced first

The first message to a server is the first request, and the second one tells that its answer has been
accepted; whatever anybody else wants to say comes later.  A server whose answer is not accepted hears
nothing more, and its session fails without having been ready.

* `Client.Introduces` — how the talk with a server begins, and what of it the server reads.
* `Client.FailsToStart` — what becomes of a session whose first request fails.
* **`Client.servers_are_introduced_first`** — both hold of every server after any events.
-/

namespace LanguageClient
namespace Client

/-- How the talk with the server of a generation begins. -/
structure Introduces (c : Client) (events : List Event) (g : Nat) : Prop where
  /-- The server gets a beginning of what is said, in order, and besides only answers. -/
  written : c.Delivers events g
  /-- The first request comes first; then, when a result of the server has been accepted, the
  notification that tells so; and only then everything else. -/
  order : c.sent g events = [] ∨ ∃ params : Json, c.sent g events = [.opening params] ∨
    ∃ more : List Said, c.sent g events = .opening params :: .initialized :: more ∧
      (c.run events).Answered g 1
  /-- Whoever holds on to a session talks to the server of that session. -/
  own : ∀ said ∈ c.sent g events, ∀ n, said.voice = .handle n → n = g

/-- What becomes of a session whose first request has failed in the events of the past. -/
structure FailsToStart (c : Client) (past future : List Event) (g : Nat) : Prop where
  /-- At most the first request has been made. -/
  before : c.sent g past = [] ∨ ∃ params : Json, c.sent g past = [.opening params]
  /-- Nothing more is said to the server. -/
  silent : c.sent g (past ++ future) = c.sent g past
  /-- No hook runs for the session. -/
  hooks : ∀ place, (place, g) ∉ (c.run (past ++ future)).setOffs
  /-- It fails without having been ready, at once or when the call that gives its start up has had
  its time. -/
  failed :
    let d := c.run (past ++ future)
    let statuses := d.published.filter (·.generation = g)
    statuses = [⟨g, .starting⟩, ⟨g, .failed⟩] ∨
      statuses = [⟨g, .starting⟩] ∧ ∃ k, d.GivesUp g k ∧ ∃ later : List Event,
        (∀ event ∈ later, (∃ span, event = .advance span) ∨ event = .poll k) ∧
          (d.run later).published = d.published ++ [⟨g, .failed⟩]

section Reached

variable (options : SessionOptions) (processId : Nat) (workspace : Workspace)

theorem introduces_reached (events : List Event) (g : Nat) :
    (Client.new options processId workspace).Introduces events g := by
  obtain ⟨talk, hallows, hagrees⟩ := agreesWith_reached options processId workspace events g
  refine ⟨delivers_reached options processId workspace events g, ?_, ?_⟩
  · rcases Talk.opening_of_allowsAll hallows with
        ⟨hnothing, -⟩ | ⟨params, ⟨hfirst, -⟩ | ⟨more, hmore, htalk⟩⟩
    · exact .inl hnothing
    · exact .inr ⟨params, .inl hfirst⟩
    · exact .inr ⟨params, .inr ⟨more, hmore, hagrees.answered htalk⟩⟩
  · intro said hsaid n hvoice
    exact Talk.handle_of_allowsAll hallows hsaid hvoice

/-- A session of whose server at most the first request has been made has never been ready. -/
theorem unready_of_sent (events : List Event) {g : Nat}
    (h : (Client.new options processId workspace).sent g events = [] ∨
      ∃ params : Json, (Client.new options processId workspace).sent g events = [.opening params]) :
    ⟨g, .ready⟩ ∉ ((Client.new options processId workspace).run events).published := by
  obtain ⟨talk, hallows, hagrees⟩ := agreesWith_reached options processId workspace events g
  intro hready
  have hintroduced := hagrees.ready hready
  rcases Talk.opening_of_allowsAll hallows with ⟨-, rfl⟩ | ⟨params, ⟨-, rfl⟩ | ⟨more, hmore, -⟩⟩
  · cases hintroduced
  · cases hintroduced
  · rcases h with hnothing | ⟨first, hfirst⟩
    · rw [hnothing] at hmore
      cases hmore
    · rw [hfirst] at hmore
      cases hmore

/-- A call that starts a session and does not wait for its server to be launched or to answer gives
the start up. -/
theorem givesUp_of_startOf? {c : Client} {g k : Nat} {call : Call} (hcall : c.calls[k]? = some call)
    (hstart : call.phase.startOf? = some g) (h : (c.speakers g).NobodyLeft) : c.GivesUp g k := by
  refine ⟨call, hcall, ?_⟩
  cases hphase : call.phase with
  | launching n =>
      rw [hphase, Phase.startOf?, Option.some.injEq] at hstart
      exact absurd ⟨k, call, hcall, hstart ▸ hphase⟩ h.launching
  | initializing n id =>
      rw [hphase, Phase.startOf?, Option.some.injEq] at hstart
      exact absurd ⟨k, call, hcall, hstart ▸ hphase⟩ (h.initializing id)
  | abandoning n error deadline =>
      rw [hphase, Phase.startOf?, Option.some.injEq] at hstart
      exact .inl ⟨error, deadline, hstart ▸ rfl⟩
  | reaping n deadline error? =>
      cases error? with
      | none => rw [hphase] at hstart; cases hstart
      | some error =>
          rw [hphase, Phase.startOf?, Option.some.injEq] at hstart
          exact .inr ⟨deadline, error, hstart ▸ rfl⟩
  | _ => rw [hphase] at hstart; cases hstart

theorem failsToStart_reached (past : List Event) (k : Nat) (future : List Event) (g : Nat)
    (hkeeps : (Client.new options processId workspace).keepsTurns (past ++ .poll k :: future))
    (hfails : ((Client.new options processId workspace).run past).failsHandshake g k) :
    (Client.new options processId workspace).FailsToStart past (.poll k :: future) g := by
  obtain ⟨talk, hallows, hagrees⟩ := agreesWith_reached options processId workspace past g
  obtain ⟨hover, hutters, htalk⟩ :=
    nobodyLeft_fails (isConsistent_reached options processId workspace past) hagrees hfails
  -- Nothing is said in the event in which the call takes notice, and nothing after it.
  have hnow : (Client.new options processId workspace).sent g (past ++ [.poll k]) =
      (Client.new options processId workspace).sent g past := by
    rw [sent_append, sent, sent, hutters, List.append_nil, List.append_nil]
  have hover' :
      (((Client.new options processId workspace).run (past ++ [.poll k])).speakers g).NobodyLeft := by
    rw [run_append]
    exact hover
  obtain ⟨hsilent, hlast⟩ :=
    nobodyLeft_reached options processId workspace (past ++ [.poll k]) future g hover'
  rw [hnow, List.append_assoc, List.singleton_append] at hsilent
  rw [List.append_assoc, List.singleton_append] at hlast
  have hbefore : (Client.new options processId workspace).sent g past = [] ∨
      ∃ params : Json, (Client.new options processId workspace).sent g past = [.opening params] := by
    rcases Talk.opening_of_allowsAll hallows with
        ⟨hnothing, -⟩ | ⟨params, ⟨hfirst, -⟩ | ⟨more, -, hlater⟩⟩
    · exact .inl hnothing
    · exact .inr ⟨params, hfirst⟩
    · rw [htalk] at hlater
      cases hlater
  have hunready := unready_of_sent options processId workspace (past ++ .poll k :: future)
    (hsilent ▸ hbefore)
  have horderly := orderly_reached options processId workspace (past ++ .poll k :: future)
  have hchronicle :=
    hasChronicle_run (orderly_new options processId workspace) Life.hasChronicle_empty hkeeps
  refine ⟨hbefore, hsilent, ?_, ?_⟩
  · intro place
    have hsets :=
      setsOff_run (orderly_new options processId workspace) Life.hasChronicle_empty rfl hkeeps
    exact List.count_eq_zero.mp (hsets.never g hunready place)
  · refine (Life.statuses_of_hasChronicle horderly hchronicle ((isSome_attempt? _ g).mp hlast.begun)
      hunready).imp_right ?_
    rintro ⟨hstatuses, i, call, hcall, hstart⟩
    have hgives := givesUp_of_startOf? hcall hstart hlast
    exact ⟨hstatuses, i, hgives, failed_in_time hgives⟩

/-- **Every server is introduced first.**  After any events, what is said to a server begins with the
first request and goes on with the notification that its answer has been accepted, and everything else
comes later; what somebody says by a session is said to the server of that session.  If no turn is
dropped, a server whose first request fails hears nothing more, no hook runs for it, and its session
fails without having been ready. -/
theorem servers_are_introduced_first (events : List Event) (g : Nat) :
    (Client.new options processId workspace).Introduces events g ∧
      ((Client.new options processId workspace).keepsTurns events →
        ∀ (past : List Event) (k : Nat) (future : List Event), events = past ++ .poll k :: future →
          ((Client.new options processId workspace).run past).failsHandshake g k →
            (Client.new options processId workspace).FailsToStart past (.poll k :: future) g) := by
  refine ⟨introduces_reached options processId workspace events g, ?_⟩
  rintro hkeeps past k future rfl hfails
  exact failsToStart_reached options processId workspace past k future g hkeeps hfails

end Reached

/-- A server refuses to be initialized, and a notification to its session comes too late. -/
theorem introduction_that_is_refused :
    let refusal : Json := .obj [("id", .ofNat 1),
      ("error", .obj [("code", .ofNat 1), ("message", .str "no")])]
    let past : List Event := [.invoke .start, .poll 0, .launchSucceeded 1 false false, .poll 0,
      .connection 1 .start, .connection 1 .write, .connection 1 .finish,
      .connection 1 (.receive (Frame.encode refusal)), .connection 1 .read, .connection 1 .handle]
    let future : List Event := [.relayNotification 1 ⟨"late", .null⟩, .advance 10000, .poll 0]
    let c : Client := Client.new {} 0 {}
    c.keepsTurns (past ++ .poll 0 :: future) ∧ (c.run past).failsHandshake 1 0 ∧
      (c.sent 1 past).map Said.voice = [.lifeCycle] ∧
      (c.run (past ++ .poll 0 :: future)).published = [⟨1, .starting⟩, ⟨1, .failed⟩] ∧
      c.Introduces (past ++ .poll 0 :: future) 1 ∧ c.FailsToStart past (.poll 0 :: future) 1 := by
  intro refusal past future c
  have hkeeps : c.keepsTurns (past ++ .poll 0 :: future) := by decide +kernel
  have hfails : (c.run past).failsHandshake 1 0 := by decide +kernel
  obtain ⟨hintroduces, hstarts⟩ :=
    servers_are_introduced_first {} 0 {} (past ++ .poll 0 :: future) 1
  exact ⟨hkeeps, hfails, by decide +kernel, by decide +kernel, hintroduces,
    hstarts hkeeps past 0 future rfl hfails⟩

end Client
end LanguageClient
