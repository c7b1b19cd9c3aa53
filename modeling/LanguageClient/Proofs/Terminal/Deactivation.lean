import LanguageClient.Proofs.Session.Standing
import LanguageClient.Proofs.Terminal.Program
import Mathlib.Algebra.GroupWithZero.Nat

/-!
# The end of the program

An input that can be read to its end makes the program deactivate the client as the last thing that it
does: a session that is ready then is asked to shut down, and is stopped when the program is over.  A
line that is no text ends the program on the spot, and it leaves the session as it is.

* `steps_of_readable`, `steps_of_unreadable` — what the steps of an input end with.
* `Program.exists_leaving` — a program that has taken all its steps has come to the last one.
* `Program.over_of_no_session`, **`Program.awaitsStop_of_session`** — the last step, without a
  session and with one.
* `Program.AwaitsStop`, **`Program.awaitsStop_run`** — the program waits for a stop, or the stop is
  over, and so it stays whatever happens.
* `Program.TimePasses`, **`Program.awaitsStop_rounds`** — as time passes the stop can go on, and the
  program is over in a bounded number of rounds.
* `Program.EndsWithStop`, **`Program.readable_input_is_deactivated`** — how the program ends, for all
  inputs.
* `Program.unreadable_line_leaves_the_session` — an end that leaves a session which is ready.
-/

namespace LanguageClient
namespace Terminal

/-! ### The steps of an input -/

variable {input : List UInt8}

theorem steps_of_readable (h : (readInput input).2 ≠ .unreadable) :
    steps input = (.activate :: (readInput input).1.map .obey) ++ [.deactivate] := by
  unfold steps
  split
  · rename_i commands hread
    rw [hread] at h
    exact absurd rfl h
  · rename_i commands ending _ hread
    rw [hread]

theorem steps_of_unreadable (h : (readInput input).2 = .unreadable) :
    steps input = .activate :: (readInput input).1.map .obey := by
  unfold steps
  split
  · rename_i commands hread
    rw [hread]
  · rename_i commands ending hends hread
    rw [hread] at h
    subst h
    exact absurd rfl hends

/-- No step before the last one asks for a stop. -/
theorem stop_not_mem_operations (commands : List ConsoleCommand) :
    Operation.stop ∉ (Step.activate :: commands.map .obey).filterMap Step.operation? := by
  rw [List.mem_filterMap]
  rintro ⟨step, hstep, hoperation⟩
  rcases List.mem_cons.mp hstep with rfl | hstep
  · cases hoperation
  · obtain ⟨command, -, rfl⟩ := List.mem_map.mp hstep
    cases command <;> cases hoperation

namespace Program

variable {p : Program} {k g : Nat} {phase : Phase}

/-! ### The last step -/

/-- It can be decided whether only the last step is left. -/
instance decidableLast : (steps : List Step) → Decidable (steps = [.deactivate])
  | [.deactivate] => isTrue rfl
  | [] => isFalse (by simp)
  | .activate :: _ => isFalse (by simp)
  | .obey _ :: _ => isFalse (by simp)
  | .deactivate :: _ :: _ => isFalse (by simp)

theorem rest_take (p : Program) (step : Step) : (p.take step).rest = p.rest := by
  unfold take
  split <;> rfl

/-- A program that has taken all its steps has come to the last one. -/
theorem exists_leaving {earlier : List Step} {last : Step} (hrest : p.rest = earlier ++ [last])
    {events : List Event} (hdone : (p.run events).rest = []) :
    ∃ before later, events = before ++ .turn :: later ∧ (p.run before).call? = none ∧
      (p.run before).rest = [last] := by
  induction events generalizing p earlier with
  | nil =>
      rw [run, List.foldl_nil, hrest] at hdone
      simp at hdone
  | cons event events ih =>
      -- Unless this is the turn in which the last step is taken, it is still to come.
      have hlater : ∀ earlier' : List Step, (p.step event).rest = earlier' ++ [last] →
          ∃ before later, event :: events = before ++ .turn :: later ∧
            (p.run before).call? = none ∧ (p.run before).rest = [last] := by
        intro earlier' hrest'
        obtain ⟨before, later, rfl, hcall, hleft⟩ := ih hrest' hdone
        exact ⟨event :: before, later, rfl, hcall, hleft⟩
      cases event with
      | outside event =>
          refine hlater earlier ?_
          rw [step]
          split <;> exact hrest
      | turn =>
          cases hcall : p.call? with
          | some k =>
              refine hlater earlier ?_
              rw [step, turn_of_call? hcall]
              exact hrest
          | none =>
              cases earlier with
              | nil => exact ⟨[], events, rfl, hcall, hrest⟩
              | cons next earlier =>
                  refine hlater earlier ?_
                  rw [step, turn_of_step hcall hrest]
                  exact rest_take _ next

theorem phase_of_outcome? {c : Client} {call : Call} {outcome : Outcome}
    (hcall : c.calls[k]? = some call) (h : c.outcome? k = some outcome) :
    call.phase = .finished outcome := by
  rw [Client.outcome?, hcall, Option.map_some] at h
  cases hphase : call.phase <;> simp_all

/-- While the program waits for nothing, nobody has the lock. -/
theorem isFree_of_sound (h : p.Sound) (hcall : p.call? = none) : p.client.lock.isFree := by
  refine Client.isFree_of_over h.retained.orderly fun i call hi => ?_
  have hplace := (List.getElem?_eq_some_iff.mp hi).1
  obtain ⟨outcome, houtcome⟩ := Option.isSome_iff_exists.mp (h.ended i hplace (by simp [hcall]))
  rw [phase_of_outcome? hi houtcome]
  rfl

/-- The stop of the last step begins its turn at once. -/
theorem begins_stop (h : p.Sound) (hcall : p.call? = none) :
    (p.client.step (.invoke .stop)).calls[p.client.calls.length]? =
        some ({ operation := .stop } : Call) ∧
      (p.client.step (.invoke .stop)).beginsTurn p.client.calls.length := by
  have hnew : (p.client.step (.invoke .stop)).calls[p.client.calls.length]? =
      some ({ operation := .stop } : Call) := by
    rw [Client.calls_invoke h.retained, List.getElem?_concat_length]
  have hfree : (p.client.step (.invoke .stop)).lock.isFree := by
    rw [congrArg Client.lock (Client.step_invoke h.retained .stop)]
    exact isFree_of_sound h hcall
  refine ⟨hnew, ?_⟩
  rw [Client.beginsTurn, hnew, Option.any_some, hfree]
  rfl

theorem turn_of_deactivate (hcall : p.call? = none) (hrest : p.rest = [.deactivate]) :
    p.turn = { p with rest := [] }.ask .stop := by
  rw [turn_of_step hcall hrest]
  rfl

/-- Without a session the last step is over at once. -/
theorem over_of_no_session (h : p.Sound) (hcall : p.call? = none) (hrest : p.rest = [.deactivate])
    (hslot : p.client.slot = none) :
    p.turn.isOver ∧ p.turn.client.journal = p.client.journal := by
  obtain ⟨hnew, hbegins⟩ := begins_stop h hcall
  have hinvoke := Client.step_invoke h.retained .stop
  have hslot' : (p.client.step (.invoke .stop)).slot = none := by
    rw [hinvoke]
    exact hslot
  have hover : ∀ lock : Lock,
      ({ p.client.step (.invoke .stop) with lock } : Client).beginTurn .stop =
        ({ p.client.step (.invoke .stop) with lock }, .ends .done) := by
    intro lock
    simp only [Client.beginTurn, Client.stopLocked, hslot', Client.afterStop]
  obtain ⟨houtcome, hjournal⟩ := Client.outcome?_of_over hnew hbegins hover
  rw [turn_of_deactivate hcall hrest]
  refine ⟨?_, hjournal.trans ?_⟩
  · rw [isOver, ask, attend]
    simp [houtcome]
  · rw [hinvoke]
    rfl

/-! ### Leaving -/

/-- The program waits for a stop of a session in some phase, or the stop is over. -/
structure AwaitsStop (p : Program) (k g : Nat) (phase : Phase) : Prop where
  rest : p.rest = []
  call : p.client.calls[k]? = some ⟨.stop, phase⟩
  stopping : p.client.IsBeingStopped g phase
  waits : p.call? = if phase.isOver then none else some k

/-- With a session, the last step hands in the request to shut down. -/
theorem awaitsStop_of_session (h : p.Sound) (hcall : p.call? = none) (hrest : p.rest = [.deactivate])
    (hslot : p.client.slot = some g) : ∃ connection, p.client.connection? g = some connection ∧
      p.turn.AwaitsStop p.client.calls.length g (.stopping g connection.nextId) ∧
      p.turn.client.connection? g = some (connection.request Method.shutdown .null
        (p.client.now + p.client.options.stopGrace)).1 ∧
      p.turn.client.options = p.client.options := by
  obtain ⟨connection, hconnection⟩ := Client.exists_connection h.retained hslot
  obtain ⟨hnew, hbegins⟩ := begins_stop h hcall
  have hkept : (p.client.step (.invoke .stop)).IsRetained :=
    Client.isRetained_step h.retained (by simp)
  have hinvoke := Client.step_invoke h.retained .stop
  have hslot' : (p.client.step (.invoke .stop)).slot = some g := by
    rw [hinvoke]
    exact hslot
  obtain ⟨hself, hstopping, hasked, hoptions⟩ :=
    Client.stop_begins hkept.numbered hkept.orderly.owns hnew rfl hbegins hslot'
      ((Client.connection?_invoke h.retained .stop hslot).trans hconnection)
  have hopen : ((p.client.step (.invoke .stop)).step
      (.poll p.client.calls.length)).outcome? p.client.calls.length = none := by
    rw [Client.outcome?, hself]
    rfl
  rw [turn_of_deactivate hcall hrest]
  refine ⟨connection, hconnection, ⟨rfl, hself, hstopping, ?_⟩, hasked.trans ?_, hoptions.trans ?_⟩
  · rw [ask, attend, hopen]
    rfl
  · rw [hinvoke]
    rfl
  · rw [hinvoke]
    rfl

theorem awaitsStop_outside (h : p.AwaitsStop k g phase) (event : Client.Event) :
    (p.step (.outside event)).AwaitsStop k g phase := by
  rw [step]
  split
  · rename_i hbeside
    exact ⟨h.rest, by rw [Client.calls_beside hbeside, h.call],
      Client.isBeingStopped_beside h.stopping hbeside, h.waits⟩
  · exact h

theorem options_outside (p : Program) (event : Client.Event) :
    (p.step (.outside event)).client.options = p.client.options := by
  rw [step]
  split
  · rename_i hbeside
    exact (Client.onlyTimePasses_step _ hbeside).options
  · rfl

/-- The stop of a session has an outcome exactly when it is over. -/
theorem isSome_outcome? {c : Client} (hcall : c.calls[k]? = some ⟨.stop, phase⟩)
    (h : c.IsBeingStopped g phase) : (c.outcome? k).isSome = phase.isOver := by
  rw [Client.outcome?, hcall, Option.map_some]
  rcases h.status with ⟨hphase, -⟩ | ⟨rfl, -⟩
  · cases phase <;> first | rfl | cases hphase
  · rfl

/-- A turn brings a program that leaves nearer to its end if the stop can go on. -/
theorem awaitsStop_turn (h : p.AwaitsStop k g phase) : ∃ phase', p.turn.AwaitsStop k g phase' ∧
    p.turn.client.options = p.client.options ∧
    (phase'.stopRank < phase.stopRank ∨
      phase' = phase ∧ p.client.canGoOn k phase = false ∧ p.client.OnlyTimePasses p.turn.client) := by
  cases hover : phase.isOver with
  | true =>
      have hcall : p.call? = none := by rw [h.waits, if_pos hover]
      rw [turn_of_over hcall h.rest]
      refine ⟨phase, h, rfl, .inr ⟨rfl, ?_, Client.onlyTimePasses_refl _⟩⟩
      cases phase <;> first | rfl | cases hover
  | false =>
      have hcall : p.call? = some k := by rw [h.waits, if_neg (by simp [hover])]
      obtain ⟨phase', hself, hstopping, hoptions, hcases⟩ :=
        Client.isBeingStopped_poll h.call rfl h.stopping
      rw [turn_of_call? hcall]
      refine ⟨phase', ⟨h.rest, hself, hstopping, ?_⟩, hoptions, hcases.imp_right ?_⟩
      · rw [attend, isSome_outcome? hself hstopping]
      · rintro ⟨hsame, hcan, htidy⟩
        refine ⟨hsame, hcan, ?_⟩
        change p.client.OnlyTimePasses (p.client.step (.poll k))
        rw [htidy]
        exact Client.onlyTimePasses_tidy _

/-! ### Rounds -/

/-- The time that an event lets pass. -/
def Event.span : Event → Nat
  | outside event => event.span
  | turn => 0

/-- Time passes for the client of a program, and no caller does anything. -/
structure TimePasses (p q : Program) (span : Nat) : Prop where
  onlyTime : p.client.OnlyTimePasses q.client
  now : p.client.now + span ≤ q.client.now

theorem timePasses_step {q : Program} {span : Nat} (h : p.TimePasses q span) (event : Client.Event) :
    p.TimePasses (q.step (.outside event)) (span + event.span) := by
  rw [step]
  split
  · rename_i hbeside
    refine ⟨h.onlyTime.trans (Client.onlyTimePasses_step _ hbeside), ?_⟩
    have hnow := Client.now_add_span_le q.client hbeside
    have hbefore := h.now
    change p.client.now + (span + event.span) ≤ (q.client.step event).now
    omega
  · rename_i hbeside
    have hspan : event.span = 0 := by cases event <;> first | rfl | exact absurd rfl hbeside
    exact ⟨h.onlyTime, by rw [hspan]; exact h.now⟩

/-- **Whatever happens, the program goes on leaving.** -/
theorem awaitsStop_run (h : p.AwaitsStop k g phase) (events : List Event) :
    ∃ phase', (p.run events).AwaitsStop k g phase' ∧
      (p.run events).client.options = p.client.options ∧
      (phase'.stopRank < phase.stopRank ∨
        phase' = phase ∧ p.TimePasses (p.run events) (events.map Event.span).sum) := by
  induction events using List.reverseRecOn with
  | nil => exact ⟨phase, h, rfl, .inr ⟨rfl, Client.onlyTimePasses_refl _, Nat.le_refl _⟩⟩
  | append_singleton events event ih =>
      obtain ⟨phase', hawaits, hoptions, hcases⟩ := ih
      rw [run_append, List.map_append, List.sum_append]
      cases event with
      | outside event =>
          refine ⟨phase', awaitsStop_outside hawaits event, ?_, hcases.imp_right fun ⟨hsame, htime⟩ =>
            ⟨hsame, timePasses_step htime event⟩⟩
          exact (options_outside _ event).trans hoptions
      | turn =>
          obtain ⟨phase'', hawaits', hoptions', hturn⟩ := awaitsStop_turn hawaits
          refine ⟨phase'', hawaits', hoptions'.trans hoptions, ?_⟩
          rcases hcases, hturn with ⟨hless | ⟨rfl, htime⟩, hturn | ⟨rfl, -, honly⟩⟩
          · exact .inl (Nat.lt_trans hturn hless)
          · exact .inl hless
          · exact .inl hturn
          · exact .inr ⟨rfl, htime.onlyTime.trans honly,
              Nat.le_trans htime.now honly.now⟩

/-- After a round that is long enough, a program that leaves is nearer to its end. -/
theorem awaitsStop_round (h : p.AwaitsStop k g phase) {events : List Event}
    (hlong : p.client.options.stopGrace ≤ (events.map Event.span).sum) :
    ∃ phase', (p.run (events ++ [.turn])).AwaitsStop k g phase' ∧
      (p.run (events ++ [.turn])).client.options = p.client.options ∧
      phase'.stopRank ≤ phase.stopRank - 1 := by
  obtain ⟨phase', hawaits, hoptions, hcases⟩ := awaitsStop_run h events
  obtain ⟨phase'', hawaits', hoptions', hturn⟩ := awaitsStop_turn hawaits
  rw [run_append]
  refine ⟨phase'', hawaits', hoptions'.trans hoptions, ?_⟩
  rcases hcases, hturn with ⟨hless | ⟨rfl, htime⟩, hturn | ⟨rfl, hcan, -⟩⟩
  · omega
  · omega
  · omega
  · -- The stop would have gone on, unless it was over.
    rcases h.stopping.status with ⟨hphase, htimely, -⟩ | ⟨rfl, -⟩
    · have hlate := Nat.le_trans (Nat.add_le_add_left hlong _) htime.now
      rw [Client.canGoOn_of_isTimely hphase htimely htime.onlyTime hlate] at hcan
      cases hcan
    · exact Nat.le_refl _

/-- **A program that leaves is over in a bounded number of rounds.** -/
theorem awaitsStop_rounds (h : p.AwaitsStop k g phase) {rounds : List (List Event)}
    (hlong : ∀ round ∈ rounds, p.client.options.stopGrace ≤ (round.map Event.span).sum) :
    ∃ phase', (p.run (rounds.flatMap (· ++ [.turn]))).AwaitsStop k g phase' ∧
      phase'.stopRank ≤ phase.stopRank - rounds.length := by
  induction rounds generalizing p phase with
  | nil => exact ⟨phase, h, Nat.le_refl _⟩
  | cons round rounds ih =>
      obtain ⟨phase', hawaits, hoptions, hrank⟩ := awaitsStop_round h (hlong round List.mem_cons_self)
      obtain ⟨phase'', hawaits', hrank'⟩ := ih hawaits fun round hround =>
        hoptions ▸ hlong round (List.mem_cons_of_mem _ hround)
      rw [List.flatMap_cons, run_append]
      refine ⟨phase'', hawaits', ?_⟩
      rw [List.length_cons]
      omega

theorem isOver_of_awaitsStop (h : p.AwaitsStop k g phase) : p.isOver = phase.isOver := by
  rw [isOver, h.rest, h.waits]
  cases phase.isOver <;> rfl

/-- A stop that has no wait left is over. -/
theorem isOver_of_stopRank (h : p.AwaitsStop k g phase) (hrank : phase.stopRank = 0) : p.isOver := by
  rw [isOver_of_awaitsStop h]
  rcases h.stopping.status with ⟨hphase, -⟩ | ⟨rfl, -⟩
  · exact absurd hrank (Nat.ne_of_gt (Phase.stopRank_pos hphase))
  · rfl

/-- When a program that leaves is over, its session has been stopped. -/
theorem stopped_of_awaitsStop (h : p.AwaitsStop k g phase) (hover : p.isOver) :
    p.client.status = ⟨g, .stopped⟩ ∧ p.client.slot = none := by
  rw [isOver_of_awaitsStop h] at hover
  rcases h.stopping.status with ⟨hphase, -⟩ | ⟨-, hstopped⟩
  · rw [Phase.isOver_of_stopOf? hphase] at hover
    cases hover
  · exact ⟨hstopped, h.stopping.slot⟩

/-! ### How the program ends -/

/-- The program has asked for a stop once, at last, and all that it has asked for is over. -/
def EndsWithStop (p : Program) : Prop :=
  ∃ earlier : List Operation, p.client.calls.map Call.operation = earlier ++ [.stop] ∧
    .stop ∉ earlier ∧ ∀ k < p.client.calls.length, (p.client.outcome? k).isSome

theorem endsWithStop (h : p.Sound) (hinput : (readInput input).2 ≠ .unreadable)
    (hoperations : p.operations = (steps input).filterMap Step.operation?) (hover : p.isOver) :
    p.EndsWithStop := by
  obtain ⟨hrest, hcall⟩ : p.rest = [] ∧ p.call? = none := by
    simpa [isOver] using hover
  rw [operations, hrest, List.filterMap_nil, List.append_nil, steps_of_readable hinput,
    List.filterMap_append] at hoperations
  exact ⟨_, hoperations, stop_not_mem_operations _, fun k hk => h.ended k hk (by simp [hcall])⟩

theorem ne_stop_of_unreadable (hinput : (readInput input).2 = .unreadable)
    (hoperations : p.operations = (steps input).filterMap Step.operation?) :
    ∀ call ∈ p.client.calls, call.operation ≠ .stop := by
  intro call hcall hop
  rw [steps_of_unreadable hinput] at hoperations
  refine stop_not_mem_operations (readInput input).1 ?_
  rw [← hoperations, ← hop]
  exact List.mem_append_left _ (List.mem_map_of_mem hcall)

/-- The turn of a program hands in the request to shut down, on the connection of a session. -/
def AsksToShutDown (p : Program) (g : Nat) : Prop :=
  ∃ connection, p.client.connection? g = some connection ∧
    p.turn.client.connection? g = some (connection.request Method.shutdown .null
      (p.client.now + p.client.options.stopGrace)).1

/-- **An input that can be read deactivates the client.**  Whatever servers, connections and the
clock do: when the input of a program can be read to its end and the program is over, it has asked
for a stop once and as the last thing, in a turn at which it waited for nothing else; a session that
was ready then is stopped.  When the input cannot be read, the program never asks for a stop.  The
last turn asks the server of a session that is ready to shut down, and three rounds in which the
grace of a stop passes bring the program to its end; without a session the last turn is the end. -/
theorem readable_input_is_deactivated (options : SessionOptions) (processId : Nat)
    (workspace : Workspace) (input : List UInt8) (events : List Event) :
    let start := new options processId workspace input
    let p := start.run events
    ((readInput input).2 ≠ .unreadable → p.isOver → p.EndsWithStop ∧
      ∃ before later, events = before ++ .turn :: later ∧ (start.run before).call? = none ∧
        (start.run before).rest = [.deactivate] ∧ ∀ g, (start.run before).client.session? = some g →
          p.client.status = ⟨g, .stopped⟩ ∧ p.client.slot = none) ∧
    ((readInput input).2 = .unreadable → ∀ call ∈ p.client.calls, call.operation ≠ .stop) ∧
    (p.call? = none → p.rest = [.deactivate] →
      (∀ g, p.client.session? = some g → p.AsksToShutDown g ∧
        ∀ rounds : List (List Event), rounds.length = 3 →
          (∀ round ∈ rounds, p.client.options.stopGrace ≤ (round.map Event.span).sum) →
          (p.turn.run (rounds.flatMap (· ++ [.turn]))).isOver) ∧
      (p.client.session? = none → p.turn.isOver ∧ p.turn.client.journal = p.client.journal)) := by
  intro start p
  have hstart : start.Sound := sound_new options processId workspace input
  have hsession : ∀ {q : Program}, q.Sound → q.client.session? = q.client.slot :=
    fun hq => Course.session?_of_owns hq.retained.orderly.owns
  have hp : p.Sound := sound_run hstart events
  have hoperations : p.operations = (steps input).filterMap Step.operation? :=
    operations_run hstart events
  refine ⟨fun hinput hover => ⟨endsWithStop hp hinput hoperations hover, ?_⟩,
    fun hinput => ne_stop_of_unreadable hinput hoperations, fun hcall hrest => ⟨fun g hg => ?_, ?_⟩⟩
  · have hdone : p.rest = [] := by
      have hboth : p.rest.isEmpty ∧ p.call?.isNone := by simpa [isOver] using hover
      simpa using hboth.1
    -- The program ends only behind the turn that asks for the stop.
    obtain ⟨before, later, rfl, hcall, hrest⟩ :=
      exists_leaving (steps_of_readable hinput) (p := start) hdone
    refine ⟨before, later, rfl, hcall, hrest, fun g hg => ?_⟩
    have hbefore := sound_run hstart before
    obtain ⟨connection, -, hawaits, -, -⟩ :=
      awaitsStop_of_session hbefore hcall hrest (hsession hbefore ▸ hg)
    obtain ⟨phase, hawaits', -⟩ := awaitsStop_run hawaits later
    have hrun : p = (start.run before).turn.run later := run_append start before (.turn :: later)
    rw [hrun] at hover ⊢
    exact stopped_of_awaitsStop hawaits' hover
  · obtain ⟨connection, hconnection, hawaits, hasked, hoptions⟩ :=
      awaitsStop_of_session hp hcall hrest (hsession hp ▸ hg)
    refine ⟨⟨connection, hconnection, hasked⟩, fun rounds hlength hlong => ?_⟩
    rw [← hoptions] at hlong
    -- Each round lowers the rank of the stop, which is at most three.
    obtain ⟨phase, hawaits', hrank⟩ := awaitsStop_rounds hawaits hlong
    refine isOver_of_stopRank hawaits' (Nat.le_zero.mp ?_)
    rwa [hlength] at hrank
  · exact fun hnone => over_of_no_session hp hcall hrest (hsession hp ▸ hnone)

/-- What happens to a client as an event of the program, which has a turn in the place of a poll. -/
def Event.ofClient : Client.Event → Event
  | .poll _ => .turn
  | event => .outside event

/-- The program activates the client, and the first session becomes ready. -/
def activation : List Event := .turn :: (Client.handshake 1 0).map .ofClient

/-- The program deactivates the client, and the server acknowledges and leaves. -/
def departure : List Event :=
  .turn :: ([.connection 1 .write, .connection 1 .finish, .connection 1 .write, .connection 1 .finish,
    .connection 1 (.receive (Frame.encode (Client.acknowledgement 2))), .connection 1 .read,
    .connection 1 .handle, .poll 1, .connection 1 .write, .connection 1 .finish,
    .connection 1 .endOfStream, .connection 1 .read, .connection 1 .handle,
    .poll 1] : List Client.Event).map .ofClient

/-- A line that asks to leave has the session of the activation asked to shut down, and ends the
program with that session stopped. -/
theorem quit_stops_the_session :
    let start := new {} 0 {} [58, 113, 10]
    let p := start.run activation
    let q := start.run (activation ++ departure)
    (readInput [58, 113, 10]).2 ≠ .unreadable ∧ p.call? = none ∧ p.rest = [.deactivate] ∧
      p.client.session? = some 1 ∧ p.AsksToShutDown 1 ∧ q.isOver ∧ q.EndsWithStop ∧
      q.client.status = ⟨1, .stopped⟩ := by
  intro start p q
  have hinput : (readInput [58, 113, 10]).2 ≠ .unreadable := by decide +kernel
  obtain ⟨hcall, hrest, hsession⟩ :
      p.call? = none ∧ p.rest = [.deactivate] ∧ p.client.session? = some 1 := by decide +kernel
  obtain ⟨hover, hstopped⟩ : q.isOver ∧ q.client.status = ⟨1, .stopped⟩ := by decide +kernel
  obtain ⟨hasked, -⟩ :=
    ((readable_input_is_deactivated {} 0 {} [58, 113, 10] activation).2.2 hcall hrest).1 1 hsession
  obtain ⟨hends, -⟩ :=
    (readable_input_is_deactivated {} 0 {} [58, 113, 10] (activation ++ departure)).1 hinput hover
  exact ⟨hinput, hcall, hrest, hsession, hasked, hover, hends, hstopped⟩

/-- **A line that is no text leaves the session as it is.**  The program is over, and the session of
the activation is still ready. -/
theorem unreadable_line_leaves_the_session :
    let p := (new {} 0 {} [255, 10]).run activation
    p.isOver ∧ p.client.status = ⟨1, .ready⟩ ∧ p.client.session? = some 1 ∧ ¬ p.EndsWithStop := by
  intro p
  obtain ⟨hover, hready, hsession⟩ :
      p.isOver ∧ p.client.status = ⟨1, .ready⟩ ∧ p.client.session? = some 1 := by decide +kernel
  refine ⟨hover, hready, hsession, ?_⟩
  rintro ⟨earlier, hoperations, -⟩
  have hstop : Operation.stop ∈ p.client.calls.map Call.operation := by
    rw [hoperations]
    exact List.mem_append_right _ List.mem_cons_self
  obtain ⟨call, hcall, hop⟩ := List.mem_map.mp hstop
  have hnone : p.operations = (steps [255, 10]).filterMap Step.operation? :=
    operations_run (sound_new {} 0 {} [255, 10]) activation
  exact ne_stop_of_unreadable (by decide +kernel) hnone call hcall hop

end Program
end Terminal
end LanguageClient
