import LanguageClient.Proofs.Terminal.Program
import LanguageClient.Simulation.TerminalRun

/-!
# The program in virtual time

A rehearsal of the program carries its steps out one after the other, and lets servers, connections
and the clock go on in one order that is fixed.  So it is a run of the program: in each turn the
main job does what the program does, and everything else happens to the client from outside.

* `Rehearsal.HappensOutside` — something happens in a rehearsal that no caller has asked for.
* `Rehearsal.happensOutside_turn` — that is all that the tasks of a rehearsal do.
* `Rehearsal.MatchesProgram` — a rehearsal has come as far as a program.
* `Schedule.drive_keeps` — what every turn keeps, a whole run keeps.
* **`Rehearsal.reached_carryOut`** — a step that is carried out is a run of the program.
* **`Rehearsal.exists_run`** — what a rehearsal writes is what a run of the program writes.
-/

namespace LanguageClient

/-! ### What happens outside -/

namespace Rehearsal

variable {r s t : Rehearsal} {k g : Nat}

/-- Something happens that no caller has asked for. -/
def HappensOutside (r s : Rehearsal) : Prop :=
  (∃ events : List Client.Event, (∀ event ∈ events, event.isBeside) ∧
      s.client = r.client.run events) ∧ s.background = r.background ∧ s.main = r.main

theorem happensOutside_of_client (hclient : s.client = r.client)
    (hbackground : s.background = r.background) (hmain : s.main = r.main) : r.HappensOutside s :=
  ⟨⟨[], by simp, hclient⟩, hbackground, hmain⟩

theorem happensOutside_refl (r : Rehearsal) :
    r.HappensOutside r := happensOutside_of_client rfl rfl rfl

theorem HappensOutside.trans (h : r.HappensOutside s) (h' : s.HappensOutside t) :
    r.HappensOutside t := by
  obtain ⟨⟨events, hbeside, hclient⟩, hbackground, hmain⟩ := h
  obtain ⟨⟨later, hbeside', hclient'⟩, hbackground', hmain'⟩ := h'
  refine ⟨⟨events ++ later, ?_, ?_⟩, hbackground'.trans hbackground, hmain'.trans hmain⟩
  · exact fun event hevent => (List.mem_append.mp hevent).elim (hbeside event) (hbeside' event)
  · rw [hclient', hclient, Client.run, Client.run, Client.run, List.foldl_append]

theorem happensOutside_happen (r : Rehearsal) {event : Client.Event} (h : event.isBeside) :
    r.HappensOutside (r.happen event) :=
  ⟨⟨[event], by simpa using h, rfl⟩, rfl, rfl⟩

theorem happensOutside_foldl {α : Type} {f : Rehearsal → α → Rehearsal}
    (h : ∀ r a, HappensOutside r (f r a)) (items : List α) (r : Rehearsal) :
    r.HappensOutside (items.foldl f r) := by
  induction items generalizing r with
  | nil => exact happensOutside_refl r
  | cons a rest ih => exact (h r a).trans (ih _)

theorem happensOutside_updateServer (r : Rehearsal) (g : Nat) (f : ScriptedServer → ScriptedServer) :
    r.HappensOutside (r.updateServer g f) := happensOutside_of_client rfl rfl rfl

theorem happensOutside_leave (r : Rehearsal) (g : Nat) : r.HappensOutside (r.leave g) :=
  ((happensOutside_updateServer r g _).trans (happensOutside_happen _ rfl)).trans
    (happensOutside_happen _ rfl)

theorem happensOutside_finishLaunch (r : Rehearsal) (g : Nat) :
    r.HappensOutside (r.finishLaunch g) := by
  unfold finishLaunch
  dsimp only
  split
  · exact ((happensOutside_updateServer r g _).trans (happensOutside_updateServer _ g _)).trans
      (happensOutside_happen _ rfl)
  · split
    · exact ((happensOutside_updateServer r g _).trans (happensOutside_happen _ rfl)).trans
        (happensOutside_leave _ g)
    · exact (happensOutside_updateServer r g _).trans (happensOutside_happen _ rfl)

theorem happensOutside_finishLaunches (r : Rehearsal) : r.HappensOutside r.finishLaunches := by
  refine happensOutside_foldl (fun r i => ?_) _ r
  split
  · split
    · exact happensOutside_finishLaunch r _
    · exact happensOutside_refl r
  · exact happensOutside_refl r

theorem happensOutside_launchServers (r : Rehearsal) : r.HappensOutside r.launchServers :=
  HappensOutside.trans (happensOutside_of_client rfl rfl rfl) (happensOutside_finishLaunches _)

theorem happensOutside_serverActs (r : Rehearsal) (g : Nat) (server : ScriptedServer)
    (action : ServerAction) : r.HappensOutside (r.serverActs g server action) := by
  unfold serverActs
  split
  · exact happensOutside_leave r g
  · exact happensOutside_refl r
  · exact happensOutside_foldl (fun r _ => happensOutside_happen r rfl) _ r
  · split
    · split
      · exact happensOutside_happen r rfl
      · exact happensOutside_leave r g
    · exact happensOutside_refl r

theorem happensOutside_makeMove (r : Rehearsal) (g : Nat) (server : ScriptedServer)
    (move : ServerMove) : r.HappensOutside (r.makeMove g server move) := by
  cases move with
  | pause span rest => exact happensOutside_updateServer r g _
  | act action rest =>
      exact (happensOutside_updateServer r g _).trans (happensOutside_serverActs _ g _ _)
  | hear message => exact happensOutside_of_client rfl rfl rfl
  | leave => exact happensOutside_leave r g

theorem happensOutside_serverWorks (g fuel : Nat) (r : Rehearsal) :
    r.HappensOutside (serverWorks g fuel r) := by
  induction fuel generalizing r with
  | zero => exact happensOutside_refl r
  | succ fuel ih =>
      rw [serverWorks]
      split
      · split
        · exact (happensOutside_makeMove r g _ _).trans (ih _)
        · exact happensOutside_refl r
      · exact happensOutside_refl r

theorem happensOutside_readerWorks (g fuel : Nat) (r : Rehearsal) :
    r.HappensOutside (readerWorks g fuel r) := by
  induction fuel generalizing r with
  | zero => exact happensOutside_refl r
  | succ fuel ih =>
      rw [readerWorks]
      split
      · exact (happensOutside_happen r rfl).trans (ih _)
      · exact happensOutside_refl r

theorem happensOutside_loopWorks (g fuel : Nat) (r : Rehearsal) :
    r.HappensOutside (loopWorks g fuel r) := by
  induction fuel generalizing r with
  | zero => exact happensOutside_refl r
  | succ fuel ih =>
      rw [loopWorks]
      split
      · exact (happensOutside_happen r rfl).trans (ih _)
      · exact happensOutside_refl r

theorem happensOutside_pumpWorks (g fuel : Nat) (r : Rehearsal) :
    r.HappensOutside (pumpWorks g fuel r) := by
  induction fuel generalizing r with
  | zero => exact happensOutside_refl r
  | succ fuel ih =>
      rw [pumpWorks]
      split
      · exact (happensOutside_happen r rfl).trans (ih _)
      · exact happensOutside_refl r

/-- Where nothing is carried out in the background, no task does anything for a caller. -/
theorem happensOutside_turn (h : r.background = []) (task : Task) :
    r.HappensOutside (r.turn task) := by
  cases task with
  | reader g => exact happensOutside_readerWorks g _ r
  | loop g => exact happensOutside_loopWorks g _ r
  | job i =>
      rw [turn, h]
      exact happensOutside_refl r
  | pump g => exact happensOutside_pumpWorks g _ r
  | server g => exact happensOutside_serverWorks g _ r

theorem happensOutside_setNow (r : Rehearsal) (time : Nat) : r.HappensOutside (r.setNow time) :=
  (happensOutside_happen r rfl).trans (happensOutside_finishLaunches _)

/-! ### A rehearsal and a program -/

open Terminal

/-- A rehearsal with the client of a program, in which nothing is carried out in the background. -/
structure SharesClient (p : Program) (r : Rehearsal) : Prop where
  client : r.client = p.client
  background : r.background = []

/-- A rehearsal has come as far as a program: it waits for the same call or for none. -/
inductive MatchesProgram (p : Program) (r : Rehearsal) : Job → Prop
  | waits (k : Nat) (h : SharesClient p r) (hcall : p.call? = some k) :
      MatchesProgram p r (.waiting k)
  | ends (result : Result) (h : SharesClient p r) (hcall : p.call? = none) :
      MatchesProgram p r (.ends result)
  | nothing (h : SharesClient p r) (hcall : p.call? = none) : MatchesProgram p r (.group [])

/-- A rehearsal sees to a call as a program does. -/
structure AwaitsSameCall (p : Program) (k : Nat) (r : Rehearsal) : Prop extends SharesClient p r where
  call : p.call? = if (p.client.outcome? k).isSome then none else some k

variable {p : Program}

theorem MatchesProgram.sharesClient {job : Job} (h : MatchesProgram p r job) : SharesClient p r := by
  cases h <;> assumption

theorem run_outside (p : Program) {events : List Client.Event}
    (h : ∀ event ∈ events, event.isBeside) :
    p.run (events.map .outside) = { p with client := p.client.run events } := by
  induction events generalizing p with
  | nil => rfl
  | cons event rest ih =>
      obtain ⟨hevent, hrest⟩ := List.forall_mem_cons.mp h
      have hstep : p.step (.outside event) = { p with client := p.client.step event } := if_pos hevent
      rw [List.map_cons, Program.run, List.foldl_cons, hstep]
      exact ih _ hrest

theorem calls_run_beside (c : Client) {events : List Client.Event}
    (h : ∀ event ∈ events, event.isBeside) : (c.run events).calls = c.calls := by
  induction events generalizing c with
  | nil => rfl
  | cons event rest ih =>
      obtain ⟨hevent, hrest⟩ := List.forall_mem_cons.mp h
      exact (ih _ hrest).trans (Client.calls_beside hevent)

/-- What happens outside leaves the program where it is. -/
theorem exists_outside (h : SharesClient p r) (hm : r.HappensOutside s) : ∃ events client,
    p.run events = { p with client } ∧ client.calls = p.client.calls ∧
      SharesClient { p with client } s := by
  obtain ⟨⟨events, hbeside, hclient⟩, hbackground, -⟩ := hm
  exact ⟨events.map .outside, p.client.run events, run_outside p hbeside,
    calls_run_beside p.client hbeside, h.client ▸ hclient, hbackground.trans h.background⟩

theorem matchesProgram_happensOutside {job : Job} (h : MatchesProgram p r job)
    (hm : r.HappensOutside s) :
    ∃ events, MatchesProgram (p.run events) s job ∧ (p.run events).rest = p.rest := by
  obtain ⟨events, client, hrun, -, hshares⟩ := exists_outside h.sharesClient hm
  refine ⟨events, ?_, by rw [hrun]⟩
  rw [hrun]
  cases h with
  | waits k h hcall => exact .waits k hshares hcall
  | ends result h hcall => exact .ends result hshares hcall
  | nothing h hcall => exact .nothing hshares hcall

theorem awaitsSameCall_happensOutside (h : AwaitsSameCall p k r) (hm : r.HappensOutside s) :
    ∃ events, AwaitsSameCall (p.run events) k s ∧ (p.run events).rest = p.rest := by
  obtain ⟨events, client, hrun, hcalls, hshares⟩ := exists_outside h.toSharesClient hm
  refine ⟨events, ?_, by rw [hrun]⟩
  rw [hrun]
  refine ⟨hshares, h.call.trans ?_⟩
  rw [← Client.outcome?_of_calls hcalls]

/-! ### Callers -/

/-- A call that can go on is not over. -/
theorem outcome?_of_canPoll {c : Client} (h : c.canPoll k) : c.outcome? k = none := by
  obtain ⟨call, hcall, hcan⟩ := (Option.any_eq_true _ _).mp h
  rw [Client.outcome?, hcall, Option.map_some]
  cases hphase : call.phase with
  | finished outcome =>
      rw [hphase] at hcan
      cases hcan
  | _ => rfl

theorem awaitsSameCall_callWorks (fuel : Nat) (h : AwaitsSameCall p k r) :
    ∃ events, AwaitsSameCall (p.run events) k (callWorks k fuel r) ∧
      (p.run events).rest = p.rest := by
  induction fuel generalizing p r with
  | zero => exact ⟨[], h, rfl⟩
  | succ fuel ih =>
      rw [callWorks]
      split
      · rename_i hcan
        rw [h.client] at hcan
        have hcall : p.call? = some k := by
          rw [h.call, outcome?_of_canPoll hcan]
          rfl
        have hturn : AwaitsSameCall p.turn k (r.happen (.poll k)) := by
          rw [Program.turn_of_call? hcall]
          exact ⟨⟨congrArg (Client.step · (.poll k)) h.client, h.background⟩, rfl⟩
        have hrest : p.turn.rest = p.rest := by
          rw [Program.turn_of_call? hcall]
          rfl
        obtain ⟨events, hawaits, hsame⟩ :=
          awaitsSameCall_happensOutside hturn (happensOutside_launchServers _)
        obtain ⟨later, hawaits', hsame'⟩ := ih hawaits
        refine ⟨.turn :: events ++ later, ?_, ?_⟩
        · rw [Program.run_append]
          exact hawaits'
        · rw [Program.run_append]
          exact hsame'.trans (hsame.trans hrest)
      · exact ⟨[], h, rfl⟩

/-- When a caller has seen to its call, the rehearsal has come as far as the program. -/
theorem matchesProgram_of_awaitsSameCall (h : AwaitsSameCall p k r) :
    MatchesProgram p r (match r.client.outcome? k with
      | some outcome => .ends (.outcome outcome)
      | none => .waiting k) := by
  have hcall := h.call
  rw [h.client]
  cases houtcome : p.client.outcome? k with
  | some outcome =>
      rw [houtcome] at hcall
      exact .ends _ h.toSharesClient hcall
  | none =>
      rw [houtcome] at hcall
      exact .waits k h.toSharesClient hcall

theorem attend_eq (r : Rehearsal) (k : Nat) : r.attend k = (callWorks k turnLength r,
    match (callWorks k turnLength r).client.outcome? k with
    | some outcome => .ends (.outcome outcome)
    | none => .waiting k) := by
  unfold attend
  dsimp only
  split <;> simp_all

theorem matchesProgram_attend (h : AwaitsSameCall p k r) : ∃ events,
    MatchesProgram (p.run events) (r.attend k).1 (r.attend k).2 ∧ (p.run events).rest = p.rest := by
  obtain ⟨events, hawaits, hrest⟩ := awaitsSameCall_callWorks turnLength h
  rw [attend_eq]
  exact ⟨events, matchesProgram_of_awaitsSameCall hawaits, hrest⟩

theorem matchesProgram_ask (hp : p.Sound) (h : SharesClient p r) (operation : Operation) : ∃ events,
    MatchesProgram ((p.ask operation).run events) (r.ask operation).1 (r.ask operation).2 ∧
      ((p.ask operation).run events).rest = p.rest := by
  have hclient : (r.happen (.invoke operation)).client = p.client.step (.invoke operation) :=
    congrArg (Client.step · (.invoke operation)) h.client
  -- A new call can always begin, and the program polls it at once.
  have hcan : (r.happen (.invoke operation)).client.canPoll p.client.calls.length := by
    rw [hclient, Client.canPoll, Client.calls_invoke hp.retained, List.getElem?_concat_length]
    rfl
  have hbegun : AwaitsSameCall (p.ask operation) p.client.calls.length
      ((r.happen (.invoke operation)).happen (.poll p.client.calls.length)) :=
    ⟨⟨congrArg (Client.step · (.poll p.client.calls.length)) hclient, h.background⟩, rfl⟩
  obtain ⟨events, hawaits, hrest⟩ :=
    awaitsSameCall_happensOutside hbegun (happensOutside_launchServers _)
  obtain ⟨later, hawaits', hrest'⟩ := awaitsSameCall_callWorks 31 hawaits
  have hworks : callWorks p.client.calls.length turnLength (r.happen (.invoke operation)) =
      callWorks p.client.calls.length 31
        ((r.happen (.invoke operation)).happen (.poll p.client.calls.length)).launchServers := by
    rw [turnLength, callWorks, if_pos hcan]
  refine ⟨events ++ later, ?_, ?_⟩
  · rw [ask, h.client, attend_eq, hworks, Program.run_append]
    exact matchesProgram_of_awaitsSameCall hawaits'
  · rw [Program.run_append]
    exact hrest'.trans hrest

/-- What the program does alone, the rehearsal does at once. -/
theorem sharesClient_updateConsole (h : SharesClient p r) (f : Console → Console) :
    SharesClient { p with client := p.client.updateConsole f } (r.updateConsole f) := by
  refine ⟨?_, h.background⟩
  rw [updateConsole, console, h.client]
  rfl

/-- A step that the program takes is begun in the rehearsal. -/
theorem matchesProgram_start (hp : p.Sound) (h : SharesClient p r) (hcall : p.call? = none)
    (step : Step) :
    ∃ events, MatchesProgram ((p.take step).run events) (r.start (orderOf step)).1
      (r.start (orderOf step)).2 ∧
      ((p.take step).run events).rest = p.rest := by
  cases step with
  | activate => exact matchesProgram_ask hp h .activate
  | deactivate => exact matchesProgram_ask hp h .stop
  | obey command =>
      cases command with
      | run id args => exact matchesProgram_ask hp h (.command id args true)
      | quit => exact ⟨[], .nothing h hcall, rfl⟩
      | cat uri =>
          have hstart : r.start (orderOf (.obey (.cat uri))) =
              (r.updateConsole fun console => console.cat p.client.workspace.store uri,
                .ends .nothing) := by
            rw [← h.client]
            rfl
          rw [hstart]
          exact ⟨[], .ends .nothing (sharesClient_updateConsole h _) hcall, rfl⟩
      | openDocument uri =>
          exact ⟨[], .ends .nothing
            (sharesClient_updateConsole h fun console => { console with active := some uri })
            hcall, rfl⟩

/-- A client that is kept misses nothing. -/
theorem goOn_todo (hp : p.Sound) (h : SharesClient p r) (order : Order) :
    r.goOn (.todo order) = r.start order := by
  have hnone : r.missing? order = none := by
    rw [missing?, h.client, hp.retained.released]
    rfl
  rw [goOn, begin, hnone]

/-- The main job goes on as the program does. -/
theorem matchesProgram_goOn (hp : p.Sound) {job : Job} (h : MatchesProgram p r job) : ∃ events,
    MatchesProgram (p.run events) (r.goOn job).1 (r.goOn job).2 ∧ (p.run events).rest = p.rest := by
  cases h with
  | waits k h hcall =>
      rw [goOn]
      refine matchesProgram_attend ⟨h, ?_⟩
      rw [hcall, (hp.waits k hcall).2]
      rfl
  | ends result h hcall => exact ⟨[], .ends result h hcall, rfl⟩
  | nothing h hcall => exact ⟨[], .nothing h hcall, rfl⟩

end Rehearsal

/-! ### A whole run -/

/-- What every turn keeps, a whole run keeps. -/
theorem Schedule.drive_keeps {σ τ : Type} [BEq τ] {system : System σ τ} {script : Script σ}
    {P : σ → Prop} (hturn : ∀ state task, P state → P (system.turn state task))
    (hnow : ∀ state time, P state → P (system.setNow state time))
    (hscript : ∀ state, P state → P (script.turn state)) (limit : Option Nat) (fuel : Nat)
    {s : Schedule σ τ} (h : P s.state) : P (drive system script limit fuel s).state := by
  induction fuel generalizing s with
  | zero => exact h
  | succ fuel ih =>
      unfold drive
      split
      · exact h
      · split
        · exact ih (hturn _ _ h)
        · split
          · exact ih (hscript _ h)
          · split
            · exact h
            · exact hnow _ _ h
            · split
              · exact hnow _ _ h
              · refine ih ?_
                split
                · exact hscript _ (hnow _ _ h)
                · exact hnow _ _ h

namespace Rehearsal

open Terminal

variable {p : Program} {step : Step} {rest : List Step} {s : Schedule Rehearsal Task}

/-- A rehearsal whose main job has come as far as a program that is reached by events. -/
def Reached (p : Program) (rest : List Step) (r : Rehearsal) : Prop :=
  ∃ events, MatchesProgram (p.run events) r r.main ∧ (p.run events).rest = rest

theorem MatchesProgram.setMain {r : Rehearsal} {job : Job} (h : MatchesProgram p r job) :
    MatchesProgram p { r with main := job } job := by
  cases h with
  | waits k h hcall => exact .waits k ⟨h.client, h.background⟩ hcall
  | ends result h hcall => exact .ends result ⟨h.client, h.background⟩ hcall
  | nothing h hcall => exact .nothing ⟨h.client, h.background⟩ hcall

theorem reached_turn (hp : p.Sound) {r : Rehearsal} (h : Reached p rest r) :
    Reached p rest (mainScript.turn r) := by
  obtain ⟨events, hmatches, hrest⟩ := h
  obtain ⟨later, hmatches', hrest'⟩ := matchesProgram_goOn (Program.sound_run hp events) hmatches
  rw [← Program.run_append] at hmatches' hrest'
  exact ⟨events ++ later, hmatches'.setMain, hrest'.trans hrest⟩

theorem reached_happensOutside {r t : Rehearsal} (h : Reached p rest r) (hm : r.HappensOutside t) :
    Reached p rest t := by
  obtain ⟨events, hmatches, hrest⟩ := h
  obtain ⟨later, hmatches', hrest'⟩ := matchesProgram_happensOutside hmatches hm
  rw [← Program.run_append] at hmatches' hrest'
  exact ⟨events ++ later, hm.2.2 ▸ hmatches', hrest'.trans hrest⟩

/-- **A step that is carried out is a run of the program.** -/
theorem reached_carryOut (hp : p.Sound) (h : SharesClient p s.state) (hcall : p.call? = none)
    (hrest : p.rest = step :: rest) : Reached p rest (carryOut s (orderOf step)).1.state := by
  refine Schedule.drive_keeps (fun r task hr => ?_) (fun r time hr => ?_)
    (fun r hr => reached_turn hp hr) none Schedule.turnLimit ?_
  · have hbackground : r.background = [] := by
      obtain ⟨events, hmatches, -⟩ := hr
      exact hmatches.sharesClient.background
    exact reached_happensOutside hr (happensOutside_turn hbackground task)
  · exact reached_happensOutside hr (happensOutside_setNow r time)
  · -- In its first turn the main job takes the step.
    have h' : SharesClient { p with rest } { s.state with main := .todo (orderOf step) } :=
      ⟨h.client, h.background⟩
    have hp' : ({ p with rest } : Program).Sound := Program.sound_of_calls hp hp.retained rfl rest
    obtain ⟨events, hmatches, hleft⟩ := matchesProgram_start hp' h' hcall step
    rw [← goOn_todo hp' h', ← Program.turn_of_step hcall hrest] at hmatches
    rw [← Program.turn_of_step hcall hrest] at hleft
    exact ⟨.turn :: events, hmatches.setMain, hleft⟩

/-- Every step comes to its end when it is carried out after the others. -/
def ComesToEnd (s : Schedule Rehearsal Task) : List Step → Prop
  | [] => True
  | step :: rest => (carryOut s (orderOf step)).1.state.main.result?.isSome ∧
      ComesToEnd (carryOut s (orderOf step)).1 rest

theorem exists_run_of_sharesClient {steps : List Step} (hp : p.Sound) (h : SharesClient p s.state)
    (hcall : p.call? = none) (hrest : p.rest = steps) (hends : ComesToEnd s steps) :
    ∃ events, (p.run events).isOver ∧ (p.run events).client =
      (steps.foldl (fun s step => (carryOut s (orderOf step)).1) s).state.client := by
  induction steps generalizing p s with
  | nil => exact ⟨[], by rw [Program.run, List.foldl_nil, Program.isOver, hrest, hcall]; rfl,
      h.client.symm⟩
  | cons step rest ih =>
      obtain ⟨hdone, hends⟩ := hends
      obtain ⟨events, hmatches, hleft⟩ := reached_carryOut hp h hcall hrest
      have hcall' : (p.run events).call? = none := by
        generalize hmain : (carryOut s (orderOf step)).1.state.main = job at hmatches hdone
        cases hmatches with
        | waits k h hcall => cases hdone
        | ends result h hcall => exact hcall
        | nothing h hcall => exact hcall
      obtain ⟨later, hover, hclient⟩ :=
        ih (Program.sound_run hp events) hmatches.sharesClient hcall' hleft hends
      rw [← Program.run_append] at hover hclient
      exact ⟨events ++ later, hover, hclient⟩

/-- **What a rehearsal writes is what a run of the program writes**, when all steps come to their
end. -/
theorem exists_run (config : ClientConfig) (script : ServerScript) (input : List UInt8)
    (hends : ComesToEnd ⟨ofConfig config script, []⟩ (steps input)) : ∃ events,
      let p := (Program.new config.sessionOptions 0 { snippetDir := config.snippetDir } input).run
        events
      p.isOver ∧ p.client.workspace.console.output = output config script input := by
  have hshares : SharesClient
      (Program.new config.sessionOptions 0 { snippetDir := config.snippetDir } input)
      (⟨ofConfig config script, []⟩ : Schedule Rehearsal Task).state := ⟨rfl, rfl⟩
  obtain ⟨events, hover, hclient⟩ :=
    exists_run_of_sharesClient (Program.sound_new _ 0 _ input) hshares rfl rfl hends
  exact ⟨events, hover, congrArg (fun c : Client => c.workspace.console.output) hclient⟩

end Rehearsal
end LanguageClient
