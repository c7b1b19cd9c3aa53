import LanguageClient.Proofs.Session.Retained
import LanguageClient.Terminal

/-!
# The program step by step

The program takes one step of its input after the other.  A step that asks the client for something is
over when the call has come to an end; the others take no time.  Meanwhile servers, connections and
the clock do what they like.

* `Step.operation?`, `Step.perform` — what a step asks the client for, and what it does by itself.
* `Program` — the client, the steps that are left, and the call for which the program waits.
* `Program.Event`, `Program.step`, `Program.run` — a turn of the program, or something that happens to
  the client meanwhile.
* `Program.Sound` — the calls of the program come one after the other.
* **`Program.sound_run`**, **`Program.operations_run`** — so it stays, and what has been asked for and
  what will be is what the input says.
-/

namespace LanguageClient
namespace Terminal

/-! ### Steps -/

namespace Step

/-- What a step asks the client for; nothing, if the program takes it alone. -/
def operation? : Step → Option Operation
  | activate => some .activate
  | obey (.run id args) => some (.command id args true)
  | obey _ => none
  | deactivate => some .stop

/-- What a step that the program takes alone does to the terminal. -/
def perform (step : Step) (store : VirtualStore) (console : Console) : Console :=
  match step with
  | obey (.cat uri) => console.cat store uri
  | obey (.openDocument uri) => { console with active := some uri }
  | _ => console

end Step

end Terminal

/-- Something is done to the terminal of a client. -/
def Client.updateConsole (c : Client) (f : Console → Console) : Client :=
  { c with workspace := { c.workspace with console := f c.workspace.console } }

namespace Terminal

/-! ### The program -/

/-- The program at some point of its run. -/
structure Program where
  client : Client
  /-- The steps that are left. -/
  rest : List Step
  /-- The call for which the program waits. -/
  call? : Option Nat := none

namespace Program

/-- The program at the beginning, with an input. -/
def new (options : SessionOptions) (processId : Nat) (workspace : Workspace) (input : List UInt8) :
    Program where
  client := .new options processId workspace
  rest := steps input

/-- Something that happens. -/
inductive Event where
  /-- Something happens to the client that is no doing of a caller. -/
  | outside (event : Client.Event)
  /-- The program has a turn. -/
  | turn

/-- The program sees whether a call is over. -/
def attend (p : Program) (k : Nat) : Program :=
  let client := p.client.step (.poll k)
  { p with client, call? := if (client.outcome? k).isSome then none else some k }

/-- The program asks the client for something. -/
def ask (p : Program) (operation : Operation) : Program :=
  { p with client := p.client.step (.invoke operation) }.attend p.client.calls.length

/-- The program takes a step. -/
def take (p : Program) (step : Step) : Program :=
  match step.operation? with
  | some operation => p.ask operation
  | none =>
      { p with client := p.client.updateConsole (step.perform p.client.workspace.store) }

/-- A turn of the program: it goes on with the call for which it waits, or else takes the next
step. -/
def turn (p : Program) : Program :=
  match p.call? with
  | some k => p.attend k
  | none => match p.rest with
      | [] => p
      | step :: rest => { p with rest }.take step

/-- The program after an event. -/
def step (p : Program) : Event → Program
  | .outside event => if event.isBeside then { p with client := p.client.step event } else p
  | .turn => p.turn

/-- The program after some events. -/
def run (p : Program) (events : List Event) : Program := events.foldl step p

theorem turn_of_call? {p : Program} {k : Nat} (h : p.call? = some k) : p.turn = p.attend k := by
  rw [turn, h]

theorem turn_of_step {p : Program} {step : Step} {rest : List Step} (h : p.call? = none)
    (hrest : p.rest = step :: rest) : p.turn = { p with rest }.take step := by
  simp only [turn, h, hrest]

theorem turn_of_over {p : Program} (h : p.call? = none) (hrest : p.rest = []) : p.turn = p := by
  rw [turn, h, hrest]

theorem run_append (p : Program) (events later : List Event) :
    p.run (events ++ later) = (p.run events).run later := List.foldl_append

/-- Whether the program has ended. -/
def isOver (p : Program) : Bool := p.rest.isEmpty && p.call?.isNone

/-- What the program has asked the client for, and what it will ask for. -/
def operations (p : Program) : List Operation :=
  p.client.calls.map Call.operation ++ p.rest.filterMap Step.operation?

/-! ### The calls come one after the other -/

/-- The program waits for its latest call or for none, and all other calls are over. -/
structure Sound (p : Program) : Prop where
  retained : p.client.IsRetained
  ended : ∀ k < p.client.calls.length, p.call? ≠ some k → (p.client.outcome? k).isSome
  waits : ∀ k, p.call? = some k → k + 1 = p.client.calls.length ∧ p.client.outcome? k = none

variable {p : Program} {k : Nat}

theorem sound_new (options : SessionOptions) (processId : Nat) (workspace : Workspace)
    (input : List UInt8) : (new options processId workspace input).Sound where
  retained := Client.isRetained_new options processId workspace
  ended k hk := absurd hk (Nat.not_lt_zero k)
  waits k hk := by cases hk

theorem sound_attend (h : p.client.IsRetained) (hlast : k + 1 = p.client.calls.length)
    (hover : ∀ i < k, (p.client.outcome? i).isSome) : (p.attend k).Sound where
  retained := Client.isRetained_step h (by simp)
  ended i hi hwaits := by
    change i < (p.client.step (.poll k)).calls.length at hi
    rw [Client.length_calls_poll h.orderly] at hi
    by_cases hik : i = k
    · subst hik
      by_contra hopen
      exact hwaits (if_neg hopen)
    · change ((p.client.step (.poll k)).outcome? i).isSome
      rw [Client.outcome?_poll_ne h.orderly (Ne.symm hik)]
      exact hover i (by omega)
  waits i hi := by
    change (if ((p.client.step (.poll k)).outcome? k).isSome then none else some k) = some i at hi
    split at hi
    · cases hi
    · rename_i hopen
      cases hi
      exact ⟨hlast.trans (Client.length_calls_poll h.orderly k).symm,
        Option.not_isSome_iff_eq_none.mp hopen⟩

/-- The program begins to wait for a new call. -/
theorem sound_ask (h : p.Sound) (hcall : p.call? = none) (operation : Operation) :
    (p.ask operation).Sound := by
  have hcalls := Client.calls_invoke h.retained operation
  refine sound_attend (Client.isRetained_step h.retained (by simp)) (by simp [hcalls]) fun i hi => ?_
  have hsame : (p.client.step (.invoke operation)).outcome? i = p.client.outcome? i := by
    rw [Client.outcome?, hcalls, List.getElem?_append_left hi, Client.outcome?]
  exact hsame ▸ h.ended i hi (by simp [hcall])

/-- It is so as long as the calls stay as they are. -/
theorem sound_of_calls (h : p.Sound) {client : Client} (hkept : client.IsRetained)
    (hcalls : client.calls = p.client.calls) (rest : List Step) :
    ({ p with client, rest } : Program).Sound where
  retained := hkept
  ended k hk hwaits := by
    change (client.outcome? k).isSome
    rw [Client.outcome?_of_calls hcalls]
    exact h.ended k (hcalls ▸ hk) hwaits
  waits k hk := by
    obtain ⟨hlast, hopen⟩ := h.waits k hk
    exact ⟨hcalls ▸ hlast, (Client.outcome?_of_calls hcalls k).trans hopen⟩

theorem sound_take (h : p.Sound) (hcall : p.call? = none) (step : Step) : (p.take step).Sound := by
  unfold take
  split
  · exact sound_ask h hcall _
  · have hkept : (p.client.updateConsole (step.perform p.client.workspace.store)).IsRetained :=
      Client.isRetained_workspace h.retained _
    exact sound_of_calls h hkept rfl p.rest

theorem sound_turn (h : p.Sound) : p.turn.Sound := by
  cases hcall : p.call? with
  | some k =>
      obtain ⟨hlast, -⟩ := h.waits k hcall
      rw [turn_of_call? hcall]
      refine sound_attend h.retained hlast fun i hi => h.ended i (by omega) fun hi' => ?_
      have hik : k = i := Option.some.inj (hcall.symm.trans hi')
      omega
  | none =>
      cases hrest : p.rest with
      | nil => rwa [turn_of_over hcall hrest]
      | cons step rest =>
          rw [turn_of_step hcall hrest]
          exact sound_take (sound_of_calls h h.retained rfl rest) hcall step

theorem sound_step (h : p.Sound) (event : Event) : (p.step event).Sound := by
  cases event with
  | turn => exact sound_turn h
  | outside event =>
      rw [step]
      split
      · rename_i hbeside
        have hevent : event ≠ .release := by rintro rfl; cases hbeside
        exact sound_of_calls h (Client.isRetained_step h.retained hevent)
          (Client.calls_beside hbeside) p.rest
      · exact h

/-- **The calls of the program come one after the other.** -/
theorem sound_run (h : p.Sound) (events : List Event) : (p.run events).Sound := by
  induction events generalizing p with
  | nil => exact h
  | cons event rest ih => exact ih (sound_step h event)

/-! ### What is asked for -/

theorem operations_attend (h : p.client.IsRetained) (k : Nat) :
    (p.attend k).operations = p.operations :=
  congrArg (· ++ p.rest.filterMap Step.operation?) (Client.map_operation_poll h.orderly k)

theorem operations_take (h : p.client.IsRetained) (step : Step) :
    (p.take step).operations =
      p.client.calls.map Call.operation ++ (step :: p.rest).filterMap Step.operation? := by
  unfold take
  split
  · rename_i operation hoperation
    have hcalls := Client.calls_invoke h operation
    rw [ask, operations_attend (Client.isRetained_step h (by simp))]
    simp [operations, hcalls, hoperation]
  · rename_i hoperation
    simp [operations, hoperation, Client.updateConsole]

theorem operations_turn (h : p.Sound) : p.turn.operations = p.operations := by
  cases hcall : p.call? with
  | some k =>
      rw [turn_of_call? hcall]
      exact operations_attend h.retained k
  | none =>
      cases hrest : p.rest with
      | nil => rw [turn_of_over hcall hrest]
      | cons step rest =>
          rw [turn_of_step hcall hrest]
          refine (operations_take (p := { p with rest }) h.retained step).trans ?_
          rw [operations, hrest]

theorem operations_step (h : p.Sound) (event : Event) :
    (p.step event).operations = p.operations := by
  cases event with
  | turn => exact operations_turn h
  | outside event =>
      rw [step]
      split
      · rename_i hbeside
        simp [operations, Client.calls_beside hbeside]
      · rfl

/-- **What the program has asked for and what it will ask for is what its input says.** -/
theorem operations_run (h : p.Sound) (events : List Event) :
    (p.run events).operations = p.operations := by
  induction events generalizing p with
  | nil => rfl
  | cons event rest ih => exact (ih (sound_step h event)).trans (operations_step h event)

end Program
end Terminal
end LanguageClient
