import LanguageClient.Client.Step

/-!
# What nobody keeps goes away once

* `Client.disown`, `Client.sweep` — the two parts of `Client.tidy`.
* `Client.tidy_tidy` — a tidy client stays as it is.
* `Client.tidy_step`, `Client.tidy_run` — after every event a client is tidy.
-/

namespace LanguageClient
namespace Client

/-- A client that nobody holds owns no session. -/
def disown (c : Client) : Client := if c.isHeld then c else { c with slot := none }

/-- Connections that nobody keeps are discarded. -/
def sweep (c : Client) : Client :=
  { c with
    attempts := c.attempts.mapIdx fun i a => if c.keepsConnection (i + 1) then a else discard a }

theorem tidy_eq_sweep (c : Client) : c.tidy = c.disown.sweep := rfl

@[simp] theorem tidy_calls (c : Client) : c.tidy.calls = c.calls := by
  rw [tidy_eq_sweep]
  unfold disown
  split <;> rfl

@[simp] theorem journal_tidy (c : Client) : c.tidy.journal = c.journal := by
  unfold tidy
  dsimp only
  split <;> rfl

theorem discard_discard (a : Attempt) : discard (discard a) = discard a := by
  cases hlaunch : a.launch with
  | connected =>
      by_cases hprocess : a.process = .running <;> by_cases hpump : a.pump = .waiting <;>
        simp [discard, hlaunch, hprocess, hpump, Connection.abort]
  | _ => simp [discard, hlaunch]

/-- What has been discarded is not discarded again. -/
theorem sweep_sweep (c : Client) : c.sweep.sweep = c.sweep := by
  have hkeeps : ∀ g, c.sweep.keepsConnection g = c.keepsConnection g := fun _ => rfl
  have hattempts : (c.sweep.attempts.mapIdx fun i a =>
      if c.sweep.keepsConnection (i + 1) then a else discard a) = c.sweep.attempts := by
    simp only [hkeeps]
    simp only [sweep, List.mapIdx_mapIdx]
    congr 1
    funext i a
    dsimp only [Function.comp]
    split
    · rfl
    · exact discard_discard a
  exact congrArg (fun attempts => { c.sweep with attempts }) hattempts

theorem disown_sweep_disown (c : Client) : c.disown.sweep.disown = c.disown.sweep := by
  have hheld : c.disown.sweep.isHeld = c.isHeld := by
    unfold disown
    split <;> rfl
  have hdisown : c.disown.sweep.disown =
      if c.isHeld then c.disown.sweep else { c.disown.sweep with slot := none } := by
    rw [← hheld]
    rfl
  rw [hdisown]
  unfold disown
  cases c.isHeld <;> rfl

theorem tidy_tidy (c : Client) : c.tidy.tidy = c.tidy := by
  rw [tidy_eq_sweep c.tidy, tidy_eq_sweep c, disown_sweep_disown, sweep_sweep]

theorem tidy_step (c : Client) (event : Event) : (c.step event).tidy = c.step event := tidy_tidy _

theorem tidy_run {c : Client} (h : c.tidy = c) (events : List Event) :
    (c.run events).tidy = c.run events := by
  induction events generalizing c with
  | nil => exact h
  | cons event rest ih => exact ih (tidy_step c event)

theorem tidy_new (options : SessionOptions) (processId : Nat) (workspace : Workspace) :
    (Client.new options processId workspace).tidy = Client.new options processId workspace := rfl

end Client
end LanguageClient
