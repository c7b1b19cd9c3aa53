import LanguageClient.Proofs.Connection.Pieces

/-!
# The two tasks of a connection

A connection is the work of two tasks: the loop, and the reader that the loop sets to work.  The loop
ends in one of two ways.  It comes to its own end, stops the reader and flags the connection closed;
or it is aborted and removed where it stands, and then nobody does either.

* `Tasks`, `Connection.tasks` — the view.
* `Tasks.Move` — what a step does to the tasks; **`Connection.tasks_step`** — every step is a move.
* `Tasks.Regular` — what is known of the tasks of every run; `Tasks.regular_move`,
  `Connection.regular_of_run`.
* `Connection.closed_iff_of_run` — the flag tells which of the two ends the loop has had.
-/

namespace LanguageClient

open LanguageClient.Frame (Reading)

/-! ### The view -/

/-- How far the tasks of a connection have come, and what goes from the reader to the loop. -/
structure Tasks where
  loop : LoopPhase
  aborted : Bool
  closed : Bool
  /-- Whether the reader is at work. -/
  reading : Bool
  inbox : List (Except SessionError Json)

namespace Tasks

/-- The reader has read something.  The loop gets it as long as it runs.  The reader goes on when it
has taken something off the stream that the loop gets, or that is not meant for it. -/
def read (t : Tasks) (r : Reading) : Tasks :=
  { t with
    reading := r.rest?.isSome && (t.loop = .running || r.item?.isNone)
    inbox := if t.loop = .running then t.inbox ++ r.item?.toList else t.inbox }

/-- The loop is gone, with what it has not handled. -/
def remove (t : Tasks) : Tasks := { t with loop := .ended, inbox := [] }

/-- The loop has come to its own end. -/
def finish (t : Tasks) : Tasks := { t.remove with closed := true, reading := false }

/-- What a step does to the tasks, with what is read, and whether it removes the loop. -/
inductive Move : Tasks → Option Reading → Bool → Tasks → Prop
  | idle (t : Tasks) : Move t none false t
  | start (t : Tasks) (hcreated : t.loop = .created) (hkept : t.aborted = false) :
      Move t none false { t with loop := .running, reading := true }
  | read (t : Tasks) (r : Reading) (hreading : t.reading) : Move t (some r) false (t.read r)
  | handle (t : Tasks) (value : Json) (rest : List (Except SessionError Json))
      (hinbox : t.inbox = .ok value :: rest) : Move t none false { t with inbox := rest }
  | finish (t : Tasks) (hruns : t.loop = .running) (hkept : t.aborted = false) :
      Move t none false t.finish
  | abort (t : Tasks) : Move t none false { t with aborted := true }
  | remove (t : Tasks) (haborted : t.aborted) (hopen : t.loop ≠ .ended) :
      Move t none true t.remove

/-! ### What is known of the tasks -/

/-- The tasks of a run; `removed` tells whether the loop was removed. -/
structure Regular (t : Tasks) (removed : Bool) : Prop where
  /-- The connection is flagged closed exactly when the loop has come to its own end. -/
  closed : t.closed ↔ t.loop = .ended ∧ removed = false
  /-- A loop that was removed had been aborted, and is gone. -/
  gone : removed → t.loop = .ended ∧ t.aborted
  /-- The end of the loop is the end of the reader. -/
  stopped : t.closed → t.reading = false
  /-- Nothing is read before the loop runs. -/
  waits : t.loop = .created → t.reading = false ∧ t.inbox = []
  /-- Nothing is kept for a loop that is gone. -/
  emptied : t.loop = .ended → t.inbox = []
  /-- A reader at work has found values only. -/
  values : t.reading → ∃ values : List Json, t.inbox = values.map .ok

variable {t u : Tasks} {reading? : Option Reading} {removed now : Bool}

theorem removed_of_open (h : t.Regular removed) (hopen : t.loop ≠ .ended) : removed = false := by
  by_contra hremoved
  exact hopen (h.gone (by simpa using hremoved)).1

theorem unclosed_of_open (h : t.Regular removed) (hopen : t.loop ≠ .ended) : ¬ t.closed :=
  fun hclosed => hopen (h.closed.mp hclosed).1

/-- A reading that leaves the reader at work has found a value, or nothing for the loop. -/
theorem item?_of_rest? {r : Reading} (h : r.rest?.isSome) :
    ∃ values : List Json, r.item?.toList = values.map .ok := by
  cases r with
  | message value rest => exact ⟨[value], rfl⟩
  | invalid rest => exact ⟨[], rfl⟩
  | _ => cases h

theorem regular_read (h : t.Regular removed) (hreading : t.reading) (r : Reading) :
    (t.read r).Regular removed := by
  have hunclosed : t.closed = false := by
    by_contra hclosed
    rw [h.stopped (by simpa using hclosed)] at hreading
    cases hreading
  refine ⟨h.closed, h.gone, fun hclosed => ?_, fun hcreated => ?_, fun hended => ?_, fun hgoes => ?_⟩
  · rw [show (t.read r).closed = t.closed from rfl, hunclosed] at hclosed
    cases hclosed
  · rw [(h.waits hcreated).1] at hreading
    cases hreading
  · have hended : t.loop = .ended := hended
    simp only [read, hended]
    exact h.emptied hended
  · obtain ⟨found, hfound⟩ := h.values hreading
    simp only [read, Bool.and_eq_true] at hgoes
    obtain ⟨more, hmore⟩ := item?_of_rest? hgoes.1
    by_cases hruns : t.loop = .running
    · exact ⟨found ++ more, by simp [read, hruns, hfound, hmore]⟩
    · exact ⟨found, by simp [read, hruns, hfound]⟩

/-- **Every move keeps what is known of the tasks.** -/
theorem regular_move (h : t.Regular removed) (hm : t.Move reading? now u) :
    u.Regular (removed || now) := by
  cases hm with
  | idle => simpa using h
  | start hcreated hkept =>
      have hopen : t.loop ≠ .ended := by simp [hcreated]
      have hunclosed := unclosed_of_open h hopen
      rw [removed_of_open h hopen]
      exact ⟨⟨fun hclosed => absurd hclosed hunclosed, fun hnever => by cases hnever.1⟩, nofun,
        fun hclosed => absurd hclosed hunclosed, nofun, nofun, fun _ => ⟨[], (h.waits hcreated).2⟩⟩
  | read r hreading => simpa using regular_read h hreading r
  | handle value rest hinbox =>
      -- There is nothing to handle before the loop runs, and nothing when it has ended.
      have hfull : t.inbox ≠ [] := by simp [hinbox]
      rw [Bool.or_false]
      refine ⟨h.closed, h.gone, h.stopped, fun hcreated => absurd (h.waits hcreated).2 hfull,
        fun hended => absurd (h.emptied hended) hfull, fun hreading => ?_⟩
      obtain ⟨values, hvalues⟩ := h.values hreading
      refine ⟨values.tail, ?_⟩
      rw [List.map_tail, ← hvalues, hinbox]
      rfl
  | finish hruns hkept =>
      rw [removed_of_open h (by simp [hruns])]
      exact ⟨⟨fun _ => ⟨rfl, rfl⟩, fun _ => rfl⟩, nofun, fun _ => rfl, nofun, fun _ => rfl, nofun⟩
  | abort =>
      rw [Bool.or_false]
      exact ⟨h.closed, fun hremoved => ⟨(h.gone hremoved).1, rfl⟩, h.stopped, h.waits, h.emptied,
        h.values⟩
  | remove haborted hopen =>
      have hunclosed := unclosed_of_open h hopen
      rw [Bool.or_true]
      exact ⟨⟨fun hclosed => absurd hclosed hunclosed, fun hnever => by cases hnever.2⟩,
        fun _ => ⟨rfl, haborted⟩, fun hclosed => absurd hclosed hunclosed, nofun, fun _ => rfl,
        fun _ => ⟨[], rfl⟩⟩

end Tasks

/-! ### Steps -/

namespace Connection

variable {c d : Connection} {actions : List Action}

/-- How far the tasks of a connection have come. -/
def tasks (c : Connection) : Tasks := ⟨c.loop, c.aborted, c.closed, c.reader.active, c.inbox⟩

/-- Whether a step removes the loop. -/
def Action.removes : Action → Bool
  | remove => true
  | _ => false

theorem tasks_closeCalls (c : Connection) : c.closeCalls.tasks = c.tasks.remove := by
  rw [closeCalls_eq]
  rfl

theorem tasks_teardown (c : Connection) : c.teardown.tasks = c.tasks.finish := by
  rw [teardown_eq, closeCalls_eq]
  rfl

theorem tasks_of_acceptance {value : Json} (h : c.Acceptance value d) : d.tasks = c.tasks := by
  have hintake := intake_of_acceptance h
  simp only [intake, Intake.mk.injEq] at hintake
  simp [tasks, hintake]

/-- The loop comes to its own end. -/
theorem finish_tasks (h : c.isRunning) : c.tasks.Move none false c.teardown.tasks := by
  obtain ⟨hruns, hkept⟩ := isRunning_iff.mp h
  rw [tasks_teardown]
  exact .finish c.tasks hruns hkept

/-- A step of the reader does to the tasks what its reading says. -/
theorem tasks_read (h : c.step? .read = some d) :
    c.tasks.Move (c.reading? .read) false d.tasks := by
  have hmove := Tasks.Move.read c.tasks (Frame.read c.reader.ended c.reader.buffer)
  suffices hsame : c.reader.active ∧
      d.tasks = c.tasks.read (Frame.read c.reader.ended c.reader.buffer) by
    rw [reading?, if_pos hsame.1, hsame.2]
    exact hmove hsame.1
  cases transition_of_step h with
  | find value rest hactive hread hruns | lose value rest hactive hread hruns =>
      exact ⟨hactive, by simp [tasks, Tasks.read, hread, Reading.rest?, Reading.item?, hruns, hactive]⟩
  | skip rest hactive hread =>
      exact ⟨hactive, by simp [tasks, Tasks.read, hread, Reading.rest?, Reading.item?, hactive]⟩
  | fail e hactive hread hruns =>
      exact ⟨hactive,
        by simp [tasks, Tasks.read, hread, Reading.rest?, Reading.item?, stopReader, hruns]⟩
  | stop reading hactive hread hnone hfound hsilent =>
      refine ⟨hactive, ?_⟩
      cases reading with
      | message value rest => cases hnone
      | invalid rest => cases hnone
      | failed e =>
          simp [tasks, Tasks.read, hread, Reading.rest?, stopReader, hsilent e rfl]
      | finished | tooLarge | incomplete =>
          simp [tasks, Tasks.read, hread, Reading.rest?, Reading.item?, stopReader]

/-- **Every step of a connection is a move of its tasks.** -/
theorem tasks_step {action : Action} (h : c.step? action = some d) :
    c.tasks.Move (c.reading? action) action.removes d.tasks := by
  cases transition_of_step h with
  | find | lose | skip | fail | stop => exact tasks_read h
  | start hcreated hkept => exact .start c.tasks hcreated hkept
  | breakOff message hruns hwriting hreads => exact finish_tasks hruns
  | handle value rest after hruns hfree hinbox haccepts =>
      rw [tasks_of_acceptance haccepts]
      exact .handle c.tasks value rest hinbox
  | fault e rest hruns hfree hinbox => exact finish_tasks hruns
  | finish hruns hfree hinbox hstopped => exact finish_tasks hruns
  | abort => exact .abort c.tasks
  | remove haborted hopen =>
      rw [tasks_closeCalls]
      exact .remove c.tasks haborted hopen
  | request | notify | settle | forget | take | write | wrote | receive | endOfStream
    | stopReading => exact .idle _

/-! ### Runs -/

theorem regular_run {removed : Bool} (h : c.tasks.Regular removed)
    (hrun : c.run? actions = some d) : d.tasks.Regular (removed || actions.any Action.removes) := by
  induction actions generalizing c removed with
  | nil =>
      cases hrun
      simpa using h
  | cons action rest ih =>
      obtain ⟨next, hstep, hrest⟩ := Option.bind_eq_some_iff.mp hrun
      rw [List.any_cons, ← Bool.or_assoc]
      exact ih (Tasks.regular_move h (tasks_step hstep)) hrest

/-- The tasks of a new connection. -/
theorem regular_empty : ({} : Connection).tasks.Regular false :=
  ⟨by decide, nofun, nofun, fun _ => ⟨rfl, rfl⟩, nofun, nofun⟩

/-- What is known of the tasks of every run. -/
theorem regular_of_run (hrun : ({} : Connection).run? actions = some c) :
    c.tasks.Regular (actions.any Action.removes) :=
  regular_run regular_empty hrun

theorem any_removes_iff : actions.any Action.removes ↔ .remove ∈ actions := by
  rw [List.any_eq_true]
  constructor
  · rintro ⟨action, hmem, hremoves⟩
    cases action <;> first | exact hmem | cases hremoves
  · exact fun hmem => ⟨_, hmem, rfl⟩

/-- The flag of a run. -/
theorem closed_iff_of_run (hrun : ({} : Connection).run? actions = some c) :
    c.closed ↔ c.loop = .ended ∧ .remove ∉ actions := by
  have hclosed := (regular_of_run hrun).closed
  rwa [← Bool.not_eq_true, any_removes_iff] at hclosed

/-- A loop that has ended and was not aborted has come to its own end. -/
theorem closed_of_kept (hrun : ({} : Connection).run? actions = some c) (hkept : c.aborted = false)
    (hended : c.loop = .ended) : c.closed := by
  have hregular := regular_of_run hrun
  refine hregular.closed.mpr ⟨hended, ?_⟩
  by_contra hremoved
  have haborted : c.aborted := (hregular.gone (by simpa using hremoved)).2
  rw [hkept] at haborted
  cases haborted

end Connection
end LanguageClient
