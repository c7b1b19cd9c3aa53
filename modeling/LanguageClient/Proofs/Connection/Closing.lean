import LanguageClient.Proofs.Connection.Tasks

/-!
# What is left of a connection

Whoever closes a connection waits for its loop to come to its own end, and when the time is up aborts
it.  Only the loop's own end flags the connection closed and stops the reader.  An aborted loop takes
its part of the connection with it, but the flag stays down for ever, and the reader stays at work
until it finds something that nobody takes.

* `Tasks.aborted_move`, `Connection.aborted_run` — no flag is raised for an aborted loop.
* `Tasks.ended_move`, `Connection.ended_run` — the reader of a loop that has ended.
* **`Connection.flag_of_closing`** — when a connection is flagged that somebody has closed.
* **`Connection.reader_of_ended_loop`** — when the reader of a loop that has ended stops.
-/

namespace LanguageClient

open LanguageClient.Frame (Reading)

namespace Tasks

variable {t u : Tasks} {reading? : Option Reading} {removed : Bool}

/-- An aborted loop does not come to its own end any more. -/
theorem aborted_move (haborted : t.aborted) (hm : t.Move reading? removed u) :
    u.aborted ∧ u.closed = t.closed := by
  cases hm with
  | start hcreated hkept | finish hruns hkept =>
      rw [haborted] at hkept
      cases hkept
  | abort => exact ⟨rfl, rfl⟩
  | _ => exact ⟨haborted, rfl⟩

/-- When nobody takes what it finds, a reader goes on only past bodies that are no values. -/
theorem reading_read (hloop : t.loop ≠ .running) (r : Reading) :
    (t.read r).reading ↔ ∃ rest, r = .invalid rest := by
  cases r <;> simp [read, Reading.rest?, Reading.item?, hloop]

/-- After the end of the loop there is only the reader. -/
theorem ended_move (hended : t.loop = .ended) (hm : t.Move reading? removed u) :
    u.loop = .ended ∧ u.closed = t.closed ∧
      (u.reading ↔ t.reading ∧ ∀ r ∈ reading?, ∃ rest, r = .invalid rest) := by
  cases hm with
  | start hcreated hkept => cases hended.symm.trans hcreated
  | finish hruns hkept => cases hended.symm.trans hruns
  | remove haborted hopen => exact absurd hended hopen
  | read r hreading =>
      refine ⟨hended, rfl, ?_⟩
      rw [reading_read (by simp [hended])]
      simp [hreading]
  | _ => exact ⟨hended, rfl, by simp⟩

end Tasks

namespace Connection

variable {c d : Connection} {actions : List Action}

/-! ### Runs after the end -/

theorem aborted_run (haborted : c.aborted) (hrun : c.run? actions = some d) :
    d.aborted ∧ d.closed = c.closed := by
  refine run_keeps (P := fun k => k.aborted ∧ k.closed = c.closed) ?_ ⟨haborted, rfl⟩ hrun
  rintro k next action ⟨hstill, hflag⟩ hstep
  obtain ⟨hnext, hsame⟩ := Tasks.aborted_move (t := k.tasks) hstill (tasks_step hstep)
  exact ⟨hnext, hsame.trans hflag⟩

theorem readings_cons {action : Action} {next : Connection} (h : c.step? action = some next) :
    c.readings (action :: actions) = (c.reading? action).toList ++ next.readings actions := by
  simp only [readings, observe, h]

theorem ended_run (hended : c.loop = .ended) (hrun : c.run? actions = some d) :
    d.loop = .ended ∧ d.closed = c.closed ∧
      (d.reader.active ↔
        c.reader.active ∧ ∀ r ∈ c.readings actions, ∃ rest, r = .invalid rest) := by
  induction actions generalizing c with
  | nil =>
      cases hrun
      exact ⟨hended, rfl, by simp [readings, observe]⟩
  | cons action rest ih =>
      obtain ⟨next, hstep, hrest⟩ := Option.bind_eq_some_iff.mp hrun
      obtain ⟨hnext, hsame, hreads⟩ := Tasks.ended_move (t := c.tasks) hended (tasks_step hstep)
      obtain ⟨hlast, hclosed, hactive⟩ := ih hnext hrest
      have hreads : next.reader.active ↔
          c.reader.active ∧ ∀ r ∈ c.reading? action, ∃ rest, r = .invalid rest := hreads
      refine ⟨hlast, hclosed.trans hsame, ?_⟩
      rw [hactive, hreads, readings_cons hstep, List.forall_mem_append, and_assoc]
      simp

/-- A reader that has stopped reads nothing any more. -/
theorem readings_of_stopped (hended : c.loop = .ended) (hstopped : c.reader.active = false)
    (hrun : c.run? actions = some d) : c.readings actions = [] := by
  induction actions generalizing c with
  | nil => rfl
  | cons action rest ih =>
      obtain ⟨next, hstep, hrest⟩ := Option.bind_eq_some_iff.mp hrun
      obtain ⟨hnext, -, hreads⟩ := Tasks.ended_move (t := c.tasks) hended (tasks_step hstep)
      have hnone : c.reading? action = none := by
        cases action <;> simp [reading?, hstopped]
      have hidle : next.reader.active = false := by
        by_contra hactive
        have hnever : c.reader.active := (hreads.mp (by simpa [tasks] using hactive)).1
        rw [hstopped] at hnever
        cases hnever
      rw [readings_cons hstep, hnone, ih hnext hidle hrest]
      rfl

/-- An aborted loop that is not gone yet can go away at any time. -/
theorem exists_remove (haborted : c.aborted) (hopen : c.loop ≠ .ended) :
    ∃ d, c.step? .remove = some d ∧ d.loop = .ended ∧ d.closed = c.closed := by
  have hclosed : c.closeCalls.closed = c.closed := congrArg Tasks.closed (tasks_closeCalls c)
  exact ⟨c.closeCalls, by simp [step?, remove?, haborted, hopen], rfl, hclosed⟩

/-! ### The flag -/

/-- **Whether a connection that was closed is flagged.**  When somebody has waited for a connection to
end and aborts it then, the flag stays for ever what it was: up if the loop had come to its own end,
as it has when nobody aborted it before and it ended within the time; and down if the time was up,
although the loop is gone, or can go away at any time. -/
theorem flag_of_closing (before later : List Action) (c d : Connection) (now deadline : Nat)
    (hrun : ({} : Connection).run? before = some c) (hover : c.closeIsOver now deadline)
    (hlater : c.abort.run? later = some d) :
    d.closed = c.closed ∧ (c.closed ↔ c.loop = .ended ∧ .remove ∉ before) ∧
      (c.aborted = false → now < deadline → d.closed) ∧
      (d.loop = .ended ∨ ∃ e, d.step? .remove = some e ∧ e.loop = .ended ∧ e.closed = c.closed) := by
  obtain ⟨haborted, hsame⟩ := aborted_run (c := c.abort) rfl hlater
  have hsame : d.closed = c.closed := hsame
  refine ⟨hsame, closed_iff_of_run hrun, fun hkept hearly => ?_, ?_⟩
  · simp only [closeIsOver, isOpen, Bool.or_eq_true, Bool.not_eq_true', decide_eq_false_iff_not,
      decide_eq_true_eq, not_not] at hover
    rw [hsame]
    rcases hover with (hclosed | hended) | hlate
    · exact hclosed
    · exact closed_of_kept hrun hkept hended
    · omega
  · by_cases hended : d.loop = .ended
    · exact .inl hended
    · obtain ⟨e, hstep, hgone, hclosed⟩ := exists_remove haborted hended
      exact .inr ⟨e, hstep, hgone, hclosed.trans hsame⟩

/-- A server ends its side within the time, and the loop comes to its own end. -/
theorem flag_of_a_server_that_leaves :
    let before : List Action := [.start, .endOfStream, .read, .handle]
    let later : List Action := [.request "late" .null 50, .settle 10 1]
    ∃ c d : Connection, ({} : Connection).run? before = some c ∧ c.closeIsOver 10 100 ∧
      c.abort.run? later = some d ∧ c.aborted = false ∧ d.closed := by
  intro before later
  have hends : (({} : Connection).run? before).bind (fun c => (c.abort.run? later).map fun _ =>
      (c.closeIsOver 10 100, c.aborted)) = some (true, false) := by decide +kernel
  obtain ⟨c, hrun, hrest⟩ := Option.bind_eq_some_iff.mp hends
  obtain ⟨d, hlater, hboth⟩ := Option.map_eq_some_iff.mp hrest
  obtain ⟨hover, hkept⟩ := Prod.mk.inj hboth
  obtain ⟨-, -, hflag, -⟩ := flag_of_closing before later c d 10 100 hrun hover hlater
  exact ⟨c, d, hrun, hover, hlater, hkept, hflag hkept (by decide)⟩

/-- The server stays, the time is up, and the aborted loop goes away: the flag is down. -/
theorem flag_of_a_server_that_stays :
    let before : List Action := [.start]
    ∃ c d : Connection, ({} : Connection).run? before = some c ∧ c.closeIsOver 100 100 ∧
      c.abort.run? [.remove] = some d ∧ d.loop = .ended ∧ d.closed = false := by
  refine ⟨_, _, rfl, ?_, rfl, ?_, ?_⟩ <;> decide

/-! ### The reader -/

/-- Whether the server sends something, or ends its side. -/
def Action.arrives : Action → Bool
  | receive _ => true
  | endOfStream => true
  | _ => false

/-- Only the server and the reader itself change what the reader has before it; the loop sets the
reader to work, and its own end stops it. -/
theorem reader_step {action : Action} (h : c.step? action = some d)
    (hsilent : action.arrives = false) (hother : action ≠ .read) :
    d.reader = { c.reader with active := d.reader.active } := by
  have hteardown : c.teardown.reader = { c.reader with active := c.teardown.reader.active } := by
    rw [teardown_eq]
  cases transition_of_step h with
  | find | lose | skip | fail | stop => exact absurd rfl hother
  | receive | endOfStream => cases hsilent
  | handle value rest after hruns hfree hinbox haccepts =>
      have hreader : d.reader = c.reader := congrArg Intake.reader (intake_of_acceptance haccepts)
      rw [hreader]
  | breakOff | fault | finish => exact hteardown
  | remove haborted hopen => rw [closeCalls_eq]
  | request | notify | settle | forget | take | start | write | wrote | abort | stopReading => rfl

/-- A reader that waits for the rest of a message reads nothing as long as the server is silent. -/
theorem readings_of_silence (hwaits : Frame.read c.reader.ended c.reader.buffer = .incomplete)
    (hsilent : ∀ action ∈ actions, action.arrives = false) (hrun : c.run? actions = some d) :
    c.readings actions = [] := by
  induction actions generalizing c with
  | nil => rfl
  | cons action rest ih =>
      obtain ⟨next, hstep, hrest⟩ := Option.bind_eq_some_iff.mp hrun
      rw [List.forall_mem_cons] at hsilent
      have hother : action ≠ .read := by
        rintro rfl
        simp [step?, read?, hwaits] at hstep
      have hreader := reader_step hstep hsilent.1 hother
      have hnone : c.reading? action = none := by
        cases action <;> first | rfl | exact absurd rfl hother
      rw [readings_cons hstep, hnone, ih (by rw [hreader]; exact hwaits) hsilent.2 hrest]
      rfl

/-- **The reader of a loop that has ended.**  Nothing that it reads gets to anybody.  When the loop
has come to its own end, the reader has stopped, and takes nothing more that the server sends.  When
the loop was removed, the reader stays at work, takes what the server sends, and stops when it has
found something else than a body that is no value; so as long as the server is silent it waits for
more. -/
theorem reader_of_ended_loop (before later : List Action) (c d : Connection)
    (hrun : ({} : Connection).run? before = some c) (hended : c.loop = .ended)
    (hlater : c.run? later = some d) :
    d.inbox = [] ∧ d.takesBytes = d.reader.active ∧
      (.remove ∉ before → c.readings later = [] ∧ d.takesBytes = false) ∧
      (d.reader.active ↔ c.reader.active ∧ ∀ r ∈ c.readings later, ∃ rest, r = .invalid rest) ∧
      (c.reader.active → Frame.read c.reader.ended c.reader.buffer = .incomplete →
        (∀ action ∈ later, action.arrives = false) → d.takesBytes) := by
  obtain ⟨hlast, -, hactive⟩ := ended_run hended hlater
  have hall : ({} : Connection).run? (before ++ later) = some d := by rw [run?_append hrun, hlater]
  have htakes : d.takesBytes = d.reader.active := by simp [takesBytes, hlast]
  refine ⟨(regular_of_run hall).emptied hlast, htakes, fun hkept => ?_, hactive,
    fun hreads hwaits hsilent => ?_⟩
  · have hclosed : c.closed := (closed_iff_of_run hrun).mpr ⟨hended, hkept⟩
    have hstopped : c.reader.active = false := (regular_of_run hrun).stopped hclosed
    refine ⟨readings_of_stopped hended hstopped hlater, ?_⟩
    rw [htakes, ← Bool.not_eq_true, hactive, hstopped]
    simp
  · rw [htakes, hactive, readings_of_silence hwaits hsilent hlater]
    exact ⟨hreads, List.forall_mem_nil _⟩

/-- A loop is removed while its reader waits for the rest of a header, and the server says nothing
more. -/
theorem reader_of_a_silent_server :
    let before : List Action := [.start, .receive (Text.bytes "Content-Le"), .abort, .remove]
    let later : List Action := [.request "late" .null 50, .settle 10 1, .take]
    ∃ c d : Connection, ({} : Connection).run? before = some c ∧ c.loop = .ended ∧
      c.run? later = some d ∧ c.reader.active ∧
      (∀ action ∈ later, action.arrives = false) ∧ d.takesBytes := by
  intro before later
  have hends : (({} : Connection).run? before).bind (fun c => (c.run? later).map fun _ =>
      (c.loop, c.reader.active, c.reader.ended, c.reader.buffer)) =
        some (.ended, true, false, Text.bytes "Content-Le") := by
    decide +kernel
  obtain ⟨c, hrun, hrest⟩ := Option.bind_eq_some_iff.mp hends
  obtain ⟨d, hlater, hall⟩ := Option.map_eq_some_iff.mp hrest
  simp only [Prod.mk.injEq] at hall
  obtain ⟨hended, hreads, hstream, hbuffer⟩ := hall
  have hwaits : Frame.read c.reader.ended c.reader.buffer = .incomplete := by
    rw [hstream, hbuffer]
    exact Frame.readFrom_of_splitLine?_none (by decide) false none
  have hsilent : ∀ action ∈ later, action.arrives = false := by
    intro action haction
    revert action
    decide
  obtain ⟨-, -, -, -, hgoes⟩ := reader_of_ended_loop before later c d hrun hended hlater
  exact ⟨c, d, hrun, hended, hlater, hreads, hsilent, hgoes hreads hwaits hsilent⟩

/-- The same with a message of the server behind the end: the bytes are taken off the stream. -/
theorem message_behind_the_end :
    let frame := Text.bytes "Content-Length: 2\r\n\r\n[]"
    ∃ c d e : Connection, ({} : Connection).run? [.start, .abort, .remove] = some c ∧
      c.loop = .ended ∧ c.takesBytes ∧ c.step? (.receive frame) = some d ∧
      d.reader.buffer = frame ∧ d.step? .read = some e ∧ e.reader.buffer = [] := by
  intro frame
  have hends : (({} : Connection).run? [.start, .abort, .remove]).bind (fun c =>
      (c.step? (.receive frame)).bind fun d => (d.step? .read).map fun e =>
        (c.loop, c.takesBytes, d.reader.buffer, e.reader.buffer)) =
          some (.ended, true, frame, []) := by
    decide +kernel
  obtain ⟨c, hrun, hrest⟩ := Option.bind_eq_some_iff.mp hends
  obtain ⟨d, hreceive, hread⟩ := Option.bind_eq_some_iff.mp hrest
  obtain ⟨e, hstep, hall⟩ := Option.map_eq_some_iff.mp hread
  simp only [Prod.mk.injEq] at hall
  exact ⟨c, d, e, hrun, hall.1, hall.2.1, hreceive, hall.2.2.1, hstep, hall.2.2.2⟩

end Connection
end LanguageClient
