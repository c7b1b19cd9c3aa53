import LanguageClient.Proofs.Connection.Framed
import LanguageClient.Proofs.Connection.Tasks
import LanguageClient.Proofs.Frame.Lengths

/-!
# The fault that ends a connection

When the reader comes to a fault it stops, and the fault is the last that the loop gets.  The loop
handles what was found before, and then comes to its own end.  A body that the stream does not hold is
such a fault, unless its length is refused before anything of the body is looked for: then the reader
stops without a word.  For a body whose length is not refused memory is taken as sufficient.

* `Tasks.HasStoppedAt` — a reader that has stopped, and what the loop gets last.
* `Tasks.hasStoppedAt_read`, `Tasks.hasStoppedAt_move`, `Connection.hasStoppedAt_run` — it stays the
  last.
* `Connection.exists_end` — the loop comes to its end by its own steps.
* **`Connection.missing_bodies`** — what is read of a body that the stream does not hold, and what
  comes of it.
-/

namespace LanguageClient

open LanguageClient.Frame (Reading)

namespace Tasks

variable {t u : Tasks} {last? : Option SessionError} {reading? : Option Reading} {removed : Bool}

/-- The reader has stopped.  As long as the loop runs, it has values to handle and then the fault that
the reader came to, if it was one. -/
structure HasStoppedAt (t : Tasks) (last? : Option SessionError) : Prop where
  begun : t.loop ≠ .created
  stopped : t.loop = .running → t.reading = false
  inbox : t.loop = .running →
    ∃ values : List Json, t.inbox = values.map .ok ++ last?.toList.map .error

/-- Nothing has to be known of a loop that has ended. -/
theorem hasStoppedAt_of_ended (hended : t.loop = .ended) : t.HasStoppedAt last? where
  begun := by simp [hended]
  stopped hruns := by cases hended.symm.trans hruns
  inbox hruns := by cases hended.symm.trans hruns

/-- A reader that comes to a fault. -/
theorem hasStoppedAt_read (h : t.Regular removed) (hruns : t.loop = .running) (hreads : t.reading)
    (e : SessionError) : (t.read (.failed e)).HasStoppedAt (some e) where
  begun := by simp [read, hruns]
  stopped _ := rfl
  inbox _ := by
    obtain ⟨values, hvalues⟩ := h.values hreads
    exact ⟨values, by simp [read, hruns, hvalues, Reading.item?]⟩

/-- **What the loop gets last stays the last.** -/
theorem hasStoppedAt_move (h : t.HasStoppedAt last?) (hm : t.Move reading? removed u) :
    u.HasStoppedAt last? := by
  cases hm with
  | idle => exact h
  | abort => exact ⟨h.begun, h.stopped, h.inbox⟩
  | start hcreated hkept => exact absurd hcreated h.begun
  | read r hreading =>
      refine ⟨h.begun, fun hruns => ?_, fun hruns => ?_⟩ <;>
      · rw [h.stopped hruns] at hreading
        cases hreading
  | handle value rest hinbox =>
      refine ⟨h.begun, h.stopped, fun hruns => ?_⟩
      obtain ⟨values, hvalues⟩ := h.inbox hruns
      rw [hinbox] at hvalues
      cases values with
      | nil => cases last? <;> cases hvalues
      | cons first values =>
          injection hvalues with _ hrest
          exact ⟨values, hrest⟩
  | finish hruns hkept => exact hasStoppedAt_of_ended rfl
  | remove haborted hopen => exact hasStoppedAt_of_ended rfl

end Tasks

namespace Connection

variable {c d : Connection} {actions : List Action} {last? : Option SessionError}

theorem hasStoppedAt_run (h : c.tasks.HasStoppedAt last?) (hrun : c.run? actions = some d) :
    d.tasks.HasStoppedAt last? :=
  run_keeps (P := fun c => c.tasks.HasStoppedAt last?)
    (fun h hstep => Tasks.hasStoppedAt_move h (tasks_step hstep)) h hrun

/-! ### The way to the end -/

/-- Whether a step is one by which the loop goes on with what it has. -/
def Action.proceeds : Action → Bool
  | finish => true
  | handle => true
  | _ => false

/-- A step brings the loop to its own end, or leaves it less to do. -/
def ComesNearer (c d : Connection) : Prop := d.closed ∨ d.isRunning ∧ d.workLeft < c.workLeft

theorem finish_comesNearer (hruns : c.isRunning) {message : Outgoing}
    (hwriting : c.writing? = some message) :
    ∃ d, c.step? .finish = some d ∧ c.ComesNearer d := by
  cases hreads : c.peerReads with
  | true =>
      let next : Connection := { c with
        writing? := none
        written := c.written ++ [message.toJson]
        pending := c.pending ++ message.id?.toList }
      have hless : next.workLeft < c.workLeft := by simp [next, workLeft, hwriting]
      exact ⟨next, by simp [step?, finish?, hruns, hwriting, hreads, next], .inr ⟨hruns, hless⟩⟩
  | false =>
      exact ⟨c.teardown, by simp [step?, finish?, hruns, hwriting, hreads], .inl rfl⟩

theorem handle_comesNearer (h : c.tasks.HasStoppedAt last?) (hruns : c.isRunning)
    (hfree : c.writing? = none) : ∃ d, c.step? .handle = some d ∧ c.ComesNearer d := by
  obtain ⟨hloop, hkept⟩ := isRunning_iff.mp hruns
  have hattentive : c.isAttentive := isAttentive_iff.mpr ⟨hruns, hfree⟩
  have hstopped : c.reader.active = false := h.stopped hloop
  obtain ⟨values, hinbox⟩ := h.inbox hloop
  have hinbox : c.inbox = values.map .ok ++ last?.toList.map .error := hinbox
  cases values with
  | nil =>
      -- The fault, or the end of a reader that has found none: the loop ends either way.
      refine ⟨c.teardown, ?_, .inl rfl⟩
      cases last? <;> simp [step?, handle?, hattentive, hinbox, hstopped]
  | cons value values =>
      let rest : List (Except SessionError Json) := values.map .ok ++ last?.toList.map .error
      let next : Connection := { c with inbox := rest }
      have hstep : c.step? .handle = some (next.accept value) := by
        simp [step?, handle?, hattentive, hinbox, rest, next]
      have hsame : (next.accept value).tasks = next.tasks :=
        tasks_of_acceptance (acceptance_accept next value)
      -- The value may be a request, whose answer is then written; that is less than the value was.
      refine ⟨next.accept value, hstep, .inr ⟨isRunning_iff.mpr ⟨?_, ?_⟩, ?_⟩⟩
      · exact (congrArg Tasks.loop hsame).trans hloop
      · exact (congrArg Tasks.aborted hsame).trans hkept
      · have haccept := workLeft_of_acceptance (acceptance_accept next value) hfree
        have hone : next.workLeft + 2 = c.workLeft := by
          simp only [workLeft, hinbox, next, rest, List.map_cons, List.cons_append, List.length_cons]
          omega
        omega

/-- While the loop writes it goes on with that, and else it handles what is next. -/
theorem exists_proceeding (h : c.tasks.HasStoppedAt last?) (hruns : c.isRunning) :
    ∃ action d, action.proceeds ∧ c.step? action = some d ∧ c.ComesNearer d := by
  cases hwriting : c.writing? with
  | some message =>
      obtain ⟨d, hstep, hnearer⟩ := finish_comesNearer hruns hwriting
      exact ⟨.finish, d, rfl, hstep, hnearer⟩
  | none =>
      obtain ⟨d, hstep, hnearer⟩ := handle_comesNearer h hruns hwriting
      exact ⟨.handle, d, rfl, hstep, hnearer⟩

/-- The loop comes to its own end. -/
theorem exists_end (h : c.tasks.HasStoppedAt last?) (hruns : c.isRunning) :
    ∃ actions d, (∀ action ∈ actions, action.proceeds) ∧ c.run? actions = some d ∧ d.closed := by
  induction hwork : c.workLeft using Nat.strong_induction_on generalizing c with
  | _ work ih =>
      obtain ⟨action, next, hproceeds, hstep, hclosed | ⟨hnext, hless⟩⟩ := exists_proceeding h hruns
      · exact ⟨[action], next, by simpa, by simp [run?, hstep], hclosed⟩
      · obtain ⟨actions, d, hall, hrun, hclosed⟩ :=
          ih next.workLeft (hwork ▸ hless) (Tasks.hasStoppedAt_move h (tasks_step hstep)) hnext rfl
        exact ⟨action :: actions, d, List.forall_mem_cons.mpr ⟨hproceeds, hall⟩,
          Option.bind_eq_some_iff.mpr ⟨next, hstep, hrun⟩, hclosed⟩

/-- A fault of the stream ends the connection: nothing that is done until then brings the loop
anything behind it. -/
theorem end_of_fault {before : List Action} {e : SessionError}
    (hrun : ({} : Connection).run? before = some c) (hruns : c.loop = .running)
    (hreads : c.reader.active)
    (hfault : Frame.read c.reader.ended c.reader.buffer = .failed e) :
    ∃ d, c.step? .read = some d ∧ ∀ (later : List Action) (f : Connection),
      d.run? later = some f → f.tasks.HasStoppedAt (some e) ∧
        (f.aborted ∨ f.closed ∨ ∃ more g, (∀ action ∈ more, action.proceeds) ∧
          f.run? more = some g ∧ g.closed) := by
  let d : Connection := { c.stopReader with inbox := c.inbox ++ [.error e] }
  have hstep : c.step? .read = some d := by simp [step?, read?, hreads, hfault, hruns, d]
  refine ⟨d, hstep, fun later f hlater => ?_⟩
  have hread : d.tasks = c.tasks.read (.failed e) := by
    simp [d, tasks, stopReader, Tasks.read, Reading.rest?, Reading.item?, hruns]
  have hstoppedAt : d.tasks.HasStoppedAt (some e) := by
    rw [hread]
    exact Tasks.hasStoppedAt_read (regular_of_run hrun) hruns hreads e
  have hstoppedAt : f.tasks.HasStoppedAt (some e) := hasStoppedAt_run hstoppedAt hlater
  refine ⟨hstoppedAt, ?_⟩
  cases haborted : f.aborted with
  | true => exact .inl rfl
  | false =>
      refine .inr ?_
      cases hloop : f.loop with
      | created => exact absurd hloop hstoppedAt.begun
      | running => exact .inr (exists_end hstoppedAt (isRunning_iff.mpr ⟨hloop, haborted⟩))
      | ended =>
          have hall : ({} : Connection).run? (before ++ .read :: later) = some f := by
            rw [run?_append hrun]
            exact Option.bind_eq_some_iff.mpr ⟨d, hstep, hlater⟩
          exact .inl (closed_of_kept hall haborted hloop)

/-! ### Bodies that the stream does not hold -/

/-- **Bodies that the stream does not hold.**  Reading a stream that has ended always comes to an
answer.  A length is refused exactly when no memory can be set aside for it, whatever follows, and of
the other bodies exactly those are found to end early that the stream does not hold.  When the reader
of a connection comes to any such fault, it stops there, and the fault is the last thing that the loop
gets: it handles what was found before, and comes to its own end by its own steps unless it is
aborted. -/
theorem missing_bodies (input : List UInt8) :
    Frame.read true input ≠ .incomplete ∧
      (∀ ended, Frame.read ended input = .tooLarge ↔
        ∃ size rest, Frame.Announced ended [] input size rest ∧ Frame.sizeLimit ≤ size) ∧
      (Frame.read true input = .failed (.stream .endsEarly) ↔
        ∃ size rest, Frame.Announced true [] input size rest ∧ rest.length < size ∧
          size < Frame.sizeLimit) ∧
      (SessionError.stream .endsEarly).message = "I/O error: early eof" ∧
      ∀ (before : List Action) (c : Connection) (e : SessionError),
        ({} : Connection).run? before = some c → c.loop = .running → c.reader.active →
          c.reader.buffer = input → Frame.read c.reader.ended input = .failed e →
            ∃ d, c.step? .read = some d ∧ ∀ (later : List Action) (f : Connection),
              d.run? later = some f → f.tasks.HasStoppedAt (some e) ∧
                (f.aborted ∨ f.closed ∨ ∃ more g, (∀ action ∈ more, action.proceeds) ∧
                  f.run? more = some g ∧ g.closed) := by
  refine ⟨Frame.readFrom_ne_incomplete none input, fun _ => Frame.read_tooLarge_iff, ?_, rfl, ?_⟩
  · rw [Frame.read_endsEarly_iff]
    simp
  · rintro before c e hrun hruns hreads rfl hfault
    exact end_of_fault hrun hruns hreads hfault

/-- A length of sixteen bits, and two bytes. -/
theorem body_that_ends_early :
    let input := Text.bytes "Content-Length: 65535\r\n\r\nno"
    let before : List Action := [.start, .receive input, .endOfStream]
    Frame.read true input = .failed (.stream .endsEarly) ∧
      ∃ c d : Connection, ({} : Connection).run? before = some c ∧ c.step? .read = some d ∧
        d.tasks.HasStoppedAt (some (.stream .endsEarly)) ∧
        ∃ more g, (∀ action ∈ more, action.proceeds) ∧ d.run? more = some g ∧ g.closed := by
  intro input before
  obtain ⟨-, -, hearly, -, hends⟩ := missing_bodies input
  have htells : HeaderLine.Tells (Text.bytes "Content-Length: 65535\r\n")
      (.contentLength 65535) :=
    HeaderLine.tells_of_ofBytes
      ⟨Text.bytes "Content-Length: 65535\r", by decide, by decide⟩ rfl
  have hannounced : Frame.Announced true [] input 65535 (Text.bytes "no") :=
    ⟨[_], [_], _, .cons htells .nil, List.pairwise_singleton _ _, rfl, .inl Frame.tells_empty,
      by decide +kernel⟩
  have hread := hearly.mpr ⟨_, _, hannounced, by decide +kernel, by decide +kernel⟩
  let c : Connection :=
    { loop := .running, reader := { buffer := input, ended := true, active := true } }
  have hrun : ({} : Connection).run? before = some c := rfl
  obtain ⟨d, hstep, hlater⟩ := hends before c _ hrun rfl rfl rfl hread
  have hboth : d.aborted = false ∧ d.closed = false := by
    have hd : { c.stopReader with inbox := [.error (.stream .endsEarly)] } = d := by
      simpa [step?, read?, c, hread] using hstep
    rw [← hd]
    exact ⟨rfl, rfl⟩
  obtain ⟨hstoppedAt, haborted | hclosed | hmore⟩ := hlater [] d rfl
  · cases hboth.1.symm.trans haborted
  · cases hboth.2.symm.trans hclosed
  · exact ⟨hread, c, d, hrun, hstep, hstoppedAt, hmore⟩

/-- The greatest length below the word size is refused: the reader stops, and the connection ends
without a fault. -/
theorem length_that_is_refused :
    let input := Text.bytes "Content-Length: 18446744073709551615\r\n\r\n"
    Frame.Announced true [] input 18446744073709551615 [] ∧
      Frame.read true input ≠ .failed (.stream .endsEarly) ∧ Frame.read true input = .tooLarge ∧
      ∃ c d : Connection,
        ({} : Connection).run? [.start, .receive input, .endOfStream, .read] = some c ∧
        c.inbox.length = 0 ∧ c.step? .handle = some d ∧ d.closed := by
  intro input
  have htells : HeaderLine.Tells (Text.bytes "Content-Length: 18446744073709551615\r\n")
      (.contentLength 18446744073709551615) :=
    HeaderLine.tells_of_ofBytes
      ⟨Text.bytes "Content-Length: 18446744073709551615\r", by decide, by decide⟩ rfl
  have hannounced : Frame.Announced true [] input 18446744073709551615 [] :=
    ⟨[_], [_], _, .cons htells .nil, List.pairwise_singleton _ _, rfl, .inl Frame.tells_empty,
      by decide +kernel⟩
  have hread : Frame.read true input = .tooLarge :=
    Frame.read_tooLarge_iff.mpr ⟨_, _, hannounced, by decide +kernel⟩
  have hends : (({} : Connection).run? [.start, .receive input, .endOfStream, .read]).bind (fun c =>
      (c.step? .handle).map fun d => (c.inbox.length, d.closed)) = some (0, true) := by
    decide +kernel
  obtain ⟨c, hrun, hrest⟩ := Option.bind_eq_some_iff.mp hends
  obtain ⟨d, hstep, hboth⟩ := Option.map_eq_some_iff.mp hrest
  obtain ⟨hempty, hclosed⟩ := Prod.mk.inj hboth
  exact ⟨hannounced, by simp [hread], hread, c, d, hrun, hempty, hstep, hclosed⟩

end Connection
end LanguageClient
