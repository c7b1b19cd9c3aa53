import LanguageClient.Proofs.Connection.Intake
import LanguageClient.Proofs.Frame.Pieces

/-!
# The reader and the stream

The bytes of a server reach a connection piece by piece, with any other work between two pieces.  What
the reader finds does not depend on where the pieces end: it is what is found in the whole stream
when it is read at once.

* `Connection.readings`, `Connection.forwarded` — what the reader of a run reads, and what it hands
  to the loop.
* `Reception`, `Reception.Move` — the reader and the phase of the loop, and what a step does to them.
* `Reception.ReaderAccount` — the account of what was read and what is left;
  `Reception.readerAccount_move`, `Connection.readerAccount_run` — every step keeps it.
* **`Connection.pieces_are_read_as_one`** — for every run, and with every way to go on.
-/

namespace LanguageClient

/-! ### What is seen of the reader -/

namespace Connection

/-- What the reader reads in a step of its own. -/
def reading? (c : Connection) : Action → Option Frame.Reading
  | .read => if c.reader.active then some (Frame.read c.reader.ended c.reader.buffer) else none
  | _ => none

/-- What the reader hands to the loop in a step of its own. -/
def forwarded? (c : Connection) : Action → Option (Except SessionError Json)
  | .read => c.read?.bind fun d => d.inbox[c.inbox.length]?
  | _ => none

/-- What was read, in order. -/
def readings (c : Connection) (actions : List Action) : List Frame.Reading :=
  c.observe reading? actions

/-- What was handed to the loop, in order. -/
def forwarded (c : Connection) (actions : List Action) : List (Except SessionError Json) :=
  c.observe forwarded? actions

end Connection

/-! ### The view -/

/-- The reader of a connection, and how far the loop has come that takes what it finds. -/
structure Reception where
  loop : LoopPhase
  reader : Reader

namespace Reception

open LanguageClient.Frame (Reading findings)

/-- What a step does to the reception, with the bytes that arrive, what is read and what of it goes
to the loop. -/
inductive Move : Reception → List UInt8 → Option Reading → Option (Except SessionError Json) →
    Reception → Prop
  | idle (r : Reception) : Move r [] none none r
  | receive (r : Reception) (bytes : List UInt8) (hgoes : r.reader.ended = false) :
      Move r bytes none none { r with reader := { r.reader with buffer := r.reader.buffer ++ bytes } }
  | hangUp (r : Reception) :
      Move r [] none none { r with reader := { r.reader with ended := true } }
  | start (r : Reception) (hcreated : r.loop = .created) :
      Move r [] none none { r with loop := .running, reader := { r.reader with active := true } }
  | leave (r : Reception) (active : Bool) (hactive : active → r.reader.active) :
      Move r [] none none { r with loop := .ended, reader := { r.reader with active } }
  | take (r : Reception) (rest : List UInt8) (hactive : r.reader.active)
      (hrest : (Frame.read r.reader.ended r.reader.buffer).rest? = some rest)
      (hheard : r.loop = .running ∨ (Frame.read r.reader.ended r.reader.buffer).item? = none) :
      Move r [] (some (Frame.read r.reader.ended r.reader.buffer))
        (Frame.read r.reader.ended r.reader.buffer).item?
        { r with reader := { r.reader with buffer := rest } }
  | lose (r : Reception) (rest : List UInt8) (hactive : r.reader.active)
      (hrest : (Frame.read r.reader.ended r.reader.buffer).rest? = some rest)
      (hloop : r.loop ≠ .running) :
      Move r [] (some (Frame.read r.reader.ended r.reader.buffer)) none
        { r with reader := { r.reader with buffer := rest, active := false } }
  | stop (r : Reception) (item? : Option (Except SessionError Json)) (hactive : r.reader.active)
      (hnone : (Frame.read r.reader.ended r.reader.buffer).rest? = none)
      (hfound : Frame.read r.reader.ended r.reader.buffer ≠ .incomplete)
      (hheard : r.loop = .running → item? = (Frame.read r.reader.ended r.reader.buffer).item?)
      (hunheard : r.loop ≠ .running → item? = none) :
      Move r [] (some (Frame.read r.reader.ended r.reader.buffer)) item?
        { r with reader := { r.reader with active := false } }

/-! ### The account of the reader -/

/-- The bytes that may still arrive: none when the server has ended its side. -/
def MayCome (r : Reception) (coming : List UInt8) : Prop := r.reader.ended → coming = []

/-- What was read and what is left to read are what is found in the stream, whatever comes. -/
def AgreesWithStream (r : Reception) (received : List UInt8) (readings : List Reading) : Prop :=
  ∀ coming, r.MayCome coming → findings (received ++ coming) =
    readings.map Reading.bare ++ findings (r.reader.buffer ++ coming)

/-- What was read is all that is found in the stream, whatever comes. -/
structure IsDone (r : Reception) (received : List UInt8) (readings : List Reading) : Prop where
  all : ∀ coming, r.MayCome coming → findings (received ++ coming) = readings.map Reading.bare
  begun : r.loop ≠ .created
  stopped : r.reader.active = false

/-- The account of the reader: what it has read and handed over of the bytes received. -/
structure ReaderAccount (r : Reception) (received : List UInt8) (readings : List Reading)
    (items : List (Except SessionError Json)) : Prop where
  /-- There is more to read, or the reader is at the end. -/
  stage : r.AgreesWithStream received readings ∨ r.IsDone received readings
  /-- As long as the loop runs, the reader stops only at the end. -/
  done : r.loop = .running → r.reader.active = false → r.IsDone received readings
  /-- The reader begins with the loop. -/
  begun : r.reader.active → r.loop ≠ .created
  /-- What is handed over is among what was read, in the same order. -/
  handed : items <+: readings.filterMap Reading.item?
  /-- Nothing is kept back as long as the loop takes it. -/
  whole : r.reader.active ∨ r.loop ≠ .ended → items = readings.filterMap Reading.item?

variable {r s : Reception} {received bytes rest : List UInt8} {readings : List Reading}
  {items : List (Except SessionError Json)} {reading? : Option Reading}
  {item? : Option (Except SessionError Json)}

theorem agreesWithStream_of_active (h : r.ReaderAccount received readings items)
    (hactive : r.reader.active) : r.AgreesWithStream received readings :=
  h.stage.resolve_right fun hdone => by
    rw [hdone.stopped] at hactive
    cases hactive

theorem ended_of_not_running {loop : LoopPhase} (hbegun : loop ≠ .created) (hloop : loop ≠ .running) :
    loop = .ended := by
  cases loop with
  | created => exact absurd rfl hbegun
  | running => exact absurd rfl hloop
  | ended => rfl

/-- What is taken off the buffer moves from what is left to what was read. -/
theorem agreesWithStream_take (h : r.AgreesWithStream received readings)
    (hrest : (Frame.read r.reader.ended r.reader.buffer).rest? = some rest) {coming : List UInt8}
    (hcoming : r.MayCome coming) :
    findings (received ++ coming) =
      (readings ++ [Frame.read r.reader.ended r.reader.buffer]).map Reading.bare ++
        findings (rest ++ coming) := by
  have hfound : Frame.read r.reader.ended r.reader.buffer ≠ .incomplete := by
    intro hwait
    rw [hwait] at hrest
    cases hrest
  rw [h coming hcoming, Frame.findings_of_read hfound hcoming, hrest, List.map_append,
    List.append_assoc]
  rfl

/-- What arrives now was still to come before. -/
theorem isDone_receive (h : r.IsDone received readings) (hopen : r.reader.ended = false)
    (bytes : List UInt8) :
    ({ r with reader := { r.reader with buffer := r.reader.buffer ++ bytes } } : Reception).IsDone
      (received ++ bytes) readings := by
  refine ⟨fun coming _ => ?_, h.begun, h.stopped⟩
  rw [List.append_assoc]
  refine h.all (bytes ++ coming) fun hended => ?_
  rw [hopen] at hended
  cases hended

theorem agreesWithStream_receive (h : r.AgreesWithStream received readings)
    (hopen : r.reader.ended = false) (bytes : List UInt8) :
    ({ r with reader := { r.reader with buffer := r.reader.buffer ++ bytes } } :
      Reception).AgreesWithStream
      (received ++ bytes) readings := by
  intro coming _
  rw [List.append_assoc, List.append_assoc]
  refine h (bytes ++ coming) fun hended => ?_
  rw [hopen] at hended
  cases hended

/-- When the server has ended its side, what may come is among what might have come before. -/
theorem isDone_hangUp (h : r.IsDone received readings) :
    ({ r with reader := { r.reader with ended := true } } : Reception).IsDone received readings :=
  ⟨fun coming hcoming => h.all coming fun _ => hcoming rfl, h.begun, h.stopped⟩

theorem agreesWithStream_hangUp (h : r.AgreesWithStream received readings) :
    ({ r with reader := { r.reader with ended := true } } : Reception).AgreesWithStream
      received readings :=
  fun coming hcoming => h coming fun _ => hcoming rfl

/-- A reader that stops at a reading is done with it. -/
theorem isDone_stop (h : r.AgreesWithStream received readings) (hbegun : r.loop ≠ .created)
    (hnone : (Frame.read r.reader.ended r.reader.buffer).rest? = none)
    (hfound : Frame.read r.reader.ended r.reader.buffer ≠ .incomplete) :
    ({ r with reader := { r.reader with active := false } } : Reception).IsDone received
      (readings ++ [Frame.read r.reader.ended r.reader.buffer]) := by
  refine ⟨fun coming hcoming => ?_, hbegun, rfl⟩
  rw [h coming hcoming, Frame.findings_of_read hfound hcoming, hnone, List.map_append]
  rfl

/-- What a reader at work finds and hands over completes what was handed over. -/
theorem whole_snoc (h : r.ReaderAccount received readings items) (hactive : r.reader.active)
    (reading : Reading) :
    items ++ reading.item?.toList = (readings ++ [reading]).filterMap Reading.item? := by
  rw [Reading.filterMap_item?_snoc, h.whole (.inl hactive)]

/-- What is kept back breaks no order. -/
theorem handed_snoc (h : r.ReaderAccount received readings items) (reading : Reading) :
    items <+: (readings ++ [reading]).filterMap Reading.item? := by
  rw [List.filterMap_append]
  exact h.handed.trans (List.prefix_append _ _)

/-- **Every move keeps the account of the reader.** -/
theorem readerAccount_move (h : r.ReaderAccount received readings items)
    (hm : r.Move bytes reading? item? s) :
    s.ReaderAccount (received ++ bytes) (readings ++ reading?.toList) (items ++ item?.toList) := by
  cases hm with
  | idle => simpa using h
  | receive bytes hopen =>
      simp only [Option.toList_none, List.append_nil]
      exact ⟨h.stage.imp (agreesWithStream_receive · hopen bytes) (isDone_receive · hopen bytes),
        fun hrunning hstopped => isDone_receive (h.done hrunning hstopped) hopen bytes, h.begun,
        h.handed, h.whole⟩
  | hangUp =>
      simp only [Option.toList_none, List.append_nil]
      exact ⟨h.stage.imp agreesWithStream_hangUp isDone_hangUp,
        fun hrunning hstopped => isDone_hangUp (h.done hrunning hstopped), h.begun, h.handed,
        h.whole⟩
  | start hcreated =>
      simp only [Option.toList_none, List.append_nil]
      have hgoes := h.stage.resolve_right fun hdone => hdone.begun hcreated
      exact ⟨.inl hgoes, fun _ => nofun, fun _ => nofun, h.handed,
        fun _ => h.whole (.inr (by rw [hcreated]; decide))⟩
  | leave active hactive =>
      simp only [Option.toList_none, List.append_nil]
      refine ⟨?_, nofun, fun _ => nofun, h.handed, ?_⟩
      · rcases h.stage with hgoes | hdone
        · exact .inl hgoes
        · refine .inr ⟨hdone.all, nofun, ?_⟩
          cases active with
          | false => rfl
          | true => exact absurd (hactive rfl) (by simp [hdone.stopped])
      · rintro (hstill | hnever)
        · exact h.whole (.inl (hactive hstill))
        · exact absurd rfl hnever
  | take rest hactive hrest hheard =>
      have hwhole := whole_snoc h hactive (Frame.read r.reader.ended r.reader.buffer)
      simp only [List.append_nil, Option.toList_some]
      refine ⟨.inl fun coming hcoming =>
        agreesWithStream_take (agreesWithStream_of_active h hactive) hrest hcoming, ?_,
        h.begun, hwhole ▸ List.prefix_rfl, fun _ => hwhole⟩
      intro _ hstopped
      rw [hactive] at hstopped
      cases hstopped
  | lose rest hactive hrest hloop =>
      simp only [List.append_nil, Option.toList_some, Option.toList_none]
      refine ⟨.inl fun coming hcoming =>
        agreesWithStream_take (agreesWithStream_of_active h hactive) hrest hcoming,
        fun hrunning => absurd hrunning hloop, nofun, handed_snoc h _, ?_⟩
      rintro (hnever | hopen)
      · cases hnever
      · -- The reader was at work, so the loop has begun, and it does not run: it has ended.
        exact absurd (ended_of_not_running (h.begun hactive) hloop) hopen
  | stop item? hactive hnone hfound hheard hunheard =>
      have hdone := isDone_stop (agreesWithStream_of_active h hactive) (h.begun hactive) hnone hfound
      simp only [List.append_nil, Option.toList_some]
      by_cases hrunning : r.loop = .running
      · have hwhole := whole_snoc h hactive (Frame.read r.reader.ended r.reader.buffer)
        rw [hheard hrunning]
        exact ⟨.inr hdone, fun _ _ => hdone, nofun, hwhole ▸ List.prefix_rfl, fun _ => hwhole⟩
      · rw [hunheard hrunning, Option.toList_none, List.append_nil]
        refine ⟨.inr hdone, fun hnever => absurd hnever hrunning, nofun, handed_snoc h _, ?_⟩
        rintro (hnever | hopen)
        · cases hnever
        · exact absurd (ended_of_not_running (h.begun hactive) hrunning) hopen

/-- A reading leaves the loop where it is; the reader stops, or has less left. -/
theorem shorter_of_reading {reading : Reading} (hm : r.Move bytes (some reading) item? s) :
    s.loop = r.loop ∧ s.reader.ended = r.reader.ended ∧
      (s.reader.active = false ∨ s.reader.buffer.length < r.reader.buffer.length) := by
  cases hm with
  | take rest hactive hrest hheard => exact ⟨rfl, rfl, .inr (Frame.length_lt_of_rest? hrest)⟩
  | lose rest hactive hrest hloop => exact ⟨rfl, rfl, .inl rfl⟩
  | stop hactive hnone hfound hheard hunheard => exact ⟨rfl, rfl, .inl rfl⟩

end Reception

namespace Connection

variable {c d : Connection} {received : List UInt8} {readings : List Frame.Reading}
  {items : List (Except SessionError Json)}

/-- The reader of a connection, and how far its loop has come. -/
def reception (c : Connection) : Reception := ⟨c.loop, c.reader⟩

/-! ### Steps -/

theorem reception_closeCalls (c : Connection) :
    c.reception.Move [] none none c.closeCalls.reception := by
  rw [closeCalls_eq]
  exact .leave c.reception c.reader.active id

theorem reception_teardown (c : Connection) :
    c.reception.Move [] none none c.teardown.reception := by
  rw [teardown_eq, closeCalls_eq]
  exact .leave c.reception false nofun

theorem reception_of_acceptance {value : Json} (h : c.Acceptance value d) :
    d.reception = c.reception := by
  have hintake := intake_of_acceptance h
  rw [reception, reception, Reception.mk.injEq]
  exact ⟨congrArg Intake.loop hintake, congrArg Intake.reader hintake⟩

/-- A step of the reader. -/
theorem reception_read (h : c.step? .read = some d) :
    c.reception.Move [] (c.reading? .read) (c.forwarded? .read) d.reception := by
  have hforwarded : c.forwarded? .read = d.inbox[c.inbox.length]? := by
    rw [forwarded?, show c.read? = some d from h, Option.bind_some]
  rw [hforwarded]
  cases transition_of_step h with
  | find value rest hactive hread hruns =>
      have hmove := Reception.Move.take c.reception rest hactive (by rw [reception, hread]; rfl)
        (.inl hruns)
      rw [reading?, if_pos hactive]
      simpa [Frame.Reading.item?, reception, hread] using hmove
  | lose value rest hactive hread hruns =>
      have hmove := Reception.Move.lose c.reception rest hactive (by rw [reception, hread]; rfl) hruns
      rw [reading?, if_pos hactive]
      simpa [reception] using hmove
  | skip rest hactive hread =>
      have hmove := Reception.Move.take c.reception rest hactive (by rw [reception, hread]; rfl)
        (.inr (by rw [reception, hread]; rfl))
      rw [reading?, if_pos hactive]
      simpa [Frame.Reading.item?, reception, hread] using hmove
  | fail e hactive hread hruns =>
      have hmove := Reception.Move.stop c.reception (some (.error e)) hactive
        (by rw [reception, hread]; rfl) (by simp [reception, hread])
        (fun _ => by rw [reception, hread]; rfl) fun hnot => absurd hruns hnot
      rw [reading?, if_pos hactive]
      simpa [reception, stopReader] using hmove
  | stop reading hactive hread hnone hfound hsilent =>
      -- While the loop runs, a reader stops silently only at the end of the stream or at a size
      -- that is too large.
      have hitem : c.loop = .running → reading.item? = none := by
        intro hruns
        cases reading with
        | message value rest => cases hnone
        | failed e => exact absurd hruns (hsilent e rfl)
        | _ => rfl
      have hmove := Reception.Move.stop c.reception none hactive (hread ▸ hnone) (hread ▸ hfound)
        (fun hruns => by rw [reception, hread, hitem hruns]) fun _ => rfl
      rw [reading?, if_pos hactive]
      simpa [reception, stopReader] using hmove

/-- **Every step of a connection is a move of its reception.** -/
theorem reception_step {action : Action} (h : c.step? action = some d) :
    c.reception.Move action.bytes (c.reading? action) (c.forwarded? action) d.reception := by
  cases transition_of_step h with
  | find | lose | skip | fail | stop => exact reception_read h
  | start hcreated hkept => exact .start c.reception hcreated
  | handle value rest after hruns hfree hinbox haccepts =>
      rw [reception_of_acceptance haccepts]
      exact .idle _
  | breakOff | fault | finish => exact reception_teardown c
  | remove haborted hopen => exact reception_closeCalls c
  | receive bytes htakes hmore => exact .receive c.reception bytes hmore
  | endOfStream => exact .hangUp c.reception
  | request | notify | settle | forget | take | write | wrote | abort | stopReading => exact .idle _

/-! ### Runs -/

theorem readerAccount_start : ({} : Connection).reception.ReaderAccount [] [] [] where
  stage := .inl fun _ _ => rfl
  done := nofun
  begun := nofun
  handed := List.prefix_rfl
  whole := fun _ => rfl

/-- **The account of the reader holds after every run.** -/
theorem readerAccount_run {actions : List Action}
    (h : c.reception.ReaderAccount received readings items)
    (hrun : c.run? actions = some d) :
    d.reception.ReaderAccount (received ++ actions.flatMap Action.bytes)
      (readings ++ c.readings actions)
      (items ++ c.forwarded actions) := by
  induction actions generalizing c received readings items with
  | nil =>
      cases hrun
      simpa [Connection.readings, forwarded, observe] using h
  | cons action rest ih =>
      obtain ⟨next, hstep, hrest⟩ := Option.bind_eq_some_iff.mp hrun
      have hlast := ih (Reception.readerAccount_move h (reception_step hstep)) hrest
      rw [Connection.readings, forwarded, observe, observe, hstep, List.flatMap_cons]
      simpa only [List.append_assoc, Connection.readings, forwarded] using hlast

/-! ### Going on -/

/-- Whether a step is one of the reader, or brings it something. -/
def Action.feeds : Action → Bool
  | read => true
  | receive _ => true
  | endOfStream => true
  | _ => false

/-- The piece of the stream that arrives. -/
def Action.piece? : Action → Option (List UInt8)
  | receive bytes => some bytes
  | _ => none

/-- The reader takes off what has arrived, and comes to where it stops or waits. -/
theorem exists_read_out (c : Connection) :
    ∃ (n : Nat) (d : Connection), c.run? (List.replicate n .read) = some d ∧ d.read? = none ∧
      d.loop = c.loop ∧ d.reader.ended = c.reader.ended := by
  induction hlength : c.reader.buffer.length using Nat.strong_induction_on generalizing c with
  | _ n ih =>
      subst hlength
      cases hread : c.read? with
      | none => exact ⟨0, c, rfl, hread, rfl, rfl⟩
      | some next =>
          have hactive : c.reader.active := by
            by_contra hinactive
            simp [read?, hinactive] at hread
          have hmove := reception_read hread
          rw [reading?, if_pos hactive] at hmove
          obtain ⟨hloop, hended, hless⟩ := Reception.shorter_of_reading hmove
          rcases hless with hstopped | hshorter
          · have hstopped : next.reader.active = false := hstopped
            refine ⟨1, next, ?_, by simp [read?, hstopped], hloop, hended⟩
            simp [run?, step?, hread]
          · obtain ⟨m, d, hrun, hnone, hloop', hended'⟩ := ih _ hshorter next rfl
            refine ⟨m + 1, d, ?_, hnone, hloop'.trans hloop, hended'.trans hended⟩
            rw [List.replicate_succ, run?, List.foldlM_cons, step?, hread]
            exact hrun

/-- A reader that comes to nothing more at the end of the stream has stopped. -/
theorem stopped_of_ended (hnone : c.read? = none) (hended : c.reader.ended) :
    c.reader.active = false := by
  by_contra hactive
  have hfound : Frame.read c.reader.ended c.reader.buffer ≠ .incomplete := by
    rw [hended]
    exact Frame.readFrom_ne_incomplete none _
  rw [Bool.not_eq_false] at hactive
  unfold read? at hnone
  rw [hactive] at hnone
  simp only [Bool.not_true, Bool.false_eq_true, if_false] at hnone
  split at hnone
  · split at hnone <;> cases hnone
  · cases hnone
  · cases hnone
  · split at hnone <;> cases hnone
  · cases hnone
  · exact absurd ‹_› hfound

/-- The reader comes to its end with pieces that arrive one after the other, or before the last of
them has arrived. -/
theorem exists_run_of_pieces (pieces : List (List UInt8)) (hrunning : c.loop = .running)
    (hended : c.reader.ended → pieces = []) :
    ∃ (more : List Action) (d : Connection) (left : List (List UInt8)), c.run? more = some d ∧
      (∀ action ∈ more, action.feeds) ∧ more.filterMap Action.piece? ++ left = pieces ∧
      (d.reader.ended → left = []) ∧ d.loop = .running ∧ d.reader.active = false := by
  have hreads : ∀ n, ∀ action ∈ List.replicate n Action.read, action.feeds := fun n action hmem => by
    rw [List.eq_of_mem_replicate hmem]
    rfl
  have hnone : ∀ n, (List.replicate n Action.read).filterMap Action.piece? = [] := fun n =>
    List.filterMap_eq_nil_iff.mpr fun action hmem => by
      rw [List.eq_of_mem_replicate hmem]
      rfl
  -- By induction on the pieces: the reader first takes all that it can from what is there.
  induction pieces generalizing c with
  | nil =>
      obtain ⟨n, d, hrun, hnothing, hloop, hsame⟩ := exists_read_out c.endOfStream
      refine ⟨.endOfStream :: List.replicate n .read, d, [], hrun, ?_, ?_, fun _ => rfl,
        hloop.trans hrunning, stopped_of_ended hnothing hsame⟩
      · rw [List.forall_mem_cons]
        exact ⟨rfl, hreads n⟩
      · rw [List.append_nil, List.filterMap_cons]
        exact hnone n
  | cons piece pieces ih =>
      have hopen : c.reader.ended = false := by
        by_contra hnever
        exact absurd (hended (by simpa using hnever)) (List.cons_ne_nil _ _)
      obtain ⟨n, d, hrun, -, hloop, hsame⟩ := exists_read_out c
      rw [hopen] at hsame
      rw [hrunning] at hloop
      cases hactive : d.reader.active with
      | false =>
          -- It has stopped before this piece arrives, and the piece is left.
          refine ⟨List.replicate n .read, d, piece :: pieces, hrun, hreads n, ?_, ?_, hloop, hactive⟩
          · rw [hnone, List.nil_append]
          · rw [hsame]
            nofun
      | true =>
          have hreceive : d.step? (.receive piece) = some (d.receive piece) := by
            simp [step?, takesBytes, hactive, hsame]
          have hlater : (d.receive piece).reader.ended → pieces = [] := by
            intro hnever
            have hnever : d.reader.ended := hnever
            rw [hsame] at hnever
            cases hnever
          obtain ⟨more, last, left, hrun', hfeeds, hpieces, hleft, hlast⟩ :=
            ih (c := d.receive piece) hloop hlater
          refine ⟨List.replicate n .read ++ .receive piece :: more, last, left, ?_, ?_, ?_, hleft,
            hlast⟩
          · rw [run?_append hrun]
            exact Option.bind_eq_some_iff.mpr ⟨_, hreceive, hrun'⟩
          · rw [List.forall_mem_append, List.forall_mem_cons]
            exact ⟨hreads n, rfl, hfeeds⟩
          · rw [List.filterMap_append, hnone, List.nil_append, List.filterMap_cons]
            exact congrArg (piece :: ·) hpieces

/-! ### The stream that was sent -/

/-- What the server may send in all: the bytes received, and nothing more when it has ended its
side. -/
def MaySend (c : Connection) (actions : List Action) (stream : List UInt8) : Prop :=
  ∃ coming : List UInt8, stream = actions.flatMap Action.bytes ++ coming ∧
    (c.reader.ended → coming = [])

/-- The reader has done after a run what reading the whole stream at once does. -/
structure ReadsAsOne (c : Connection) (actions : List Action) : Prop where
  /-- What it has read comes first in whatever stream the server sends. -/
  first : ∀ stream, c.MaySend actions stream →
    (({} : Connection).readings actions).map Frame.Reading.bare <+: Frame.findings stream
  /-- It hands over messages and the fault after which nothing follows, in the order in which they
  are found, and skips the bodies that are no values. -/
  handed : ({} : Connection).forwarded actions <+:
    (({} : Connection).readings actions).filterMap Frame.Reading.item?
  /-- As long as the loop runs, nothing of that is kept back. -/
  whole : c.loop = .running → ({} : Connection).forwarded actions =
    (({} : Connection).readings actions).filterMap Frame.Reading.item?
  /-- When it stops while the loop runs, it is at the end of the stream, and has come to it in the
  same way. -/
  last : c.loop = .running → c.reader.active = false → ∀ stream, c.MaySend actions stream →
    (({} : Connection).readings actions).map Frame.Reading.bare = Frame.findings stream ∧
      ({} : Connection).forwarded actions = (Frame.findings stream).filterMap Frame.Reading.item?
  /-- Whatever pieces follow, it can go on to the end, and comes to it with them as with all of them
  at once. -/
  goes : c.loop = .running → ∀ pieces : List (List UInt8), (c.reader.ended → pieces = []) →
    ∃ (more : List Action) (d : Connection), c.run? more = some d ∧
      (∀ action ∈ more, action.feeds) ∧ more.filterMap Action.piece? <+: pieces ∧
      d.loop = .running ∧ d.reader.active = false ∧
      (({} : Connection).readings (actions ++ more)).map Frame.Reading.bare =
        Frame.findings (actions.flatMap Action.bytes ++ pieces.flatten) ∧
      ({} : Connection).forwarded (actions ++ more) =
        (Frame.findings (actions.flatMap Action.bytes ++ pieces.flatten)).filterMap
          Frame.Reading.item?

theorem flatMap_bytes_of_feeds {more : List Action} (h : ∀ action ∈ more, action.feeds) :
    more.flatMap Action.bytes = (more.filterMap Action.piece?).flatten := by
  induction more with
  | nil => rfl
  | cons action rest ih =>
      rw [List.forall_mem_cons] at h
      rw [List.flatMap_cons, ih h.2]
      cases action with
      | receive bytes => rfl
      | read => rfl
      | endOfStream => rfl
      | _ => cases h.1

theorem findings_of_stopped {actions : List Action}
    (h : c.reception.ReaderAccount (actions.flatMap Action.bytes) (({} : Connection).readings actions)
      (({} : Connection).forwarded actions))
    (hrunning : c.loop = .running) (hstopped : c.reader.active = false) {stream : List UInt8}
    (hstream : c.MaySend actions stream) :
    (({} : Connection).readings actions).map Frame.Reading.bare = Frame.findings stream ∧
      ({} : Connection).forwarded actions = (Frame.findings stream).filterMap Frame.Reading.item? := by
  obtain ⟨coming, rfl, hcoming⟩ := hstream
  have hall := (h.done hrunning hstopped).all coming hcoming
  have hopen : c.reception.loop ≠ .ended := by
    rw [show c.reception.loop = .running from hrunning]
    decide
  rw [hall, Frame.Reading.filterMap_item?_bare]
  exact ⟨rfl, h.whole (.inr hopen)⟩

/-- **A stream is read the same however it is cut.**  In every run of a connection, with any work
between the pieces, the reader finds what is found in the whole stream when it is read at once, hands
over the same messages, skips the same bodies, and comes to the same fault or end. -/
theorem pieces_are_read_as_one (actions : List Action) (c : Connection)
    (hrun : ({} : Connection).run? actions = some c) : c.ReadsAsOne actions := by
  have haccount := readerAccount_run readerAccount_start hrun
  rw [List.nil_append, List.nil_append, List.nil_append] at haccount
  refine ⟨?_, haccount.handed, ?_, ?_, ?_⟩
  · rintro stream ⟨coming, rfl, hcoming⟩
    rcases haccount.stage with hgoes | hdone
    · rw [hgoes coming hcoming]
      exact List.prefix_append _ _
    · exact hdone.all coming hcoming ▸ List.prefix_rfl
  · intro hrunning
    exact haccount.whole (.inr fun hnever => by cases hrunning.symm.trans hnever)
  · exact fun hrunning hstopped stream hstream =>
      findings_of_stopped haccount hrunning hstopped hstream
  · intro hrunning pieces hended
    obtain ⟨more, d, left, hmore, hfeeds, hpieces, hleft, hrunning', hstopped⟩ :=
      exists_run_of_pieces pieces hrunning hended
    have hwhole : ({} : Connection).run? (actions ++ more) = some d := by
      rw [run?_append hrun, hmore]
    have haccount' := readerAccount_run readerAccount_start hwhole
    rw [List.nil_append, List.nil_append, List.nil_append] at haccount'
    refine ⟨more, d, hmore, hfeeds, hpieces ▸ List.prefix_append _ _, hrunning', hstopped,
      findings_of_stopped haccount' hrunning' hstopped ⟨left.flatten, ?_, ?_⟩⟩
    · rw [List.flatMap_append, flatMap_bytes_of_feeds hfeeds, ← hpieces, List.flatten_append,
        List.append_assoc]
    · intro hnone
      rw [hleft hnone, List.flatten_nil]

/-- A message, a body that is no value and a header that is not ended, cut inside a line, between
the two bytes that end one, inside a character and inside a body, while a request is written. -/
theorem six_pieces_are_read_as_one :
    let pieces : List (List UInt8) := [Text.bytes "Cont", Text.bytes "ent-Length: 6\r",
      Text.bytes "\n\r\n[\"" ++ [0xC3], 0xA9 :: Text.bytes "\"]Content-Length: 2\r\n\r",
      Text.bytes "\n\x7b", Text.bytes "]Content-Length: 3"]
    let actions : List Action := [.start, .receive pieces[0], .request "hover" .null 50,
      .receive pieces[1], .write, .receive pieces[2], .receive pieces[3], .read, .finish,
      .receive pieces[4], .handle, .receive pieces[5], .read, .endOfStream, .read]
    ∃ c : Connection, ({} : Connection).run? actions = some c ∧ c.loop = .running ∧
      c.reader.active = false ∧ (({} : Connection).readings actions).length = 3 ∧
      (({} : Connection).forwarded actions).length = 2 ∧ c.ReadsAsOne actions := by
  intro pieces actions
  have hends : (({} : Connection).run? actions).map (fun c => (c.loop, c.reader.active)) =
      some (.running, false) := by
    decide +kernel
  have hlengths : (({} : Connection).readings actions).length = 3 ∧
      (({} : Connection).forwarded actions).length = 2 := by
    decide +kernel
  obtain ⟨c, hrun, hphase⟩ := Option.map_eq_some_iff.mp hends
  rw [Prod.mk.injEq] at hphase
  exact ⟨c, hrun, hphase.1, hphase.2, hlengths.1, hlengths.2,
    pieces_are_read_as_one actions c hrun⟩

end Connection
end LanguageClient
