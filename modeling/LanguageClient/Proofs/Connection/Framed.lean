import LanguageClient.Proofs.Connection.Intake
import LanguageClient.Proofs.Connection.Outcomes
import LanguageClient.Proofs.Connection.Writing
import LanguageClient.Proofs.Frame.RoundTrip
import LanguageClient.Proofs.Frame.Stream

/-!
# Frames whose bodies hold anything

A server that announces its bodies rightly cannot break a connection by what it puts into them.  Every
frame that arrives whole is taken off the bytes, a body that writes no value is left out, a value that
is no message changes nothing, and the frames behind it are read as if it had not been there.

* `Intake.HoldsFrames` — the frames that arrived are handled, found or still in the buffer.
* `Intake.holdsFrames_move`, `Connection.holdsFrames_run` — this is kept by every move, and by every
  run.
* `Connection.exists_rest` — the connection comes to the end of what has arrived.
* **`Connection.well_framed_input_is_taken`** — what comes of such frames.
-/

namespace LanguageClient

open LanguageClient.Frame (Packet)

/-- The response of the server that was handled. -/
def Deed.handled? : Deed → Option Response
  | handled response => some response
  | _ => none

/-! ### Pending requests -/

namespace Ledger

/-- Only its answer and the end of the loop take a request off those that are pending. -/
theorem pending_of_move {l m : Ledger} {history : List Deed}
    (h : l.isOpen → ∀ id, isWritten id history → answer? id history = none → id ∈ l.pending)
    {deed? : Option Deed} (hm : l.Move deed? m) (hopen : m.isOpen) (id : Nat)
    (hwritten : isWritten id (history ++ deed?.toList))
    (hnone : answer? id (history ++ deed?.toList) = none) : id ∈ m.pending := by
  -- What is neither a write nor a response of this request leaves the premises as they were.
  have hold : ∀ deed : Deed, deed.isWriteOf id = false → deed.responseTo? id = none →
      l.isOpen → isWritten id (history ++ [deed]) → answer? id (history ++ [deed]) = none →
      id ∈ l.pending := by
    intro deed hwrite hother hl hwritten hnone
    rw [isWritten_snoc, hwrite, Bool.or_false] at hwritten
    rw [answer?_snoc_of_other hother] at hnone
    exact h hl id hwritten hnone
  cases hm with
  | idle =>
      rw [Option.toList_none, List.append_nil] at hwritten hnone
      exact h hopen id hwritten hnone
  | request method deadline => exact hold _ rfl rfl hopen hwritten hnone
  | settle now e outcome he houtcome => exact hold _ rfl rfl hopen hwritten hnone
  | forget e he hwaits => exact hold _ rfl rfl hopen hwritten hnone
  | wrote written rest hl hfirst =>
      rw [Option.toList_some, isWritten_snoc, Bool.or_eq_true] at hwritten
      rw [Option.toList_some, answer?_snoc_of_other rfl] at hnone
      rcases hwritten with hbefore | hnow
      · exact List.mem_append_left _ (h hl id hbefore hnone)
      · have hid : written = id := by simpa [Deed.isWriteOf] using hnow
        simp [hid]
  | answer answered response hl hpending hid =>
      have hwritten' : isWritten id history := by
        simpa [isWritten_snoc, Deed.isWriteOf] using hwritten
      rw [Option.toList_some, answer?_snoc hwritten', Option.or_eq_none_iff] at hnone
      -- The response is the answer of its own request, and this one has none yet.
      have hne : id ≠ answered := by
        rintro rfl
        simp [Deed.responseTo?, hid] at hnone
      exact (List.mem_erase_of_ne hne).mpr (h hl id hwritten' hnone.1)
  | stray response hl hid =>
      have hwritten' : isWritten id history := by
        simpa [isWritten_snoc, Deed.isWriteOf] using hwritten
      rw [Option.toList_some, answer?_snoc hwritten', Option.or_eq_none_iff] at hnone
      exact h hl id hwritten' hnone.1
  | close hl => cases hopen

end Ledger

/-! ### Frames that have arrived -/

namespace Intake

variable {i j : Intake} {done waiting coming : List Packet} {received : List UInt8}
  {values : List Json}

/-- The intake goes on, and the frames that arrived are handled, found or still in the buffer. -/
structure HoldsFrames (i : Intake) (done waiting coming : List Packet) (received : List UInt8)
    (values : List Json) : Prop where
  phase : i.loop = .created ∧ i.reader.active = false ∨ i.loop = .running ∧ i.reader.active = true
  kept : i.aborted = false
  heard : i.peerReads = true
  unclosed : i.closed = false
  unended : i.reader.ended = false
  arrived : received = (done ++ waiting).flatMap Packet.bytes ++ i.reader.buffer
  buffer : i.reader.buffer <+: coming.flatMap Packet.bytes
  found : i.inbox = (waiting.filterMap Packet.value?).map .ok
  handled : values = done.filterMap Packet.value?
  queued : i.notifications = values.filterMap Json.notification?

theorem not_fails (h : i.HoldsFrames done waiting coming received values)
    (hframed : ∀ p ∈ coming, p.IsWellFramed) : ¬ i.Fails := by
  intro hfails
  cases hfails with
  | aborted haborted => simp [h.kept] at haborted
  | unread hunread => simp [h.heard] at hunread
  | fault e rest hfault =>
      have hmem : (.error e : Except SessionError Json) ∈
          (waiting.filterMap Packet.value?).map .ok := by
        rw [← h.found, hfault]
        exact List.mem_cons_self
      obtain ⟨value, -, heq⟩ := List.mem_map.mp hmem
      cases heq
  | stopped hrunning hstopped =>
      rcases h.phase with ⟨hcreated, -⟩ | ⟨-, hactive⟩
      · rw [hrunning] at hcreated
        cases hcreated
      · rw [hstopped] at hactive
        cases hactive
  | unheard hactive hloop =>
      rcases h.phase with ⟨-, hinactive⟩ | ⟨hrunning, -⟩
      · rw [hactive] at hinactive
        cases hinactive
      · exact hloop hrunning
  | unframed hnothing hnever =>
      rw [h.unended] at hnothing hnever
      rcases Frame.read_packets hframed h.buffer with ⟨hwait, -⟩ | ⟨p, rest, left, -, -, -, hread⟩
      · exact hnever hwait
      · rw [hread, Frame.rest?_taken] at hnothing
        cases hnothing

/-- A frame is taken off the front of the buffer, and its value, if it has one, goes to the loop. -/
theorem holdsFrames_take (h : i.HoldsFrames done waiting coming received values) {p : Packet}
    {rest : List Packet} {left : List UInt8} (hbuffer : i.reader.buffer = p.bytes ++ left)
    (hleft : left <+: rest.flatMap Packet.bytes) :
    ({ i with
        reader := { i.reader with buffer := left }
        inbox := i.inbox ++ (p.value?.map .ok).toList } : Intake).HoldsFrames done
          (waiting ++ [p]) rest
      received values where
  phase := h.phase
  kept := h.kept
  heard := h.heard
  unclosed := h.unclosed
  unended := h.unended
  arrived := by
    rw [h.arrived, hbuffer]
    simp
  buffer := hleft
  found := by
    rw [h.found]
    cases hvalue : p.value? <;> simp [hvalue]
  handled := h.handled
  queued := h.queued

/-- The first value that was found is handled.  The frames in front of it had no value. -/
theorem holdsFrames_handle (h : i.HoldsFrames done waiting coming received values) {value : Json}
    {rest : List (Except SessionError Json)} (hfirst : i.inbox = .ok value :: rest) :
    ∃ visible back : List Packet, waiting = visible ++ back ∧
      ({ i with inbox := rest, notifications := i.notifications ++ value.notification?.toList } :
        Intake).HoldsFrames (done ++ visible) back coming received (values ++ [value]) := by
  have hfound := h.found
  rw [hfirst] at hfound
  obtain ⟨first, others, hvalues, hok, hrest⟩ := List.map_eq_cons_iff.mp hfound.symm
  cases hok
  obtain ⟨before, p, after, rfl, hbefore, hp, hafter⟩ := List.filterMap_eq_cons_iff.mp hvalues
  refine ⟨before ++ [p], after, by simp, h.phase, h.kept, h.heard, h.unclosed, h.unended, ?_,
    h.buffer, ?_, ?_, ?_⟩
  · rw [h.arrived]
    simp
  · rw [hafter]
    exact hrest.symm
  · have hnone : before.filterMap Packet.value? = [] := List.filterMap_eq_nil_iff.mpr hbefore
    rw [h.handled]
    simp [hnone, hp]
  · rw [List.filterMap_append, ← h.queued]
    cases hnotification : value.notification? <;> simp [hnotification]

/-- **Every move keeps the account of the frames**, as long as they are well framed. -/
theorem holdsFrames_move (h : i.HoldsFrames done waiting coming received values)
    (hframed : ∀ p ∈ coming, p.IsWellFramed) {bytes : List UInt8} {value? : Option Json}
    (hm : i.Move bytes value? j)
    (hbytes : received ++ bytes <+: (done ++ waiting ++ coming).flatMap Packet.bytes) :
    ∃ done' waiting' coming' : List Packet,
      done' ++ waiting' ++ coming' = done ++ waiting ++ coming ∧
        j.HoldsFrames done' waiting' coming' (received ++ bytes) (values ++ value?.toList) := by
  cases hm with
  | idle => exact ⟨done, waiting, coming, rfl, by simpa using h⟩
  | receive bytes =>
      refine ⟨done, waiting, coming, rfl, h.phase, h.kept, h.heard, h.unclosed, h.unended, ?_, ?_,
        h.found, by simpa using h.handled, by simpa using h.queued⟩
      · rw [h.arrived, List.append_assoc]
      · have hsplit : (done ++ waiting ++ coming).flatMap Packet.bytes =
            (done ++ waiting).flatMap Packet.bytes ++ coming.flatMap Packet.bytes :=
          List.flatMap_append
        rw [h.arrived, List.append_assoc, hsplit] at hbytes
        exact (List.prefix_append_right_inj _).mp hbytes
  | start hcreated =>
      refine ⟨done, waiting, coming, rfl, ?_⟩
      rw [List.append_nil, Option.toList_none, List.append_nil]
      exact ⟨.inr ⟨rfl, rfl⟩, h.kept, h.heard, h.unclosed, h.unended, h.arrived, h.buffer, h.found,
        h.handled, h.queued⟩
  | find value rest hread =>
      rw [h.unended] at hread
      -- The reader takes the first packet that is coming, and it waits to be handled.
      obtain ⟨p, others, rfl, hbuffer, hleft, hvalue⟩ :=
        Frame.packet_of_message hframed h.buffer hread
      exact ⟨done, waiting ++ [p], others, by simp, by
        simpa [hvalue] using holdsFrames_take h hbuffer hleft⟩
  | skip rest hread =>
      rw [h.unended] at hread
      obtain ⟨p, others, rfl, hbuffer, hleft, hvalue⟩ :=
        Frame.packet_of_invalid hframed h.buffer hread
      exact ⟨done, waiting ++ [p], others, by simp, by
        simpa [hvalue] using holdsFrames_take h hbuffer hleft⟩
  | handle value rest hfirst =>
      -- What is handled is the first value of the packets that wait, behind those without one.
      obtain ⟨visible, back, rfl, hkeeps⟩ := holdsFrames_handle h hfirst
      exact ⟨done ++ visible, back, coming, by simp, by simpa using hkeeps⟩
  | fail _ hfails => exact absurd hfails (not_fails h hframed)

end Intake

namespace Connection

variable {c d : Connection} {done waiting coming : List Packet} {received : List UInt8}
  {values : List Json}

/-! ### Runs -/

/-- The frames that were sent are those that arrived whole and those that are still to come. -/
theorem holdsFrames_run {actions : List Action}
    (h : c.intake.HoldsFrames done waiting coming received values)
    (hframed : ∀ p ∈ done ++ waiting ++ coming, p.IsWellFramed)
    (hrun : c.run? actions = some d) (hgoes : ∀ action ∈ actions, action.ends = false)
    (hbytes : received ++ actions.flatMap Action.bytes <+:
      (done ++ waiting ++ coming).flatMap Packet.bytes) :
    ∃ done' waiting' coming' : List Packet,
      done' ++ waiting' ++ coming' = done ++ waiting ++ coming ∧
        d.intake.HoldsFrames done' waiting' coming' (received ++ actions.flatMap Action.bytes)
          (values ++ c.handled actions) := by
  induction actions generalizing c done waiting coming received values with
  | nil =>
      cases hrun
      exact ⟨done, waiting, coming, rfl, by simpa [handled, observe] using h⟩
  | cons action rest ih =>
      obtain ⟨next, hstep, hrest⟩ := Option.bind_eq_some_iff.mp hrun
      rw [List.forall_mem_cons] at hgoes
      rw [List.flatMap_cons, ← List.append_assoc] at hbytes
      obtain ⟨done', waiting', coming', hsame, hnext⟩ := Intake.holdsFrames_move h
        (fun p hp => hframed p (List.mem_append_right _ hp)) (intake_step hstep hgoes.1)
        ((List.prefix_append _ _).trans hbytes)
      rw [← hsame] at hframed hbytes
      obtain ⟨done'', waiting'', coming'', hsame', hlast⟩ := ih hnext hframed hrest hgoes.2 hbytes
      refine ⟨done'', waiting'', coming'', hsame'.trans hsame, ?_⟩
      rw [handled, observe, hstep, List.flatMap_cons]
      simpa only [List.append_assoc, handled] using hlast

theorem holdsFrames_empty (packets : List Packet) :
    ({} : Connection).intake.HoldsFrames [] [] packets [] [] :=
  ⟨.inl ⟨rfl, rfl⟩, rfl, rfl, rfl, rfl, rfl, List.nil_prefix, rfl, rfl, rfl⟩

/-! ### Coming to rest -/

/-- Whether a step is one that the client takes by itself with what has arrived. -/
def Action.attends : Action → Bool
  | start => true
  | read => true
  | finish => true
  | handle => true
  | _ => false

/-- Nothing that has arrived can be taken further. -/
def IsAtRest (c : Connection) : Prop := ∀ action : Action, action.attends → c.step? action = none

/-- At rest every value is handled, and the next frame has not arrived whole. -/
theorem holdsFrames_at_rest (h : c.intake.HoldsFrames done waiting coming received values)
    (hframed : ∀ p ∈ coming, p.IsWellFramed) (hrest : c.IsAtRest) :
    waiting.filterMap Packet.value? = [] ∧
      ∀ p rest, coming = p :: rest → ¬ p.bytes <+: c.reader.buffer := by
  have hkept : c.aborted = false := h.kept
  have hrunning : c.loop = .running ∧ c.reader.active = true := by
    rcases h.phase with ⟨hcreated, -⟩ | hrunning
    · have hstart : c.start? = none := hrest .start rfl
      have hcreated' : c.loop = .created := hcreated
      simp [start?, hcreated', hkept] at hstart
    · exact hrunning
  have hrun : c.isRunning := by simp [isRunning, hrunning.1, hkept]
  have hfree : c.writing? = none := by
    have hfinish : c.finish? = none := hrest .finish rfl
    simpa [finish?, hrun] using hfinish
  have hattentive : c.isAttentive := by simp [isAttentive, hrun, hfree]
  constructor
  · have hhandle : c.handle? = none := hrest .handle rfl
    have hfound : c.inbox = (waiting.filterMap Packet.value?).map .ok := h.found
    cases hvalues : waiting.filterMap Packet.value? with
    | nil => rfl
    | cons value others =>
        rw [hvalues, List.map_cons] at hfound
        simp [handle?, hattentive, hfound] at hhandle
  · intro p rest hcoming hwhole
    have hread : c.read? = none := hrest .read rfl
    have hunended : c.reader.ended = false := h.unended
    rcases Frame.read_packets hframed h.buffer with ⟨-, hshort⟩ | ⟨q, others, left, -, -, -, htaken⟩
    · exact hshort p rest hcoming hwhole
    · have htaken' : Frame.read c.reader.ended c.reader.buffer = Frame.taken q.body left := by
        rw [hunended]
        exact htaken
      unfold Frame.taken at htaken'
      split at htaken' <;> simp [read?, hrunning.1, hrunning.2, htaken'] at hread

/-- How much is left to do with what has arrived, at most. -/
def workLeft (c : Connection) : Nat :=
  (if c.loop = .created then 1 else 0) + 3 * c.reader.buffer.length + 2 * c.inbox.length +
    c.writing?.toList.length

theorem workLeft_of_acceptance {value : Json} (h : c.Acceptance value d)
    (hfree : c.writing? = none) : d.workLeft ≤ c.workLeft + 1 := by
  cases h with
  | reply request hvalue => simp [workLeft, hfree]
  | _ => exact Nat.le_succ _

/-- A frame that is taken off is longer than nothing. -/
theorem length_lt_of_packet {p : Packet} {rest : List Packet} {left : List UInt8}
    (hframed : ∀ p ∈ coming, p.IsWellFramed) (hcoming : coming = p :: rest)
    (hsplit : c.reader.buffer = p.bytes ++ left) : left.length < c.reader.buffer.length := by
  subst hcoming
  have hpos := List.length_pos_iff.mpr (Frame.bytes_ne_nil (hframed p List.mem_cons_self))
  rw [hsplit, List.length_append]
  omega

/-- Every step that the client takes by itself brings it nearer to rest. -/
theorem workLeft_step {action : Action} (h : c.intake.HoldsFrames done waiting coming received values)
    (hframed : ∀ p ∈ coming, p.IsWellFramed) (hattends : action.attends)
    (hstep : c.step? action = some d) : d.workLeft < c.workLeft := by
  have hbuffer : c.reader.buffer <+: coming.flatMap Packet.bytes := h.buffer
  have hunended : c.reader.ended = false := h.unended
  have hfails : ¬ c.intake.Fails := Intake.not_fails h hframed
  cases transition_of_step hstep with
  | start hcreated hkept => simp [workLeft, hcreated]
  | find value left hactive hread hruns =>
      rw [hunended] at hread
      obtain ⟨p, rest, hcoming, hsplit, -, -⟩ := Frame.packet_of_message hframed hbuffer hread
      -- The value counts for less than the bytes of its frame.
      have hless := length_lt_of_packet hframed hcoming hsplit
      simp only [workLeft, List.length_append, List.length_singleton]
      omega
  | skip left hactive hread =>
      rw [hunended] at hread
      obtain ⟨p, rest, hcoming, hsplit, -, -⟩ := Frame.packet_of_invalid hframed hbuffer hread
      have hless := length_lt_of_packet hframed hcoming hsplit
      simp only [workLeft]
      omega
  | lose value left hactive hread hruns => exact absurd (.unheard hactive hruns) hfails
  | fail e hactive hread hruns =>
      exact absurd (.unframed (by rw [intake, hread]; rfl) (by simp [intake, hread])) hfails
  | stop reading hactive hread hnone hfound hsilent =>
      exact absurd (.unframed (hread ▸ hnone) (hread ▸ hfound)) hfails
  | wrote message hruns hwriting hreads => simp [workLeft, hwriting]
  | breakOff message hruns hwriting hreads => exact absurd (.unread hreads) hfails
  | handle value rest after hruns hfree hinbox haccepts =>
      have haccept := workLeft_of_acceptance haccepts hfree
      have hone : ({ c with inbox := rest } : Connection).workLeft + 2 = c.workLeft := by
        simp only [workLeft, hinbox, List.length_cons]
        omega
      omega
  | fault e rest hruns hfree hinbox => exact absurd (.fault e rest hinbox) hfails
  | finish hruns hfree hinbox hstopped =>
      exact absurd (.stopped (isRunning_iff.mp hruns).1 hstopped) hfails
  | _ => cases hattends

/-- The client comes to rest by its own steps. -/
theorem exists_rest (h : c.intake.HoldsFrames done waiting coming received values)
    (hframed : ∀ p ∈ done ++ waiting ++ coming, p.IsWellFramed)
    (hreceived : received <+: (done ++ waiting ++ coming).flatMap Packet.bytes) :
    ∃ actions d, (∀ action ∈ actions, action.attends) ∧ c.run? actions = some d ∧ d.IsAtRest := by
  induction hwork : c.workLeft using Nat.strong_induction_on generalizing c done waiting coming
    received values with
  | _ work ih =>
      by_cases hrest : c.IsAtRest
      · exact ⟨[], c, by simp, rfl, hrest⟩
      · obtain ⟨action, hattends, hpossible⟩ : ∃ action : Action, action.attends ∧
            c.step? action ≠ none := by
          simpa [IsAtRest] using hrest
        obtain ⟨next, hstep⟩ := Option.ne_none_iff_exists'.mp hpossible
        have hcoming : ∀ p ∈ coming, p.IsWellFramed :=
          fun p hp => hframed p (List.mem_append_right _ hp)
        have hless := workLeft_step h hcoming hattends hstep
        have hown : action.ends = false ∧ action.bytes = [] := by
          cases action <;> first | exact ⟨rfl, rfl⟩ | cases hattends
        have hbytes : received ++ action.bytes <+:
            (done ++ waiting ++ coming).flatMap Packet.bytes := by
          rwa [hown.2, List.append_nil]
        obtain ⟨done', waiting', coming', hsame, hnext⟩ :=
          Intake.holdsFrames_move h hcoming (intake_step hstep hown.1) hbytes
        rw [← hsame] at hframed hbytes
        obtain ⟨actions, d, hall, hrun, hd⟩ := ih next.workLeft (hwork ▸ hless) hnext hframed
          hbytes rfl
        refine ⟨action :: actions, d, ?_, ?_, hd⟩
        · exact List.forall_mem_cons.mpr ⟨hattends, hall⟩
        · exact Option.bind_eq_some_iff.mpr ⟨next, hstep, hrun⟩

/-! ### Frames whose bodies hold anything -/

/-- The messages that were handled, in order. -/
def messages (c : Connection) (actions : List Action) : List Inbound :=
  (c.handled actions).filterMap Inbound.classify?

theorem replied_eq (c : Connection) (actions : List Action) :
    c.replied actions = (c.messages actions).filterMap Inbound.request? := by
  rw [messages, List.filterMap_filterMap, replied, posts, handled]
  refine filterMap_observe ?_ c actions
  intro c action
  cases action <;> dsimp only [post?, value?]
  case handle =>
    rcases c.inbox with _ | ⟨_ | value, rest⟩
    · rfl
    · rfl
    · dsimp only [Option.bind_some]
      cases Inbound.classify? value with
      | none => rfl
      | some message => cases message <;> rfl
  case request => split <;> rfl
  case notify => split <;> rfl
  case finish =>
    split
    · rfl
    · cases c.writing? <;> rfl
  case remove => cases c.writing? <;> rfl
  all_goals rfl

/-- The responses in the history are those among the messages. -/
theorem responses_eq (c : Connection) (actions : List Action) :
    (c.history actions).filterMap Deed.handled? =
      (c.messages actions).filterMap Inbound.response? := by
  rw [messages, List.filterMap_filterMap, history_eq_observe, handled]
  refine filterMap_observe ?_ c actions
  intro c action
  cases action <;> dsimp only [deed?, value?]
  case handle =>
    rcases c.inbox with _ | ⟨_ | value, rest⟩
    · rfl
    · rfl
    · dsimp only [Option.bind_some]
      cases Inbound.classify? value with
      | none => rfl
      | some message => cases message <;> rfl
  case settle now id => cases c.settle? now id <;> rfl
  case forget => split <;> rfl
  case finish =>
    split
    · cases c.writing?.bind Outgoing.id? <;> rfl
    · rfl
  all_goals rfl

/-- What a connection has made of frames of which some bytes have arrived. -/
structure TakesIn (c : Connection) (packets : List Packet) (actions : List Action) : Prop where
  /-- The connection goes on. -/
  goesOn : c.isOpen ∧ c.closed = false
  /-- The values that were handled are those of frames that arrived, none left out and none twice. -/
  handled : ∃ n, (packets.take n).flatMap Packet.bytes <+: actions.flatMap Action.bytes ∧
    ({} : Connection).handled actions = (packets.take n).filterMap Packet.value?
  /-- At rest every frame that arrived whole is handled. -/
  complete : c.IsAtRest → ∀ n,
    (packets.take n).flatMap Packet.bytes <+: actions.flatMap Action.bytes →
      (packets.take n).filterMap Packet.value? <+: ({} : Connection).handled actions
  /-- The client comes to rest by its own steps. -/
  rests : ∃ more d, (∀ action ∈ more, action.attends) ∧ c.run? more = some d ∧ d.IsAtRest
  /-- The notifications among the messages are queued, in order. -/
  notifications : c.notifications =
    (({} : Connection).messages actions).filterMap Inbound.notification?
  /-- What is written, in the writer or in the queue are the calls that were taken, and one answer to
  each request among the messages. -/
  traffic : ∃ sent : List Outgoing, c.written = sent.map Outgoing.toJson ∧
    sent.filter Outgoing.isCall ++ c.writing?.toList.filter Outgoing.isCall ++ c.outbound =
      ({} : Connection).accepted actions ∧
    sent.filter Outgoing.isAnswer ++ c.writing?.toList.filter Outgoing.isAnswer =
      ((({} : Connection).messages actions).filterMap Inbound.request?).map
        fun request => .answer (answerFor request)
  /-- The responses of the history are those among the messages. -/
  responses : (({} : Connection).history actions).filterMap Deed.handled? =
    (({} : Connection).messages actions).filterMap Inbound.response?
  /-- A request is pending from when it was written until a response with its number is handled. -/
  pending : ∀ id, id ∈ c.pending ↔ isWritten id (({} : Connection).history actions) ∧
    answer? id (({} : Connection).history actions) = none
  /-- What reaches a caller is the first response with its number that was handled since then. -/
  replies : ∀ e ∈ c.exchanges,
    e.reply? = (answer? e.id (({} : Connection).history actions)).map .response

/-- A request that was written and not answered is pending. -/
theorem pending_of_run {history : List Deed} {actions : List Action}
    (h : c.ledger.Accounts history) (hrun : c.run? actions = some d)
    (hpending : c.isOpen → ∀ id, isWritten id history → answer? id history = none → id ∈ c.pending)
    (hopen : d.isOpen) {id : Nat} (hwritten : isWritten id (history ++ c.history actions))
    (hnone : answer? id (history ++ c.history actions) = none) : id ∈ d.pending := by
  induction actions generalizing c history with
  | nil =>
      cases hrun
      rw [Connection.history, List.append_nil] at hwritten hnone
      exact hpending hopen id hwritten hnone
  | cons action rest ih =>
      obtain ⟨next, hstep, hrest⟩ := Option.bind_eq_some_iff.mp hrun
      rw [Connection.history, hstep, ← List.append_assoc] at hwritten hnone
      exact ih (Ledger.accounts_move h (move_step hstep)) hrest
        (Ledger.pending_of_move hpending (move_step hstep)) hwritten hnone

/-- What the frames come to at rest. -/
theorem complete_of_rest {packets : List Packet}
    (h : c.intake.HoldsFrames done waiting coming received values)
    (hpackets : done ++ waiting ++ coming = packets) (hframed : ∀ p ∈ packets, p.IsWellFramed)
    (hrest : c.IsAtRest) {n : Nat} (hn : (packets.take n).flatMap Packet.bytes <+: received) :
    (packets.take n).filterMap Packet.value? <+: values := by
  subst hpackets
  obtain ⟨hnothing, hshort⟩ := holdsFrames_at_rest h
    (fun p hp => hframed p (List.mem_append_right _ hp)) hrest
  have hvalues : values = (done ++ waiting).filterMap Packet.value? := by
    rw [List.filterMap_append, hnothing, List.append_nil]
    exact h.handled
  rcases List.prefix_or_prefix_of_prefix (List.take_prefix n _)
    (List.prefix_append (done ++ waiting) coming) with hshorter | ⟨more, hmore⟩
  · rw [hvalues]
    exact hshorter.filterMap _
  · -- The frames behind those that were taken off have not arrived whole.
    have hnone : more = [] := by
      by_contra hne
      obtain ⟨p, rest, rfl⟩ := List.exists_cons_of_ne_nil hne
      obtain ⟨behind, hbehind⟩ : p :: rest <+: coming := by
        have htake := List.take_prefix n (done ++ waiting ++ coming)
        rwa [← hmore, List.prefix_append_right_inj] at htake
      rw [← hmore, h.arrived, List.flatMap_append, List.prefix_append_right_inj,
        List.flatMap_cons] at hn
      exact hshort p (rest ++ behind) hbehind.symm ((List.prefix_append _ _).trans hn)
    rw [hnone, List.append_nil] at hmore
    rw [hvalues]
    exact hmore ▸ List.prefix_rfl

/-- **Frames whose bodies hold anything.**  The server sends frames whose headers announce their
bodies, and neither side ends the connection.  Then the connection goes on and comes to rest again;
what it has handled are the values of the frames that have arrived, in order, and at rest of all of
them.  The notifications among these are queued, each request is answered once, and a pending request
hears of nothing but the first response with its number. -/
theorem well_framed_input_is_taken (packets : List Packet) (actions : List Action) (c : Connection)
    (hframed : ∀ p ∈ packets, p.IsWellFramed) (hrun : ({} : Connection).run? actions = some c)
    (hgoes : ∀ action ∈ actions, action.ends = false)
    (hreceived : actions.flatMap Action.bytes <+: packets.flatMap Packet.bytes) :
    c.TakesIn packets actions := by
  obtain ⟨done, waiting, coming, hpackets, hkeeps⟩ :=
    holdsFrames_run (holdsFrames_empty packets) hframed hrun hgoes hreceived
  rw [List.nil_append, List.nil_append] at hkeeps hpackets
  -- Beside what has come in: whose reply has come, and what has been written.
  have haccounts : c.ledger.Accounts (({} : Connection).history actions) :=
    accounts_run Ledger.accounts_empty hrun
  obtain ⟨sent, hsent⟩ := matchesPosts_run (c := {}) Mail.matchesPosts_empty hrun
  rw [List.nil_append, List.nil_append] at hsent
  have hopen : c.isOpen := by
    rcases hkeeps.phase with ⟨hcreated, -⟩ | ⟨hrunning, -⟩
    · have hloop : c.loop = .created := hcreated
      simp [isOpen, hloop]
    · exact isOpen_of_running (by simp [isRunning, show c.loop = .running from hrunning,
        show c.aborted = false from hkeeps.kept])
  refine ⟨⟨hopen, hkeeps.unclosed⟩, ?_, ?_, ?_, ?_, ?_, responses_eq {} actions, ?_, ?_⟩
  · refine ⟨done.length, ?_, ?_⟩
    · rw [← hpackets, List.append_assoc, List.take_left, hkeeps.arrived, List.flatMap_append,
        List.append_assoc]
      exact List.prefix_append _ _
    · rw [← hpackets, List.append_assoc, List.take_left]
      exact hkeeps.handled
  · exact fun hrest n hn => complete_of_rest hkeeps hpackets hframed hrest hn
  · exact exists_rest hkeeps (hpackets ▸ hframed) (hpackets ▸ hreceived)
  · rw [messages, List.filterMap_filterMap]
    exact hkeeps.queued
  · refine ⟨sent, hsent.written, hsent.calls hopen, ?_⟩
    have hanswers := hsent.answers
    rw [hsent.whole hopen, List.filter_nil, List.append_nil] at hanswers
    rw [← replied_eq]
    exact hanswers
  · intro id
    refine ⟨fun hid => ⟨haccounts.placed.written id hid, haccounts.replied.pending id hid⟩, ?_⟩
    rintro ⟨hwritten, hnone⟩
    exact pending_of_run (c := {}) Ledger.accounts_empty hrun (by simp [isWritten]) hopen hwritten
      hnone
  · intro e he
    have hagrees := haccounts.replied.agrees e he
    unfold Exchange.ReplyAgrees at hagrees
    split at hagrees
    · rename_i hreply
      rw [hreply, Ledger.answer?_of_open haccounts.replied haccounts.placed hagrees]
      rfl
    · rename_i response hreply
      rw [hreply, hagrees]
      rfl
    · have hclosed : c.isOpen = false := hagrees.1
      rw [hopen] at hclosed
      cases hclosed

/-- A text that is no value, bytes that are no text, a notification, the response to a request, a
value that is no message, and a request of the server, in two parts. -/
theorem six_bodies_are_taken :
    let bodies : List (List UInt8) := [Text.bytes "\x7b", [255],
      Text.bytes "\x7b\"method\":\"note\"\x7d",
      Text.bytes "\x7b\"id\":1,\"result\":true\x7d", Text.bytes "[]",
      Text.bytes "\x7b\"id\":\"a\",\"method\":\"x\"\x7d"]
    let packets : List Packet := bodies.map fun body => ⟨Frame.headerLines body.length, body⟩
    let bytes : List UInt8 := packets.flatMap Packet.bytes
    let actions : List Action := [.start, .request "hover" .null 50, .write, .finish,
      .receive (bytes.take 40), .read, .receive (bytes.drop 40), .read, .read, .read, .read, .read,
      .handle, .handle, .handle, .handle, .finish]
    ∃ c : Connection, ({} : Connection).run? actions = some c ∧
      (∀ p ∈ packets, p.IsWellFramed) ∧ (∀ action ∈ actions, action.ends = false) ∧
      actions.flatMap Action.bytes <+: packets.flatMap Packet.bytes ∧
      c.notifications.length = 1 ∧ c.pending = [] ∧ c.written.length = 2 ∧
      c.TakesIn packets actions := by
  intro bodies packets bytes actions
  have hends : (({} : Connection).run? actions).map
      (fun c => (c.notifications.length, c.pending, c.written.length)) = some (1, [], 2) := by
    decide +kernel
  obtain ⟨c, hrun, hcounts⟩ := Option.map_eq_some_iff.mp hends
  have hframed : ∀ p ∈ packets, p.IsWellFramed := by
    intro p hp
    obtain ⟨body, hbody, rfl⟩ := List.mem_map.mp hp
    have hsmall : ∀ body ∈ bodies, body.length < 100 := by decide +kernel
    have hlength := hsmall body hbody
    have hfits : body.length < Frame.sizeLimit := by
      rw [Frame.sizeLimit]
      omega
    exact ⟨Frame.isHeader_headerLines (by omega), hfits⟩
  have hgoes : ∀ action ∈ actions, action.ends = false := by
    intro action haction
    revert action
    decide +kernel
  have hreceived : actions.flatMap Action.bytes <+: packets.flatMap Packet.bytes := by
    have hall : actions.flatMap Action.bytes = bytes := by simp [actions, Action.bytes]
    exact hall ▸ List.prefix_rfl
  simp only [Prod.mk.injEq] at hcounts
  exact ⟨c, hrun, hframed, hgoes, hreceived, hcounts.1, hcounts.2.1, hcounts.2.2,
    well_framed_input_is_taken packets actions c hframed hrun hgoes hreceived⟩

end Connection
end LanguageClient
