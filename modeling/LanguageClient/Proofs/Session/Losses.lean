import LanguageClient.Proofs.Session.Departures
import LanguageClient.Proofs.Session.ServiceStep
import LanguageClient.Proofs.Session.Standing

/-!
# No loss goes unnoticed, and none is told twice

A connection may end at any time, also while its session is being made ready.  As long as the session
is owned, its pump notices; and whatever is published of failures, the host is told as often.

* `Client.installAmid`, **`Client.noticed_installAmid`** — a connection that goes on while its session
  becomes ready might as well do so right after; its end is not missed.
* `Service.HasUnpublishedLosses`, **`Service.hasUnpublishedLosses_step`** — only what a server
  spells out itself is told of without being published.
* `Client.heard`, **`Client.hasUnpublishedLosses_run`** — the lines of a run that tell of losses are
  those of the failures published and those that servers spelt out.
* `Client.NoticesLosses`, **`Client.no_loss_goes_unnoticed`** — what can be relied on after any events
  that drop no turn.
-/

namespace LanguageClient
namespace Client

variable {c : Client} {g k : Nat}

/-! ### A connection that ends while its session becomes ready -/

/-- A session becomes ready, as in `Client.install`, while its connection goes on: `before` the hooks
run, when it has been found open, and `after` them, when the pump is not armed yet. -/
def installAmid (c : Client) (g : Nat) (before after : Connection → Connection) : Client × Next :=
  let c := c.setPump g .waiting
  if (c.connection? g).any Connection.closed then c.failStart g .connectionClosed
  else
    let c := { c with slot := some g }.publish g .ready
    let c := (c.updateConnection g before).runHooks g
    ((c.updateConnection g after).setPump g .armed, .ends (.session g))

/-- An effect on the workspace takes no notice of attempts. -/
theorem workspaceEffect_attempts {f : Client → Client} (hf : WorkspaceEffect f) (c : Client)
    (attempts : List Attempt) : f { c with attempts } = { f c with attempts } := by
  have h := hf.onto c { c with attempts }
  rw [hf.eq_onto c]
  exact h

theorem workspaceEffect_updateAttempt {f : Client → Client} (hf : WorkspaceEffect f) (c : Client)
    (g : Nat) (change : Attempt → Attempt) :
    f (c.updateAttempt g change) = (f c).updateAttempt g change := by
  unfold updateAttempt
  split
  · rfl
  · rw [workspaceEffect_attempts hf, hf.attempts]

theorem updateAttempt_updateAttempt (c : Client) (g : Nat) (f f' : Attempt → Attempt) :
    (c.updateAttempt g f).updateAttempt g f' = c.updateAttempt g (f' ∘ f) := by
  unfold updateAttempt
  split
  · rfl
  · simp only [List.modify_modify_eq]

theorem install_of_open (hopen : c.isClosed g = false) : c.install g =
    (((({ c.setPump g .waiting with slot := some g } : Client).publish g .ready).runHooks g).setPump g
      .armed, .ends (.session g)) := by
  have hlook : ((c.setPump g .waiting).connection? g).any Connection.closed = false :=
    (isClosed_setPump c g .waiting g).trans hopen
  unfold install
  dsimp only
  rw [hlook]
  rfl

theorem installAmid_eq (before after : Connection → Connection) (hopen : c.isClosed g = false) :
    c.installAmid g before after =
      ((c.install g).1.updateConnection g (after ∘ before), .ends (.session g)) := by
  have hlook : ((c.setPump g .waiting).connection? g).any Connection.closed = false :=
    (isClosed_setPump c g .waiting g).trans hopen
  rw [install_of_open hopen]
  unfold installAmid
  dsimp only
  rw [hlook]
  simp only [Bool.false_eq_true, if_false]
  unfold updateConnection setPump
  rw [workspaceEffect_updateAttempt (workspaceEffect_runHooks g)]
  simp only [updateAttempt_updateAttempt]
  rfl

/-- A turn that ends with a session takes no notice of attempts at its end. -/
theorem conclude_attempts (c : Client) (k g : Nat) (attempts : List Attempt) :
    ({ c with attempts } : Client).conclude k (.session g) =
      { c.conclude k (.session g) with attempts } := by
  have hprogress : ({ c with attempts, lock := c.lock.leave k } : Client).endProgress k =
      { ({ c with lock := c.lock.leave k } : Client).endProgress k with attempts } :=
    workspaceEffect_attempts (workspaceEffect_endProgress k)
      { c with lock := c.lock.leave k } attempts
  have hoperation : ({ c with attempts, lock := c.lock.leave k } : Client).operation? k =
      ({ c with lock := c.lock.leave k } : Client).operation? k := rfl
  unfold conclude
  dsimp only
  rw [hprogress, hoperation]
  split
  · rfl
  · rw [finishCommand_ok, finishCommand_ok]
    rfl
  · rfl

/-- A connection that goes on while its session becomes ready might as well do so right after. -/
theorem proceed_installAmid (k : Nat) (before after : Connection → Connection)
    (hopen : c.isClosed g = false) : proceed k (c.installAmid g before after) =
      (proceed k (c.install g)).updateConnection g (after ∘ before) := by
  have hinstall : c.install g = ((c.install g).1, .ends (.session g)) := by
    rw [install_of_open hopen]
  rw [installAmid_eq before after hopen, hinstall]
  simp only [proceed]
  unfold updateConnection updateAttempt
  split
  · rfl
  · rw [conclude_attempts, attempts_conclude]

/-- A turn that ends with a session leaves the slot as it is. -/
theorem slot_conclude (c : Client) (k g : Nat) : (c.conclude k (.session g)).slot = c.slot := by
  have hprogress := (workspaceEffect_endProgress k).slot { c with lock := c.lock.leave k }
  unfold conclude
  dsimp only
  split
  · exact hprogress
  · rw [finishCommand_ok]
    exact hprogress
  · rfl

theorem attempt?_install (hopen : c.isClosed g = false) :
    (c.install g).1.attempt? g = (c.attempt? g).map fun a => { a with pump := .armed } := by
  have hhooks : ((({ c.setPump g .waiting with slot := some g } : Client).publish g
      .ready).runHooks g).attempt? g = (c.setPump g .waiting).attempt? g := by
    rw [attempt?, (workspaceEffect_runHooks g).attempts]
    rfl
  rw [install_of_open hopen]
  dsimp only
  rw [setPump, attempt?_updateAttempt, if_pos rfl, hhooks, setPump, attempt?_updateAttempt,
    if_pos rfl, Option.map_map]
  rfl

/-- **A connection that ends while its session becomes ready is noticed.**  What it does meanwhile it
might as well do right after; the session is owned then, and its pump can go on if the connection has
ended. -/
theorem noticed_installAmid (k : Nat) (before after : Connection → Connection)
    {connection : Connection} (hopen : c.isClosed g = false)
    (hconnection : c.connection? g = some connection) :
    proceed k (c.installAmid g before after) =
        (proceed k (c.install g)).updateConnection g (after ∘ before) ∧
      (proceed k (c.installAmid g before after)).slot = some g ∧
      ((after (before connection)).isOpen = false →
        (proceed k (c.installAmid g before after)).canPump g) := by
  have hsame := proceed_installAmid k before after hopen
  obtain ⟨a, hattempt, rfl⟩ := Option.map_eq_some_iff.mp hconnection
  refine ⟨hsame, ?_, ?_⟩
  · rw [hsame]
    refine (congrArg Course.slot (course_updateConnection _ g _)).trans ?_
    change (proceed k (c.install g)).slot = some g
    rw [install_of_open hopen]
    refine (slot_conclude _ k g).trans ?_
    exact (congrArg Course.slot (course_setPump _ g _)).trans ((workspaceEffect_runHooks g).slot _)
  · intro hended
    have hinstalled : (proceed k (c.install g)).attempt? g = some { a with pump := .armed } := by
      rw [attempt?, attempts_proceed]
      exact (attempt?_install hopen).trans (by rw [hattempt]; rfl)
    rw [hsame, canPump, updateConnection, attempt?_updateAttempt, if_pos rfl, hinstalled]
    simp [hended]

end Client

/-! ### The lines that tell of a loss -/

/-- The line that a reaction adds to the output channel. -/
def Reaction.line? : Reaction → Option String
  | adds line => some line
  | _ => none

namespace Service

variable {s t : Service} {serverInput : ServerInput} {n : Nat}

/-- The line that a server has an event add to the output channel. -/
def heard? (s : Service) : ServerInput → Option String
  | .line line => some line
  | .notification _ message => (s.router.reaction? message).bind Reaction.line?
  | _ => none

/-- So many lines tell of a loss that has not been published. -/
def HasUnpublishedLosses (s : Service) (n : Nat) : Prop :=
  s.journal.countP Entry.tellsLoss = s.journal.countP Entry.isLoss + n

theorem hasUnpublishedLosses_moves (h : s.HasUnpublishedLosses n) (hm : s.Moves t) :
    t.HasUnpublishedLosses n := by
  obtain ⟨new, hjournal, hitself⟩ := journal_moves hm
  have hlosses := hitself.losses
  unfold HasUnpublishedLosses at h ⊢
  rw [hjournal, List.countP_append, List.countP_append]
  omega

theorem countP_appended (line : String) :
    [Entry.called (.appendOutput line)].countP Entry.tellsLoss =
      [line].countP (Text.beginsWith lossPrefix) := by
  rw [List.countP_singleton, List.countP_singleton, Entry.tellsLoss]

/-- Only what a server spells out itself is told of without being published. -/
theorem hasUnpublishedLosses_step (h : s.HasUnpublishedLosses n) (hm : s.Step serverInput t) :
    t.HasUnpublishedLosses
      (n + (s.heard? serverInput).toList.countP (Text.beginsWith lossPrefix)) := by
  unfold HasUnpublishedLosses at h
  cases hm with
  | works hm => exact hasUnpublishedLosses_moves h hm
  | hands line hm =>
      refine hasUnpublishedLosses_moves ?_ hm
      unfold HasUnpublishedLosses
      rw [note, List.countP_append, List.countP_append, h]
      simp only [heard?, Option.toList_some]
      rw [countP_appended]
      simp [Entry.isLoss]
      omega
  | keeps file hm => exact hasUnpublishedLosses_moves (s := s.keep file) h hm
  | receives g message hopen isOpen =>
      rw [receive_eq]
      unfold HasUnpublishedLosses
      dsimp only [heard?]
      rw [List.countP_append, List.countP_append, h]
      rcases s.router.reaction? message with _ | _ | _ | line | _
      · rfl
      · rfl
      · rfl
      · have hnew : .delivered g message :: ((some (Reaction.adds line)).bind Reaction.entry?).toList =
            [Entry.delivered g message] ++ [Entry.called (.appendOutput line)] := rfl
        rw [hnew, List.countP_append, List.countP_append, countP_appended]
        simp only [Option.bind_some, Reaction.line?, Option.toList_some]
        have hdelivered : [Entry.delivered g message].countP Entry.tellsLoss = 0 := rfl
        have hloss : [Entry.delivered g message].countP Entry.isLoss = 0 ∧
            [Entry.called (.appendOutput line)].countP Entry.isLoss = 0 := ⟨rfl, rfl⟩
        omega
      · rfl

end Service

namespace Client

variable {c : Client} {g k : Nat}

/-- The lines that the servers have the events of a run add to the output channel. -/
def heard (c : Client) : List Event → List String
  | [] => []
  | event :: rest => (c.service.heard? (c.serverInput event)).toList ++ (c.step event).heard rest

/-- So many lines more tell of a loss than losses are published as servers have spelt out. -/
theorem hasUnpublishedLosses_run {n : Nat} (h : c.service.HasUnpublishedLosses n)
    (events : List Event) :
    (c.run events).service.HasUnpublishedLosses
      (n + (c.heard events).countP (Text.beginsWith lossPrefix)) := by
  induction events generalizing c n with
  | nil => exact h
  | cons event rest ih =>
      rw [heard, List.countP_append, ← Nat.add_assoc]
      exact ih (Service.hasUnpublishedLosses_step h (service_step c event))

/-- The losses in the journal are the failures published. -/
theorem countP_isLoss (c : Client) : c.journal.countP Entry.isLoss =
    c.published.countP fun status => status.state = .failed := by
  rw [published, List.countP_filterMap]
  refine List.countP_congr ?_
  intro entry _
  cases entry <;> simp [Entry.isLoss]

/-- What can be relied on about the losses of sessions. -/
structure NoticesLosses (start : Client) (events : List Event) : Prop where
  /-- When the connection of the session that is owned has ended, its pump can go on. -/
  watched : ∀ (g : Nat) (connection : Connection), (start.run events).slot = some g →
    (start.run events).connection? g = some connection → connection.isOpen = false →
      (start.run events).canPump g
  /-- It delivers what still waits, one notification at a time, and the session stays. -/
  drains : ∀ (g : Nat) (connection : Connection) (message : Notification)
    (rest : List Notification), (start.run events).slot = some g →
      (start.run events).connection? g = some connection → connection.isOpen = false →
      connection.notifications = message :: rest →
        ((start.run events).step (.pump g)).slot = some g ∧
        ((start.run events).step (.pump g)).deliveries =
          (start.run events).deliveries ++ [(g, message)]
  /-- When nothing waits, it takes the session out of the slot, and its failure is published and
  told. -/
  ends : ∀ (g : Nat) (connection : Connection), (start.run events).slot = some g →
    (start.run events).connection? g = some connection → connection.isOpen = false →
    connection.notifications = [] →
      ((start.run events).step (.pump g)).slot = none ∧
      ((start.run events).step (.pump g)).journal = (start.run events).journal ++ lossEntries g
  /-- Whatever else happens, a pump that goes on more often than notifications wait has the session
  leave the slot: either it comes to the end itself, and the failure is published, or a stop has taken
  the session before, or nobody held the client any more. -/
  noticed : ∀ (g : Nat) (connection : Connection) (later : List Event),
    (start.run events).slot = some g → (start.run events).connection? g = some connection →
    connection.isOpen = false → (start.run events).keepsTurns later →
    connection.notifications.length < later.countP (Event.isPumpOf g) →
      (start.run (events ++ later)).slot ≠ some g ∧
      ∃ before event after, later = before ++ event :: after ∧
        (start.run (events ++ before)).slot = some g ∧
        (start.run (events ++ before)).LeavesSlot g event
  /-- Of a session that a stop has taken no failure is ever published. -/
  taken : ∀ (k : Nat) (call : Call) (g : Nat) (later : List Event),
    (start.run events).calls[k]? = some call → call.phase.stopOf? = some g →
    (start.run events).keepsTurns later →
      ⟨g, .failed⟩ ∉ (start.run (events ++ later)).published
  /-- No failure is published twice. -/
  once : ∀ g, (start.run events).published.count ⟨g, .failed⟩ ≤ 1
  /-- The host is told of every failure that is published, and of no other, unless a server spells
  such a line out itself. -/
  told : (start.run events).journal.countP Entry.tellsLoss =
    ((start.run events).published.countP fun status => status.state = .failed) +
      (start.heard events).countP (Text.beginsWith lossPrefix)
  /-- Nor is a connection missed that ends while its session becomes ready. -/
  amid : ∀ (c : Client) (k g : Nat) (before after : Connection → Connection)
    (connection : Connection), c.isClosed g = false → c.connection? g = some connection →
      proceed k (c.installAmid g before after) =
        (proceed k (c.install g)).updateConnection g (after ∘ before) ∧
      (proceed k (c.installAmid g before after)).slot = some g ∧
      ((after (before connection)).isOpen = false →
        (proceed k (c.installAmid g before after)).canPump g)

/-- The queue of a session that is owned and whose connection has ended. -/
theorem pumpQueue?_of_ended (hw : c.RunInvariant) (hslot : c.slot = some g) {connection : Connection}
    (hconnection : c.connection? g = some connection) (hended : connection.isOpen = false) :
    c.dispatch.pumpQueue? g = some ⟨true, connection.notifications, false⟩ := by
  rw [pumpQueue?_of_connection (hw.delivers.armed g hslot) hconnection, hended]

/-- **No loss goes unnoticed, and none is told twice.** -/
theorem no_loss_goes_unnoticed (options : SessionOptions) (processId : Nat) (workspace : Workspace)
    (events : List Event)
    (hkeeps : (Client.new options processId workspace).keepsTurns events) :
    (Client.new options processId workspace).NoticesLosses events := by
  have hw := runInvariant_run (runInvariant_new options processId workspace) hkeeps
  constructor
  case watched =>
    intro g connection hslot hconnection hended
    exact canPump_of_pumpQueue (pumpQueue?_of_ended hw hslot hconnection hended)
  case drains =>
    intro g connection message rest hslot hconnection hended hwaiting
    have hqueue := pumpQueue?_of_ended hw hslot hconnection hended
    rw [hwaiting] at hqueue
    obtain ⟨hkept, hdelivered, -⟩ := step_pump_of_waiting (isHeld_of_slot hw hslot) hqueue
    exact ⟨hkept.trans hslot, hdelivered⟩
  case ends =>
    intro g connection hslot hconnection hended hnone
    have hqueue := pumpQueue?_of_ended hw hslot hconnection hended
    rw [hnone] at hqueue
    exact step_pump_of_ended (isHeld_of_slot hw hslot) hslot hqueue
  case noticed =>
    intro g connection later hslot hconnection hended hlater hoften
    have hqueue := pumpQueue?_of_ended hw hslot hconnection hended
    -- What still waits is the rank: it never grows and each turn of the pump lowers it.
    have hdraining : ((Client.new options processId workspace).run events).IsDraining g
        connection.notifications.length := by
      refine .inr ⟨hslot, ?_, ?_⟩
      · simp [Dispatch.isOpen, hqueue]
      · simp [Dispatch.waiting, hqueue]
    have hgone := (gone_of_pumps hw hdraining hlater hoften).slot
    obtain ⟨before, event, after, hsplit, hleaves⟩ := leavesSlot_run hw hslot hlater hgone
    simp only [run_append]
    exact ⟨hgone, before, event, after, hsplit, hleaves⟩
  case taken =>
    intro k call g later hcall hphase hlater
    obtain ⟨hgone, hsilent⟩ := silent_of_stopOf? hw hcall hphase
    rw [run_append]
    exact silent_run hw hgone hsilent hlater
  case once => exact fun g => count_published_le_one hw ⟨g, .failed⟩
  case told =>
    have hnone : (Client.new options processId workspace).service.HasUnpublishedLosses 0 := rfl
    have hlosses := hasUnpublishedLosses_run hnone events
    rw [Nat.zero_add, Service.HasUnpublishedLosses] at hlosses
    rw [← countP_isLoss]
    exact hlosses
  case amid =>
    intro c k g before after connection hopen hconnection
    exact noticed_installAmid k before after hopen hconnection

/-- The server of a session that is ready ends its side: the session stays until its pump goes on,
which finds nothing left. -/
theorem end_of_a_server_is_noticed :
    let start := Client.new {} 0 {}
    let events : List Event := [.invoke .start, .poll 0] ++ handshake 1 0 ++
      [.connection 1 .endOfStream, .connection 1 .read, .connection 1 .handle]
    let c := start.run events
    start.keepsTurns events ∧ start.NoticesLosses events ∧ c.slot = some 1 ∧ c.canPump 1 ∧
      (c.step (.pump 1)).slot = none ∧
      (c.step (.pump 1)).journal = c.journal ++ lossEntries 1 := by
  intro start events c
  have hkeeps : start.keepsTurns events := by decide +kernel
  have hnotices : start.NoticesLosses events := no_loss_goes_unnoticed {} 0 {} events hkeeps
  have hslot : c.slot = some 1 := by decide +kernel
  have hended : (c.connection? 1).any fun connection =>
      !connection.isOpen && connection.notifications.isEmpty := by
    decide +kernel
  obtain ⟨connection, hconnection, hboth⟩ := (Option.any_eq_true _ _).mp hended
  rw [Bool.and_eq_true, Bool.not_eq_true', List.isEmpty_iff] at hboth
  obtain ⟨hgone, hjournal⟩ := hnotices.ends 1 connection hslot hconnection hboth.1 hboth.2
  exact ⟨hkeeps, hnotices, hslot, hnotices.watched 1 connection hslot hconnection hboth.1, hgone,
    hjournal⟩

/-- A server logs an error in the very words in which a loss is told: the host is told of a loss, and
no failure has been published. -/
theorem loss_that_a_server_spells_out :
    let complaint : Json := .obj [("method", .str "window/logMessage"), ("params", .obj
      [("type", .ofNat 1), ("message", .str "Language server failed: out of memory")])]
    let events : List Event := [.invoke .activate, .poll 0] ++ handshake 1 0 ++
      [.connection 1 (.receive (Frame.encode complaint)), .connection 1 .read,
        .connection 1 .handle, .pump 1]
    let c := (Client.new {} 0 {}).run events
    (Client.new {} 0 {}).keepsTurns events ∧
      c.journal.countP Entry.tellsLoss ≠ c.published.countP fun status => status.state = .failed := by
  decide +kernel

end Client

end LanguageClient
