import LanguageClient.Proofs.Session.OwnSteps

/-!
# Every event is a step of the service

Only three events bring a client something from outside that it did not ask its host for: a server
writes a line to its error output, a pump delivers a notification, and a reply tells the virtual file
of a source.  In every other event the client works of itself.

* `ServerInput`, `Client.serverInput` — what an event brings.
* `Service.Step` — what an event does to the service, with what it brings.
* `serviceMoves_of_ownSteps` — what a client does of itself are moves of the service.
* **`Client.service_step`** — every event is such a step.
-/

namespace LanguageClient

/-! ### What events bring -/

/-- What an event brings from a server. -/
inductive ServerInput where
  | nothing
  /-- A line of its error output. -/
  | line (line : String)
  /-- A virtual file in a reply. -/
  | file (file : VirtualFile)
  /-- A notification of the session of a generation. -/
  | notification (generation : Nat) (message : Notification)

namespace Client

/-- What an event brings. -/
def serverInput (c : Client) : Event → ServerInput
  | .complaint line => .line line
  | .poll k => (c.shown? k).elim .nothing .file
  | .pump g => (c.delivery? g).elim .nothing (.notification g)
  | _ => .nothing

end Client

/-- What an event does to the service, with what it brings. -/
inductive Service.Step (s : Service) : ServerInput → Service → Prop
  /-- The client works of itself. -/
  | works {t : Service} (h : s.Moves t) : Step s .nothing t
  /-- A line of a server is handed on. -/
  | hands (line : String) {t : Service} (h : (s.note (.called (.appendOutput line))).Moves t) :
      Step s (.line line) t
  /-- A virtual file is kept, and then the client works of itself. -/
  | keeps (file : VirtualFile) {t : Service} (h : (s.keep file).Moves t) : Step s (.file file) t
  /-- A notification is delivered, and nothing else happens. -/
  | receives (g : Nat) (message : Notification) (hopen : s.isOpen) (isOpen : Bool) :
      Step s (.notification g message) { s.receive g message with isOpen }

namespace Client

variable {c d : Client} {k g : Nat}

/-! ### What a client does of itself are moves of the service -/

theorem isOpen_service_iff : c.service.isOpen ↔ ∃ g, c.delivers g := by
  change (c.attempts.any fun a => a.pump = .armed) ↔ _
  rw [List.any_eq_true]
  constructor
  · rintro ⟨a, ha, harmed⟩
    obtain ⟨i, hi⟩ := List.mem_iff_getElem?.mp ha
    exact ⟨i + 1, by simpa [delivers, attempt?, hi] using harmed⟩
  · rintro ⟨g, hdelivers⟩
    unfold delivers at hdelivers
    cases hattempt : c.attempt? g with
    | none => simp [hattempt] at hdelivers
    | some a =>
        unfold attempt? at hattempt
        split at hattempt
        · cases hattempt
        · exact ⟨a, List.mem_of_getElem? hattempt, by simpa [attempt?, *] using hdelivers⟩

/-- Pumps may come to an end without being seen. -/
theorem serviceMoves_of_visible (hvisible : d.visible = c.visible)
    (hpumps : ∀ g, d.delivers g → c.delivers g) : c.ServiceMoves d := by
  have hservice : d.service = { c.service with isOpen := d.service.isOpen } := by
    have hhooks : d.hooks = c.hooks := congrArg VisibleState.hooks hvisible
    have hrouter : d.workspace.router = c.workspace.router := congrArg VisibleState.router hvisible
    have hstore : d.workspace.store = c.workspace.store := congrArg VisibleState.store hvisible
    have hjournal : d.journal = c.journal := congrArg VisibleState.journal hvisible
    simp [service, hhooks, hrouter, hstore, hjournal]
  unfold ServiceMoves
  rw [hservice]
  refine .single (.rest _ fun hopen => ?_)
  obtain ⟨g, hdelivers⟩ := isOpen_service_iff.mp hopen
  exact isOpen_service_iff.mpr ⟨g, hpumps g hdelivers⟩

theorem serviceMoves_of_ownStep (h : c.OwnStep d) : c.ServiceMoves d := by
  cases h with
  | inner hvisible hpumps hnothing => exact serviceMoves_of_visible hvisible hpumps
  | note entry hidle => exact serviceMoves_note (Entry.isNeutral_of_isInert hidle)
  | fail g error => exact serviceMoves_reportFailure c g error
  | becomesReady g =>
      exact ((serviceMoves_publish c g .ready nofun).trans (serviceMoves_runHooks _ g)).trans
        (serviceMoves_arm binds_runHooks)

theorem serviceMoves_of_ownSteps (h : c.OwnSteps d) : c.ServiceMoves d := by
  induction h with
  | refl => exact serviceMoves_refl c
  | tail _ hlast ih => exact ih.trans (serviceMoves_of_ownStep hlast)

/-- The activation adds its hook, and then it asks for a turn. -/
theorem serves_activate (c : Client) (k : Nat) :
    ({ c.service.note (.called (.registerContentProvider virtualScheme)) with
      hooks := c.hooks ++ [.wire] } : Service).Moves (c.activate k).service := by
  let c₁ : Client := ((c.say (.registerContentProvider virtualScheme)).registerCommand
    CommandName.openSnippetFolder .openSnippetFolder).registerCommand
    CommandName.restartServer .restartServer
  have hregister : c₁.service = c.service.note (.called (.registerContentProvider virtualScheme)) := by
    simp only [c₁, service_registerCommand]
    rfl
  have hhooks : c₁.hooks = c.hooks := congrArg Service.hooks hregister
  have henroll : ({ c₁ with hooks := c₁.hooks ++ [.wire] } : Client).ServiceMoves (c.activate k) :=
    (serviceMoves_onReady_of_enroll c₁ .wire).trans (serviceMoves_of_ownSteps (ownSteps_activate c k))
  have hservice : ({ c₁ with hooks := c₁.hooks ++ [.wire] } : Client).service =
      { c₁.service with hooks := c₁.hooks ++ [.wire] } := rfl
  unfold ServiceMoves at henroll
  rwa [hservice, hregister, hhooks] at henroll

theorem serviceMoves_activate (c : Client) (k : Nat) : c.ServiceMoves (c.activate k) := by
  have hnote : c.service.Moves (c.service.note (.called (.registerContentProvider virtualScheme))) :=
    .single (.note _ rfl)
  exact (hnote.tail (.enroll .wire)).trans (serves_activate c k)

/-- A call goes on; when it waits for a reply, it keeps the virtual file that the reply brings. -/
theorem serves_goOn (c : Client) (k : Nat) (operation : Operation) (phase : Phase) :
    ((c.replyFile? phase).elim c.service c.service.keep).Moves (c.goOn k operation phase).service := by
  have hsteps := serviceMoves_of_ownSteps (ownSteps_goOn c k operation phase)
  cases phase with
  | fresh =>
      cases operation with
      | activate => exact serviceMoves_activate c k
      | _ => exact hsteps
  | awaiting g id goal =>
      change (c.preface operation (.awaiting g id goal)).service.Moves _ at hsteps
      rw [preface] at hsteps
      cases hreply : c.replyFile? (.awaiting g id goal) with
      | none =>
          rw [hreply] at hsteps
          exact hsteps
      | some file =>
          rw [hreply] at hsteps
          exact hsteps
  | _ => exact hsteps

theorem serves_poll (c : Client) (k : Nat) :
    ((c.shown? k).elim c.service c.service.keep).Moves (c.poll k).service := by
  unfold poll shown?
  cases hcall : c.calls[k]? with
  | none => exact .refl
  | some call =>
      rw [Option.bind_some]
      dsimp only
      split
      · exact serves_goOn c k call.operation call.phase
      · rename_i hcan
        -- A call that cannot go on has no reply that could bring anything.
        have hnone : c.replyFile? call.phase = none := by
          cases hphase : call.phase with
          | awaiting g id goal =>
              rw [hphase, canGoOn, Bool.not_eq_true, Option.isSome_eq_false_iff,
                Option.isNone_iff_eq_none] at hcan
              exact replyFile?_of_unsettled hcan
          | _ => rfl
        rw [hnone]
        exact .refl

theorem serviceMoves_tidy (c : Client) :
    c.ServiceMoves c.tidy := serviceMoves_of_ownSteps (ownSteps_tidy c)

/-! ### Pumps -/

theorem service_tidy (c : Client) :
    c.tidy.service = { c.service with isOpen := c.tidy.service.isOpen } := by
  rw [tidy_eq_sweep]
  unfold disown
  split <;> rfl

/-- A notification that is entered in the journal sets off its handler. -/
theorem service_receive {s : Service} {isOpen : Bool} (h : c.service = { s with isOpen }) (g : Nat)
    (message : Notification) : ((c.note (.delivered g message)).deliver message).service =
      { s.receive g message with
        isOpen := ((c.note (.delivered g message)).deliver message).service.isOpen } := by
  have hnoted : (c.note (.delivered g message)).service =
      { s.note (.delivered g message) with isOpen } :=
    congrArg (Service.note · (.delivered g message)) h
  have hrouter : (c.note (.delivered g message)).workspace.router = s.router :=
    congrArg Service.router h
  rw [service_deliver, hnoted, hrouter, Service.receive]
  cases s.router.reaction? message <;> rfl

/-- A pump delivers: the notification is entered in the journal, and its handler reacts. -/
theorem service_pump {message : Notification} (h : c.delivery? g = some message) :
    c.service.isOpen ∧ (c.pump g).service =
      { c.service.receive g message with isOpen := (c.pump g).service.isOpen } := by
  obtain ⟨a, rest, hattempt, harmed, -, hpump⟩ := pump_of_delivery? h
  refine ⟨isOpen_service_iff.mpr ⟨g, by simp [delivers, hattempt, harmed]⟩, ?_⟩
  rw [hpump]
  exact service_receive (service_updateAttempt c g _) g message

/-! ### Every event -/

/-- An event that brings nothing before what the client does of itself. -/
theorem serviceMoves_of_prelude {event : Event} (h : c.prelude event = c) :
    c.ServiceMoves (c.step event) := by
  have hsteps := ownSteps_step c event
  rw [h] at hsteps
  exact serviceMoves_of_ownSteps hsteps

/-- **Every event is a step of the service.** -/
theorem service_step (c : Client) (event : Event) :
    c.service.Step (c.serverInput event) (c.step event).service := by
  cases event with
  | complaint line => exact .hands line (serviceMoves_of_ownSteps (ownSteps_step c (.complaint line)))
  | poll k =>
      have hpoll := (serves_poll c k).trans (serviceMoves_tidy (c.poll k))
      rw [serverInput]
      cases hshown : c.shown? k with
      | none =>
          rw [hshown] at hpoll
          exact .works hpoll
      | some file =>
          rw [hshown] at hpoll
          exact .keeps file hpoll
  | pump g =>
      rw [serverInput]
      cases hdelivery : c.delivery? g with
      | none => exact .works (serviceMoves_of_prelude (by simp [prelude, hdelivery]))
      | some message =>
          obtain ⟨hopen, hpump⟩ := service_pump hdelivery
          rw [step, act, service_tidy, hpump]
          exact .receives g message hopen _
  | connection g action =>
      have hmoved : c.ServiceMoves (c.moveConnection g action) :=
        serviceMoves_of_visible (visible_moveConnection c g action) fun _ => delivers_moveConnection
      exact .works (hmoved.trans (serviceMoves_of_ownSteps (ownSteps_step c (.connection g action))))
  | onReady hook =>
      exact .works ((serviceMoves_onReady c hook).trans
        (serviceMoves_of_ownSteps (ownSteps_step c (.onReady hook))))
  | _ => exact .works (serviceMoves_of_prelude rfl)

end Client

end LanguageClient
