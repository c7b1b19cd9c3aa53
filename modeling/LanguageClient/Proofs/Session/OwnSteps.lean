import LanguageClient.Proofs.Client.Links
import LanguageClient.Proofs.Session.Service

/-!
# What a client does of itself

Whatever the client does of itself in an event is made of a few kinds of steps.  Most of them cannot
be seen; some leave an entry in the journal; a failed session is reported, and for a session that
becomes ready that is published, the hooks run, and then its pump delivers.  What else an event does
comes first: it is what the event brings, and the activation sets the workspace up.

* `VisibleState`, `Client.visible`, `Client.delivers` — what can be seen of a client, and which
  pumps deliver.
* `Client.OwnStep`, `Client.OwnSteps` — one step, and several.
* `Client.shown?`, `Client.delivery?` — the virtual file and the notification that an event brings.
* `Client.outfit`, `Client.prelude` — what an event does first.
* `ownSteps_send`, `ownSteps_install`, `ownSteps_goOn`, … — whatever the client does is made of steps.
* **`Client.ownSteps_step`** — so is every event, behind its prelude.
* `bringsNothing_of_ownSteps` — they bring nothing from a server.
-/

namespace LanguageClient

/-! ### Steps -/

/-- What can be seen of a client. -/
structure VisibleState where
  hooks : List Hook
  router : Router Handler
  store : VirtualStore
  commands : Registry CommandAction
  hasSessionCommands : Bool
  journal : List Entry

namespace Entry

/-- Whether an entry belongs to a session that becomes ready. -/
def isOfReadiness : Entry → Bool
  | published status => status.state = .ready
  | called (.setLanguageConfiguration _ _) => true
  | _ => false

/-- Whether an entry neither belongs to a session that becomes ready nor is anything that a server has
brought about. -/
def isInert (entry : Entry) : Bool := entry.isNeutral && !entry.isOfReadiness

theorem isNeutral_of_isInert {entry : Entry} (h : entry.isInert) : entry.isNeutral :=
  (Bool.and_eq_true_iff.mp h).1

theorem isInert_appendOutput {line : String} (h : Text.beginsWith lossPrefix line = false) :
    (called (.appendOutput line)).isInert := by
  rw [isInert, isNeutral_appendOutput h]
  rfl

end Entry

namespace Client

/-- What can be seen of a client. -/
def visible (c : Client) : VisibleState :=
  ⟨c.hooks, c.workspace.router, c.workspace.store, c.workspace.commands,
    c.workspace.hasSessionCommands, c.journal⟩

/-- Whether the pump of a generation delivers. -/
def delivers (c : Client) (g : Nat) : Bool := (c.attempt? g).any fun a => a.pump = .armed

/-- A step of a client. -/
inductive OwnStep (c : Client) : Client → Prop
  /-- Nothing that can be seen; no pump begins to deliver, and nothing comes from a server. -/
  | inner {d : Client} (hvisible : d.visible = c.visible) (hpumps : ∀ g, d.delivers g → c.delivers g)
      (hnothing : c.BringsNothing d) : OwnStep c d
  /-- Something is noted. -/
  | note (entry : Entry) (h : entry.isInert) : OwnStep c (c.note entry)
  /-- A session fails; that is published, and the host is told. -/
  | fail (g : Nat) (error : SessionError) : OwnStep c (c.reportFailure g error)
  /-- A session becomes ready. -/
  | becomesReady (g : Nat) : OwnStep c (((c.publish g .ready).runHooks g).setPump g .armed)

/-- Several steps. -/
def OwnSteps (c d : Client) : Prop := Relation.ReflTransGen OwnStep c d

variable {c d e : Client} {k g : Nat}

theorem ownSteps_refl (c : Client) : c.OwnSteps c := .refl

theorem OwnSteps.trans (h : c.OwnSteps d) (h' : d.OwnSteps e) : c.OwnSteps e :=
  Relation.ReflTransGen.trans h h'

/-- A change of what nobody sees. -/
theorem ownSteps_inner (hvisible : d.visible = c.visible) (hattempts : d.attempts = c.attempts) :
    c.OwnSteps d := by
  refine .single (.inner hvisible (fun g hdelivers => ?_) (bringsNothing_of_attempts hattempts))
  rwa [delivers, attempt?, hattempts] at hdelivers

/-! ### Attempts -/

/-- The attempts are not seen. -/
theorem visible_updateAttempt (c : Client) (g : Nat) (f : Attempt → Attempt) :
    (c.updateAttempt g f).visible = c.visible := by
  unfold updateAttempt
  split <;> rfl

/-- A change of one attempt, in which its pump does not begin to deliver. -/
theorem delivers_updateAttempt {f : Attempt → Attempt}
    (h : ∀ a, (f a).pump = .armed → a.pump = .armed) {i : Nat}
    (hdelivers : (c.updateAttempt g f).delivers i) : c.delivers i := by
  unfold delivers at hdelivers ⊢
  rw [attempt?_updateAttempt] at hdelivers
  split at hdelivers
  · cases hattempt : c.attempt? i with
    | none => simp [hattempt] at hdelivers
    | some a => simpa using h a (by simpa [hattempt] using hdelivers)
  · exact hdelivers

theorem ownSteps_updateAttempt {f : Attempt → Attempt}
    (h : ∀ a, (f a).pump = .armed → a.pump = .armed)
    (hnothing : c.BringsNothing (c.updateAttempt g f)) :
    c.OwnSteps (c.updateAttempt g f) :=
  .single (.inner (visible_updateAttempt c g f) (fun _ => delivers_updateAttempt h) hnothing)

/-- No pump begins to deliver when a connection changes. -/
theorem delivers_updateConnection {f : Connection → Connection} {i : Nat}
    (hdelivers : (c.updateConnection g f).delivers i) : c.delivers i :=
  delivers_updateAttempt (f := fun a => { a with connection := f a.connection })
    (fun _ harmed => harmed) hdelivers

/-- A caller does something on a connection. -/
theorem ownSteps_updateConnection {f : Connection → Connection}
    (h : ∀ k, c.connection? g = some k →
      ∃ action : Connection.Action, action.isSpontaneous = false ∧ k.step? action = some (f k)) :
    c.OwnSteps (c.updateConnection g f) :=
  ownSteps_updateAttempt (f := fun a => { a with connection := f a.connection })
    (fun _ harmed => harmed) (bringsNothing_updateConnection h)

theorem ownSteps_setPump {pump : Pump} (h : pump ≠ .armed) : c.OwnSteps (c.setPump g pump) :=
  ownSteps_updateAttempt (fun _ harmed => absurd harmed h)
    (bringsNothing_updateAttempt fun _ _ => Connection.bringsNothing_refl _)

theorem ownSteps_endProcess (c : Client) (g : Nat) : c.OwnSteps (c.endProcess g) := by
  refine ownSteps_updateAttempt ?_ (bringsNothing_updateAttempt fun a _ => ?_)
  · intro a harmed
    split at harmed <;> exact harmed
  · split <;> exact Connection.bringsNothing_refl _

theorem ownSteps_setLaunch (c : Client) (g : Nat) (launch : Launch) (taken : Bool)
    (process : Process) : c.OwnSteps (c.setLaunch g launch taken process) := by
  refine ownSteps_updateAttempt ?_ (bringsNothing_setLaunch c g launch taken process)
  intro a harmed
  split at harmed <;> exact harmed

/-! ### Talking to a server -/

theorem ownSteps_send (c : Client) (g : Nat) (method : String) (params : Json) (span : Nat) :
    c.OwnSteps (c.send g method params span).1 := by
  unfold send
  cases hconnection : c.connection? g with
  | none => exact ownSteps_refl c
  | some connection =>
      change c.OwnSteps (c.updateConnection g fun _ => _)
      refine ownSteps_updateConnection fun k hk => ⟨.request method params (c.now + span), rfl, ?_⟩
      rw [hconnection, Option.some.injEq] at hk
      rw [← hk]
      rfl

theorem ownSteps_notify? {message : Notification} (h : c.notify? g message = some d) :
    c.OwnSteps d := by
  obtain ⟨before, after, hbefore, hnotify, rfl⟩ := notify?_eq_some_iff.mp h
  refine ownSteps_updateConnection fun k hk => ⟨.notify message, rfl, ?_⟩
  rw [hbefore, Option.some.injEq] at hk
  exact hk ▸ hnotify

theorem ownSteps_settle? {id : Nat} {outcome : Except SessionError Json}
    (h : c.settle? g id = some (d, outcome)) : c.OwnSteps d := by
  obtain ⟨before, after, hbefore, hsettle, rfl⟩ := settle?_eq_some_iff.mp h
  refine ownSteps_updateConnection fun k hk => ⟨.settle c.now id, rfl, ?_⟩
  rw [hbefore, Option.some.injEq] at hk
  rw [← hk, Connection.step?, hsettle, Option.map_some]

/-! ### Calls of the host -/

theorem ownSteps_note {entry : Entry} (h : entry.isInert) : c.OwnSteps (c.note entry) :=
  .single (.note entry h)

theorem ownSteps_say {call : HostCall} (h : (Entry.called call).isInert) :
    c.OwnSteps (c.say call) := by
  let console := c.workspace.console.perform c.workspace.store call
  have hsame : c.OwnSteps { c with workspace := { c.workspace with console } } :=
    ownSteps_inner rfl rfl
  exact hsame.tail (.note (.called call) h)

theorem ownSteps_sayAll {calls : List HostCall} (h : ∀ call ∈ calls, (Entry.called call).isInert) :
    c.OwnSteps (c.sayAll calls) := by
  induction calls generalizing c with
  | nil => exact ownSteps_refl c
  | cons call rest ih =>
      rw [List.forall_mem_cons] at h
      exact (ownSteps_say h.1).trans (ih h.2)

theorem ownSteps_beginProgress (c : Client) (k : Nat) (title : String) :
    c.OwnSteps (c.beginProgress k title) := by
  let progress := (c.workspace.progress.enter k title .window).1
  have hsame : c.OwnSteps { c with workspace := { c.workspace with progress } } :=
    ownSteps_inner rfl rfl
  refine hsame.trans (ownSteps_sayAll ?_)
  intro call hcall
  obtain rfl := List.mem_singleton.mp hcall
  rfl

theorem ownSteps_endProgress (c : Client) (k : Nat) : c.OwnSteps (c.endProgress k) := by
  let progress := (c.workspace.progress.abandon k).1
  have hsame : c.OwnSteps { c with workspace := { c.workspace with progress } } :=
    ownSteps_inner rfl rfl
  refine hsame.trans (ownSteps_sayAll ?_)
  intro call hcall
  obtain ⟨entry, -, rfl⟩ := List.mem_map.mp hcall
  rfl

theorem ownSteps_publish (c : Client) (g : Nat) (state : SessionState) (hfailed : state ≠ .failed)
    (hready : state ≠ .ready) : c.OwnSteps (c.publish g state) :=
  ownSteps_note (by simp [Entry.isInert, Entry.isNeutral, Entry.tellsLoss, Entry.isLoss,
    Entry.delivery?, Entry.opened?, Entry.isOfReadiness, hfailed, hready])

theorem ownSteps_reportFailure (c : Client) (g : Nat) (error : SessionError) :
    c.OwnSteps (c.reportFailure g error) := .single (.fail g error)

end Client

/-! ### What events bring -/

/-- The virtual file that a reply brings, when it was asked for the one of a source. -/
def VirtualFileInfo.file? (source : String) (value : Json) : Option VirtualFile :=
  match VirtualFileInfo.ofJson? value with
  | some (some info) => info.content?.map fun content =>
      ⟨info.uri?.getD (virtualUriFor source), content, info.sourceMap?.getD ""⟩
  | _ => none

namespace Client

/-- The virtual file that a call in a phase takes from the reply that it waits for. -/
def replyFile? (c : Client) : Phase → Option VirtualFile
  | .awaiting g id (.virtualFile source) => match c.settle? g id with
      | some (_, .ok value) => VirtualFileInfo.file? source value
      | _ => none
  | _ => none

/-- The virtual file that a call brings when it goes on. -/
def shown? (c : Client) (k : Nat) : Option VirtualFile :=
  c.calls[k]?.bind fun call => c.replyFile? call.phase

/-- What a call that shows a virtual file waits for. -/
theorem awaits_of_shown {c : Client} {k : Nat} {file : VirtualFile} (h : c.shown? k = some file) :
    ∃ (operation : Operation) (g id : Nat) (source : String) (c' : Client) (value : Json),
      c.calls[k]? = some ⟨operation, .awaiting g id (.virtualFile source)⟩ ∧
        c.settle? g id = some (c', .ok value) ∧ VirtualFileInfo.file? source value = some file := by
  obtain ⟨⟨operation, phase⟩, hcall, hreply⟩ := Option.bind_eq_some_iff.mp h
  unfold replyFile? at hreply
  split at hreply
  · rename_i g number source hphase
    subst hphase
    split at hreply
    · rename_i c' value hsettle
      exact ⟨operation, g, number, source, c', value, hcall, hsettle, hreply⟩
    · cases hreply
  · cases hreply

/-- The notification that the pump of a generation takes next. -/
def delivery? (c : Client) (g : Nat) : Option Notification :=
  match c.attempt? g with
  | some { pump := .armed, connection, .. } => connection.notifications.head?
  | _ => none

/-- Keeps a virtual file. -/
def keepFile (c : Client) (file : VirtualFile) : Client :=
  c.setFile file.uri file.content file.sourceMap

/-- The workspace is set up: what the activation does before it asks for a turn. -/
def outfit (c : Client) : Client :=
  (((c.say (.registerContentProvider virtualScheme)).registerCommand CommandName.openSnippetFolder
    .openSnippetFolder).registerCommand CommandName.restartServer .restartServer).onReady .wire

/-- What a call does first when it goes on: the activation sets the workspace up, and a reply may
bring a virtual file. -/
def preface (c : Client) (operation : Operation) : Phase → Client
  | .fresh => match operation with
      | .activate => c.outfit
      | _ => c
  | .awaiting g id goal => (c.replyFile? (.awaiting g id goal)).elim c c.keepFile
  | _ => c

/-- What an event does first: what it brings, and what is asked of the client from outside. -/
def prelude (c : Client) : Event → Client
  | .poll k => match c.calls[k]? with
      | some call => if c.canGoOn k call.phase then c.preface call.operation call.phase else c
      | none => c
  | .pump g => if (c.delivery? g).isSome then c.pump g else c
  | .connection g action => c.moveConnection g action
  | .complaint line => c.say (.appendOutput line)
  | .onReady hook => c.onReady hook
  | _ => c

/-! ### The ends of a call -/

variable {c d : Client} {k g : Nat}

theorem ownSteps_setPhase (c : Client) (k : Nat) (phase : Phase) : c.OwnSteps (c.setPhase k phase) :=
  ownSteps_inner rfl rfl

theorem ownSteps_finish (c : Client) (k : Nat) (outcome : Outcome) :
    c.OwnSteps (c.finish k outcome) :=
  ownSteps_inner rfl rfl

/-- The failure of a command is told in other words than the failure of a session. -/
theorem isInert_of_error (error : CommandError) :
    (Entry.called (.appendOutput ("[Error] " ++ error.message))).isInert := by
  refine Entry.isInert_appendOutput ?_
  cases error with
  | alreadyRegistered id =>
      change Text.beginsWith lossPrefix ("[Error] " ++ ("Command already registered: " ++ id)) = false
      simp [Text.beginsWith, lossPrefix, List.isPrefixOf]
  | unknown id =>
      change Text.beginsWith lossPrefix ("[Error] " ++ ("Unknown command: " ++ id)) = false
      simp [Text.beginsWith, lossPrefix, List.isPrefixOf]
  | failed id reason =>
      change Text.beginsWith lossPrefix
        ("[Error] " ++ ("Command " ++ id ++ " failed: " ++ reason)) = false
      simp [Text.beginsWith, lossPrefix, List.isPrefixOf]

theorem ownSteps_finishCommand (c : Client) (k : Nat) (result : Except CommandError Unit) :
    c.OwnSteps (c.finishCommand k result) := by
  unfold finishCommand
  dsimp only
  split
  · exact (ownSteps_say (isInert_of_error _)).trans (ownSteps_finish _ k _)
  · exact ownSteps_finish c k _

theorem ownSteps_conclude (c : Client) (k : Nat) (outcome : Outcome) :
    c.OwnSteps (c.conclude k outcome) := by
  have hleave : c.OwnSteps { c with lock := c.lock.leave k } := ownSteps_inner rfl rfl
  refine hleave.trans ?_
  unfold conclude
  dsimp only
  split
  · refine (ownSteps_endProgress _ k).trans ?_
    split
    · exact (ownSteps_say (by decide)).trans (ownSteps_finish _ k _)
    · exact ownSteps_finish _ k _
  · refine (ownSteps_endProgress _ k).trans ?_
    split
    · exact (ownSteps_say rfl).trans (ownSteps_finishCommand _ k _)
    · exact ownSteps_finishCommand _ k _
  · exact ownSteps_finish _ k _

theorem ownSteps_proceed (k : Nat) {result : Client × Next} (h : c.OwnSteps result.1) :
    c.OwnSteps (proceed k result) := by
  obtain ⟨d, next⟩ := result
  cases next with
  | waits phase => exact h.trans (ownSteps_setPhase d k phase)
  | ends outcome => exact h.trans (ownSteps_conclude d k outcome)

/-! ### Replies -/

theorem ownSteps_concludeShow (c : Client) (k : Nat) (source : String)
    (result : Except SessionError (Option String)) :
    c.OwnSteps (c.concludeShow k source result) := by
  unfold concludeShow
  split
  · dsimp only
    split
    · exact ownSteps_finishCommand c k _
    · exact (ownSteps_say rfl).trans (ownSteps_finishCommand _ k _)
    · exact (ownSteps_say rfl).trans (ownSteps_finishCommand _ k _)
  · split <;> exact ownSteps_finish c k _

theorem ownSteps_concludeDoctor (c : Client) (k : Nat) (reply : Except SessionError Json) :
    c.OwnSteps (c.concludeDoctor k reply) := by
  unfold concludeDoctor
  split
  · exact ownSteps_finishCommand c k _
  · exact ownSteps_finish c k _
  · exact (ownSteps_say rfl).trans (ownSteps_finishCommand _ k _)

/-- The virtual file of a reply is kept, and then its document is shown. -/
theorem ownSteps_showFile (c : Client) (source : String) (value : Json) :
    ((VirtualFileInfo.file? source value).elim c c.keepFile).OwnSteps
      (c.showFile source (.ok value)).1 := by
  unfold showFile VirtualFileInfo.file?
  dsimp only
  cases VirtualFileInfo.ofJson? value with
  | none => exact ownSteps_refl c
  | some info? =>
      cases info? with
      | none => exact ownSteps_refl c
      | some info =>
          dsimp only
          cases info.content? with
          | none => exact ownSteps_say rfl
          | some content => exact ownSteps_say rfl

theorem ownSteps_useReply (c : Client) (k : Nat) (reply : Except SessionError Json)
    {goal : RequestGoal} (h : ∀ source, goal = .virtualFile source → ∃ error, reply = .error error) :
    c.OwnSteps (c.useReply k reply goal) := by
  cases goal with
  | relay => cases reply <;> exact ownSteps_finish c k _
  | read shape =>
      cases reply with
      | error e => exact ownSteps_finish c k _
      | ok value =>
          dsimp only [useReply]
          cases shape.read? value <;> exact ownSteps_finish c k _
  | virtualFile source =>
      obtain ⟨error, rfl⟩ := h source rfl
      exact ownSteps_concludeShow c k source (.error error)
  | doctor => exact ownSteps_concludeDoctor c k reply

theorem ownSteps_ask (c : Client) (k g : Nat) (method : String) (params : Json)
    (goal : RequestGoal) : c.OwnSteps (c.ask k g method params goal) :=
  (ownSteps_send c g method params _).trans (ownSteps_setPhase _ k _)

theorem ownSteps_askSession (c : Client) (k : Nat) (method : String) (params : Json)
    (goal : RequestGoal) : c.OwnSteps (c.askSession k method params goal) := by
  unfold askSession
  split
  · exact ownSteps_ask c k _ method params goal
  · exact ownSteps_useReply c k _ fun _ _ => ⟨_, rfl⟩

theorem replyFile?_of_unsettled {id : Nat} {goal : RequestGoal} (h : c.settle? g id = none) :
    c.replyFile? (.awaiting g id goal) = none := by
  cases goal <;> simp [replyFile?, h]

/-- A virtual file may be kept before a reply is taken. -/
theorem settle?_keepFile {id : Nat} {outcome : Except SessionError Json}
    (h : c.settle? g id = some (d, outcome)) (file : VirtualFile) :
    (c.keepFile file).settle? g id = some (d.keepFile file, outcome) := by
  obtain ⟨before, after, hbefore, hsettle, rfl⟩ := settle?_eq_some_iff.mp h
  refine settle?_eq_some_iff.mpr ⟨before, after, hbefore, hsettle, ?_⟩
  unfold updateConnection updateAttempt
  split <;> rfl

/-- A call that goes on with its reply keeps the virtual file that the reply brings. -/
theorem ownSteps_afterReply (c : Client) (k g id : Nat) (goal : RequestGoal) :
    ((c.replyFile? (.awaiting g id goal)).elim c c.keepFile).OwnSteps (c.afterReply k g id goal) := by
  unfold afterReply
  cases hsettle : c.settle? g id with
  | none =>
      rw [replyFile?_of_unsettled hsettle]
      exact ownSteps_refl c
  | some result =>
      obtain ⟨c', reply⟩ := result
      by_cases hfile : ∃ source value, goal = .virtualFile source ∧ reply = .ok value
      · obtain ⟨source, value, rfl, rfl⟩ := hfile
        have hreply : c.replyFile? (.awaiting g id (.virtualFile source)) =
            VirtualFileInfo.file? source value := by simp [replyFile?, hsettle]
        rw [hreply]
        refine OwnSteps.trans ?_ ((ownSteps_showFile c' source value).trans
          (ownSteps_concludeShow _ k source _))
        cases VirtualFileInfo.file? source value with
        | none => exact ownSteps_settle? hsettle
        | some file => exact ownSteps_settle? (settle?_keepFile hsettle file)
      · have hnone : c.replyFile? (.awaiting g id goal) = none := by
          cases goal with
          | virtualFile source =>
              cases reply with
              | ok value => exact absurd ⟨source, value, rfl, rfl⟩ hfile
              | error error => simp [replyFile?, hsettle]
          | _ => rfl
        rw [hnone]
        refine (ownSteps_settle? hsettle).trans (ownSteps_useReply c' k reply ?_)
        rintro source rfl
        cases reply with
        | ok value => exact absurd ⟨source, value, rfl, rfl⟩ hfile
        | error error => exact ⟨error, rfl⟩

/-! ### Turns -/

theorem ownSteps_startLocked (c : Client) : c.OwnSteps c.startLocked.1 := by
  unfold startLocked
  split
  · exact ownSteps_refl c
  · have hnew : c.OwnSteps { c with attempts := c.attempts ++ [({} : Attempt)] } := by
      refine .single (.inner rfl (fun g hdelivers => ?_) (bringsNothing_append c))
      unfold delivers attempt? at hdelivers ⊢
      split at hdelivers
      · cases hdelivers
      · -- The pump of the new attempt does not deliver.
        rename_i hg
        rw [if_neg hg]
        rw [List.getElem?_append] at hdelivers
        split at hdelivers
        · exact hdelivers
        · cases hplace : g - 1 - c.attempts.length <;> simp [hplace] at hdelivers
    have hstarting := ownSteps_publish { c with attempts := c.attempts ++ [({} : Attempt)] }
      (c.generation + 1) .starting (by decide) (by decide)
    exact (hnew.trans hstarting).trans (ownSteps_note rfl)

theorem ownSteps_failStart (c : Client) (g : Nat) (error : SessionError) :
    c.OwnSteps (c.failStart g error).1 := ownSteps_reportFailure c g error

theorem ownSteps_afterLaunch (c : Client) (g : Nat) : c.OwnSteps (c.afterLaunch g).1 := by
  unfold afterLaunch
  split
  · exact ownSteps_failStart c g _
  · unfold beginHandshake
    split
    · exact ownSteps_failStart c g _
    · rename_i connection htake
      refine (ownSteps_updateConnection fun k hk => ⟨.take, rfl, ?_⟩).trans (ownSteps_send _ g _ _ _)
      rwa [hk, Option.bind_some] at htake
  · exact ownSteps_refl c

/-- A session that becomes ready has the hooks run before its pump delivers. -/
theorem ownSteps_install (c : Client) (g : Nat) : c.OwnSteps (c.install g).1 := by
  have hwaits : c.OwnSteps (c.setPump g .waiting) := ownSteps_setPump nofun
  refine hwaits.trans ?_
  unfold install
  dsimp only
  split
  · exact ownSteps_failStart _ g _
  · have howns : (c.setPump g .waiting).OwnSteps { c.setPump g .waiting with slot := some g } :=
      ownSteps_inner rfl rfl
    exact howns.tail (.becomesReady g)

theorem ownSteps_afterHandshake (c : Client) (g id : Nat) : c.OwnSteps (c.afterHandshake g id).1 := by
  unfold afterHandshake
  split
  · exact ownSteps_refl c
  · rename_i c' error hsettle
    exact ownSteps_settle? hsettle
  · rename_i c' result hsettle
    refine (ownSteps_settle? hsettle).trans ?_
    split
    · split
      · rename_i c'' hnotify
        exact (ownSteps_notify? hnotify).trans (ownSteps_install c'' g)
      · exact ownSteps_refl c'
    · exact ownSteps_refl c'

theorem ownSteps_afterShutdown (c : Client) (g id : Nat) : c.OwnSteps (c.afterShutdown g id).1 := by
  unfold afterShutdown
  split
  · exact ownSteps_refl c
  · rename_i c' outcome hsettle
    refine (ownSteps_settle? hsettle).trans ?_
    dsimp only
    split
    · cases hnotify : c'.notify? g ⟨Method.exit, .null⟩ with
      | none => exact ownSteps_refl c'
      | some c'' => exact ownSteps_notify? hnotify
    · exact ownSteps_refl c'

theorem ownSteps_afterStop (c : Client) (operation : Operation) :
    c.OwnSteps (c.afterStop operation).1 := by
  cases operation <;> first | exact ownSteps_refl c | exact ownSteps_startLocked c

theorem ownSteps_afterClose (c : Client) (operation : Operation) (g : Nat)
    (error? : Option SessionError) : c.OwnSteps (c.afterClose operation g error?).1 := by
  cases error? with
  | some error => exact ownSteps_failStart c g error
  | none =>
      have hended : c.OwnSteps (c.setPump g .ended) := ownSteps_setPump nofun
      have hstopped := ownSteps_publish (c.setPump g .ended) g .stopped (by decide) (by decide)
      exact (hended.trans hstopped).trans (ownSteps_afterStop _ operation)

theorem ownSteps_reap (c : Client) (operation : Operation) (g : Nat) (error? : Option SessionError) :
    c.OwnSteps (c.reap operation g error?).1 := by
  have habort : c.OwnSteps (c.updateConnection g Connection.abort) :=
    ownSteps_updateConnection fun _ _ => ⟨.abort, rfl, rfl⟩
  refine habort.trans ?_
  unfold reap
  dsimp only
  split
  · exact ownSteps_refl _
  · exact ownSteps_afterClose _ operation g error?

theorem ownSteps_stopLocked (c : Client) (operation : Operation) :
    c.OwnSteps (c.stopLocked operation).1 := by
  unfold stopLocked
  split
  · exact ownSteps_afterStop c operation
  · rename_i g _
    have hgone : c.OwnSteps { c with slot := none } := ownSteps_inner rfl rfl
    exact hgone.trans (ownSteps_send _ g Method.shutdown .null c.options.stopGrace)

theorem ownSteps_beginTurn (c : Client) (operation : Operation) :
    c.OwnSteps (c.beginTurn operation).1 := by
  cases operation <;> first | exact ownSteps_startLocked c | exact ownSteps_stopLocked c _

theorem ownSteps_askTurn (c : Client) (k : Nat) (operation : Operation) :
    c.OwnSteps (c.askTurn k operation) := by
  have hacquire : c.OwnSteps { c with lock := c.lock.acquire k } := ownSteps_inner rfl rfl
  refine hacquire.trans ?_
  unfold askTurn
  dsimp only
  split
  · exact ownSteps_proceed k (ownSteps_beginTurn _ operation)
  · exact ownSteps_setPhase _ k _

/-! ### Calls -/

theorem ownSteps_look (c : Client) (k : Nat) : c.OwnSteps (c.look k) := by
  have hsame : (c.look k).visible = c.visible ∧ (c.look k).attempts = c.attempts := by
    unfold look
    repeat' split
    all_goals exact ⟨rfl, rfl⟩
  exact ownSteps_inner hsame.1 hsame.2

theorem ownSteps_runAbout (c : Client) (k : Nat) (id : String) (args : List Json) (hint : String)
    {run : String → Client} (hrun : ∀ subject, c.OwnSteps (run subject)) :
    c.OwnSteps (c.runAbout k id args hint run) := by
  unfold runAbout
  split
  · exact (ownSteps_say rfl).trans (ownSteps_finishCommand _ k _)
  · split
    · exact hrun _
    · exact ownSteps_finishCommand c k _

theorem ownSteps_runCommand (c : Client) (k : Nat) (id : String) (args : List Json)
    (action : CommandAction) : c.OwnSteps (c.runCommand k id args action) := by
  cases action with
  | openSnippetFolder =>
      simp only [runCommand]
      split
      · exact ownSteps_finishCommand c k _
      · exact (ownSteps_say rfl).trans (ownSteps_finishCommand _ k _)
  | restartServer =>
      simp only [runCommand]
      split
      · exact (ownSteps_beginProgress c k _).trans (ownSteps_askTurn _ k .restart)
      · exact ownSteps_finishCommand c k _
  | showOutput => exact (ownSteps_say rfl).trans (ownSteps_finishCommand _ k _)
  | showVirtualFile =>
      exact ownSteps_runAbout c k id args _ fun source => ownSteps_askSession c k _ _ _
  | showDoctor => exact ownSteps_runAbout c k id args _ fun file => ownSteps_askSession c k _ _ _

/-- The activation sets the workspace up, and then it asks for a turn. -/
theorem ownSteps_activate (c : Client) (k : Nat) : c.outfit.OwnSteps (c.activate k) :=
  (ownSteps_beginProgress _ k startTitle).trans (ownSteps_askTurn _ k .activate)

theorem ownSteps_beginCall (c : Client) (k : Nat) (operation : Operation) :
    (c.preface operation .fresh).OwnSteps (c.beginCall k operation) := by
  cases operation with
  | start => exact ownSteps_askTurn c k .start
  | stop => exact ownSteps_askTurn c k .stop
  | restart => exact ownSteps_askTurn c k .restart
  | activate => exact ownSteps_activate c k
  | ready => exact ownSteps_look c k
  | request method params shape => exact ownSteps_askSession c k _ _ _
  | relay g method params =>
      simp only [beginCall]
      split
      · exact ownSteps_ask c k g _ _ _
      · exact ownSteps_finish c k _
  | showVirtualFile source => exact ownSteps_askSession c k _ _ _
  | command id args reported =>
      simp only [beginCall]
      split
      · exact ownSteps_runCommand c k id args _
      · exact ownSteps_finishCommand c k _

/-- A call goes on behind its preface. -/
theorem ownSteps_goOn (c : Client) (k : Nat) (operation : Operation) (phase : Phase) :
    (c.preface operation phase).OwnSteps (c.goOn k operation phase) := by
  cases phase with
  | fresh => exact ownSteps_beginCall c k operation
  | queued => exact ownSteps_proceed k (ownSteps_beginTurn c operation)
  | launching g => exact ownSteps_proceed k (ownSteps_afterLaunch c g)
  | initializing g id => exact ownSteps_proceed k (ownSteps_afterHandshake c g id)
  | abandoning g error deadline =>
      refine ownSteps_proceed k ?_
      unfold afterAbandoning
      split
      · exact ownSteps_reap c operation g _
      · exact ownSteps_refl c
  | stopping g id => exact ownSteps_proceed k (ownSteps_afterShutdown c g id)
  | closing g deadline =>
      refine ownSteps_proceed k ?_
      unfold afterClosing
      split
      · exact ownSteps_reap c operation g _
      · exact ownSteps_refl c
  | reaping g deadline error? =>
      refine ownSteps_proceed k ?_
      unfold afterReaping
      split
      · exact (ownSteps_endProcess c g).trans (ownSteps_afterClose _ operation g error?)
      · exact ownSteps_refl c
  | watching seen => exact ownSteps_look c k
  | peeking =>
      have hleave : c.OwnSteps { c with lock := c.lock.leave k } := ownSteps_inner rfl rfl
      exact hleave.trans (ownSteps_look _ k)
  | awaiting g id goal => exact ownSteps_afterReply c k g id goal
  | finished outcome => exact ownSteps_refl c
  | dropped => exact ownSteps_refl c

theorem ownSteps_poll (c : Client) (k : Nat) : (c.prelude (.poll k)).OwnSteps (c.poll k) := by
  unfold poll prelude
  dsimp only
  cases c.calls[k]? with
  | none => exact ownSteps_refl c
  | some call =>
      dsimp only
      split
      · exact ownSteps_goOn c k call.operation call.phase
      · exact ownSteps_refl c

/-! ### Pumps and discarded attempts -/

/-- An attempt that is discarded has no pump that begins to deliver. -/
theorem armed_of_discard {a : Attempt} (h : (discard a).pump = .armed) : a.pump = .armed := by
  unfold discard at h
  split at h
  · dsimp only at h
    split at h
    · cases h
    · exact h
  · exact h

theorem ownSteps_tidy (c : Client) : c.OwnSteps c.tidy := by
  refine .single (.inner ?_ (fun g hdelivers => ?_) (bringsNothing_tidy c))
  · unfold tidy
    dsimp only
    split <;> rfl
  · unfold delivers at hdelivers ⊢
    rw [attempt?_tidy] at hdelivers
    cases hattempt : c.attempt? g with
    | none => simp [hattempt] at hdelivers
    | some a =>
        simp only [hattempt, Option.map_some, Option.any_some, decide_eq_true_eq] at hdelivers ⊢
        split at hdelivers
        · exact hdelivers
        · exact armed_of_discard hdelivers

/-- A pump that delivers takes the first notification that waits, enters it in the journal and has its
handler react. -/
theorem pump_of_delivery? {message : Notification} (h : c.delivery? g = some message) :
    ∃ (a : Attempt) (rest : List Notification), c.attempt? g = some a ∧ a.pump = .armed ∧
      a.connection.notifications = message :: rest ∧
        c.pump g = ((c.updateConnection g fun connection =>
          { connection with notifications := rest }).note (.delivered g message)).deliver message := by
  unfold delivery? at h
  split at h
  · rename_i launch connection process hattempt
    cases hnotifications : connection.notifications with
    | nil => simp [hnotifications] at h
    | cons first rest =>
        rw [hnotifications, List.head?_cons, Option.some.injEq] at h
        subst h
        refine ⟨_, rest, hattempt, rfl, hnotifications, ?_⟩
        simp only [pump, hattempt, hnotifications]
  · cases h

/-- A pump that has nothing to deliver has nothing to do, or it ends. -/
theorem ownSteps_pump (h : c.delivery? g = none) : c.OwnSteps (c.pump g) := by
  have hended : c.OwnSteps (c.setPump g .ended) := ownSteps_setPump nofun
  have hchange := pumpChange_pump c g
  generalize c.pump g = d at hchange ⊢
  cases hchange with
  | rests => exact ownSteps_refl c
  | @delivers a message rest hattempt harmed hwaiting =>
      obtain ⟨launch, connection, process, pump⟩ := a
      subst harmed
      have hfirst : connection.notifications = message :: rest := hwaiting
      simp [delivery?, hattempt, hfirst] at h
  | loses =>
      have hgone : (c.setPump g .ended).OwnSteps { c.setPump g .ended with slot := none } :=
        ownSteps_inner rfl rfl
      exact (hended.trans hgone).trans (ownSteps_reportFailure _ g _)
  | ends => exact hended

/-! ### Every event -/

theorem ownSteps_cancel (c : Client) (k : Nat) : c.OwnSteps (c.cancel k) := by
  have hleave : ∀ d : Client, d.OwnSteps
      (({ d with lock := d.lock.leave k }.endProgress k).setPhase k .dropped) := fun d =>
    have hlock : d.OwnSteps { d with lock := d.lock.leave k } := ownSteps_inner rfl rfl
    hlock.trans ((ownSteps_endProgress _ k).trans (ownSteps_setPhase _ k _))
  rcases cancel_cases c k with ⟨hsame, -⟩ | ⟨call, d, -, -, rfl | ⟨g, id, rfl⟩, hcancel⟩
  · rw [hsame]
    exact ownSteps_refl c
  · rw [hcancel]
    exact hleave _
  · rw [hcancel]
    exact (ownSteps_updateConnection fun _ _ => ⟨.forget id, rfl, rfl⟩).trans (hleave _)

theorem ownSteps_relayNotification (c : Client) (g : Nat) (message : Notification) :
    c.OwnSteps (c.act (.relayNotification g message)) := by
  rcases relayNotification_cases c g message with hsame | ⟨-, hnotify⟩
  · rw [hsame]
    exact ownSteps_refl c
  · exact ownSteps_notify? hnotify

/-- A connection that takes a step is not seen, and no pump begins to deliver. -/
theorem visible_moveConnection (c : Client) (g : Nat) (action : Connection.Action) :
    (c.moveConnection g action).visible = c.visible := by
  rcases moveConnection_cases c g action with ⟨hsame, -⟩ | ⟨a, connection, -, -, -, -, hmoved⟩
  · rw [hsame]
  · rw [hmoved]
    exact visible_updateAttempt c g _

theorem delivers_moveConnection {action : Connection.Action} {i : Nat}
    (h : (c.moveConnection g action).delivers i) : c.delivers i := by
  rcases moveConnection_cases c g action with ⟨hsame, -⟩ | ⟨a, connection, -, -, -, -, hmoved⟩
  · rwa [hsame] at h
  · rw [hmoved] at h
    exact delivers_updateConnection h

/-- **Every event is made of steps of the client, behind its prelude.** -/
theorem ownSteps_step (c : Client) (event : Event) : (c.prelude event).OwnSteps (c.step event) := by
  refine OwnSteps.trans ?_ (ownSteps_tidy (c.act event))
  cases event with
  | poll k => exact ownSteps_poll c k
  | pump g =>
      unfold prelude act
      dsimp only
      split
      · exact ownSteps_refl _
      · rename_i hnone
        rw [Option.not_isSome_iff_eq_none] at hnone
        exact ownSteps_pump hnone
  | complaint line => exact ownSteps_refl _
  | onReady hook => exact ownSteps_refl _
  | advance span => exact ownSteps_inner rfl rfl
  | invoke operation =>
      have hsame : (c.invoke operation).visible = c.visible ∧
          (c.invoke operation).attempts = c.attempts := by
        unfold invoke
        split <;> exact ⟨rfl, rfl⟩
      exact ownSteps_inner hsame.1 hsame.2
  | cancel k => exact ownSteps_cancel c k
  | launchFailed g error => exact ownSteps_setLaunch c g _ _ _
  | launchSucceeded g taken process => exact ownSteps_setLaunch c g _ _ _
  | processEnded g => exact ownSteps_endProcess c g
  | connection g action => exact ownSteps_refl _
  | relayNotification g message => exact ownSteps_relayNotification c g message
  | release => exact ownSteps_inner rfl rfl

/-! ### They bring nothing -/

theorem bringsNothing_of_ownStep (h : c.OwnStep d) : c.BringsNothing d := by
  cases h with
  | inner hvisible hpumps hnothing => exact hnothing
  | note entry h => exact bringsNothing_of_attempts rfl
  | fail g error => exact bringsNothing_of_attempts rfl
  | becomesReady g =>
      have hhooks : c.BringsNothing ((c.publish g .ready).runHooks g) :=
        bringsNothing_of_attempts ((workspaceEffect_runHooks g).attempts _)
      exact hhooks.trans (bringsNothing_updateAttempt fun _ _ => Connection.bringsNothing_refl _)

/-- Whatever a client does of itself, nothing comes from a server. -/
theorem bringsNothing_of_ownSteps (h : c.OwnSteps d) : c.BringsNothing d := by
  induction h with
  | refl => exact bringsNothing_refl c
  | tail _ hlast ih => exact ih.trans (bringsNothing_of_ownStep hlast)

end Client

end LanguageClient
