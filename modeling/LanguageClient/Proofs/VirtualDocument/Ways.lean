import LanguageClient.Proofs.Session.Deliveries
import LanguageClient.Proofs.Session.Reactions
import LanguageClient.Proofs.Session.Waiting

/-!
# The ways of updates

An update of a virtual file comes to the client on one of two kinds of ways: it waits among the
notifications of a session until the pump delivers it, or it waits in the reply to a request until the
call that made it goes on.  On each way updates are kept in the order in which they came.  But nothing
holds the ways together, so an update can be overtaken by one that came later on another way.

* `Way`, `Client.onWay`, `Client.entering` — the ways, the files on them, and those that an event puts
  there.
* `link_prelude`, `shown_step` — what an event does to the connections and to the replies.
* **`Client.onWay_step`** — an event takes the first file off its own way, and no other one.
* `Client.updatesOf_prefix` — the updates of a uri that are left on a single way are applied in order.
* **`Client.latest_update_is_held`** — then the one that came last is held in the end.
-/

namespace LanguageClient

/-! ### Ways -/

/-- A way on which updates of virtual files come to the client. -/
inductive Way where
  /-- The notifications of a session, which its pump delivers. -/
  | queue (generation : Nat)
  /-- The reply that a call waits for. -/
  | reply (call : Nat)
  deriving DecidableEq, Repr

/-- The virtual file that a notification brings. -/
def Notification.file? (message : Notification) : Option VirtualFile :=
  message.reaction?.bind Reaction.file?

namespace Client

/-- The way off which an event takes an update. -/
def Event.way? : Event → Option Way
  | .pump g => some (.queue g)
  | .poll k => some (.reply k)
  | _ => none

/-- The virtual files on a way, the one that came first before the others. -/
def onWay (c : Client) : Way → List VirtualFile
  | .queue g => (c.link g).notifications.filterMap Notification.file?
  | .reply k => (c.shown? k).toList

/-- The virtual file in a response that an event brings to a call that waits for it. -/
def answered? (c : Client) : Event → Phase → Option VirtualFile
  | .connection i action, .awaiting g id (.virtualFile source) =>
      if i = g then ((c.link g).brought? action id).bind (VirtualFileInfo.file? source) else none
  | _, _ => none

/-- The virtual files that an event puts on a way. -/
def entering (c : Client) (event : Event) : Way → List VirtualFile
  | .queue g => (messagesOf g (c.arrival? event).toList).filterMap Notification.file?
  | .reply k => (c.calls[k]?.bind fun call => c.answered? event call.phase).toList

variable {c : Client} {event : Event} {uri : String} {way : Way} {file : VirtualFile} {g k : Nat}

/-! ### What an event does to the connections -/

theorem attempts_outfit (c : Client) : c.outfit.attempts = c.attempts := by
  rw [outfit, (workspaceEffect_onReady .wire).attempts,
    (workspaceEffect_registerCommand CommandName.restartServer .restartServer).attempts,
    (workspaceEffect_registerCommand CommandName.openSnippetFolder .openSnippetFolder).attempts]
  rfl

theorem attempts_preface (c : Client) (operation : Operation) (phase : Phase) :
    (c.preface operation phase).attempts = c.attempts := by
  cases phase with
  | fresh =>
      cases operation with
      | activate => exact attempts_outfit c
      | _ => rfl
  | awaiting g id goal =>
      rw [preface]
      cases c.replyFile? (.awaiting g id goal) <;> rfl
  | _ => rfl

/-- A pump that delivers takes the first notification of its own session. -/
theorem link_pump {message : Notification} (h : c.delivery? g = some message) :
    ∃ rest, (c.link g).notifications = message :: rest ∧ ∀ i, (c.pump g).link i =
      if g = i then { c.link i with notifications := rest } else c.link i := by
  obtain ⟨a, rest, ha, -, hnotifications, hpump⟩ := pump_of_delivery? h
  refine ⟨rest, by rw [link_of_attempt ha, hnotifications], fun i => ?_⟩
  let took := c.updateConnection g fun connection => { connection with notifications := rest }
  have hlink : (c.pump g).link i = took.link i := by
    rw [hpump]
    exact link_of_attempts ((workspaceEffect_deliver message).attempts (took.note _)) i
  rw [hlink]
  simp only [took, updateConnection, link_updateAttempt]
  split
  · rename_i hi
    subst hi
    rw [link_of_attempt ha, ha]
    rfl
  · rfl

/-- What a connection queues in a step is what arrives. -/
theorem arrival?_connection {a : Attempt} (ha : c.attempt? g = some a)
    (hlaunch : a.launch = .connected) (action : Connection.Action) :
    c.arrival? (.connection g action) =
      (a.connection.arrival? action).map fun message => (g, message) := by
  obtain ⟨launch, connection, process, pump⟩ := a
  cases hlaunch
  simp only [arrival?, ha]

/-- A connection that takes no step queues nothing. -/
theorem arrival?_eq_none {action : Connection.Action} (h : ∀ a, c.attempt? g = some a →
    a.launch = .connected → action.isSpontaneous → a.connection.step? action = none) :
    c.arrival? (.connection g action) = none := by
  rw [Option.eq_none_iff_forall_ne_some]
  rintro entry harrival
  simp only [arrival?] at harrival
  split at harrival
  · rename_i connection process pump ha
    obtain ⟨message, hmessage, -⟩ := Option.map_eq_some_iff.mp harrival
    obtain ⟨hself, d, hstep⟩ := Connection.step?_of_arrival? hmessage
    rw [h _ ha rfl hself] at hstep
    cases hstep
  · cases harrival

/-- A connection takes a step, a pump takes a notification, or a connection is left as it is and
nothing arrives on it. -/
theorem link_prelude (c : Client) (event : Event) (g : Nat) :
    ((c.prelude event).link g = c.link g ∧ messagesOf g (c.arrival? event).toList = []) ∨
      (∃ (action : Connection.Action) (a : Attempt), event = .connection g action ∧
        c.attempt? g = some a ∧ a.launch = .connected ∧ action.isSpontaneous ∧
        a.connection.step? action = some ((c.prelude event).link g)) ∨
      ∃ rest : List Notification, event = .pump g ∧
        (c.prelude event).link g = { c.link g with notifications := rest } := by
  cases event with
  | connection i action =>
      rw [prelude]
      -- A connection that cannot take the step is as it was, and nothing arrives on it.
      rcases moveConnection_cases c i action with
        ⟨hsame, hidle⟩ | ⟨a, k, ha, hlaunch, hself, hstep, hmoved⟩
      · refine .inl ⟨by rw [hsame], ?_⟩
        rw [arrival?_eq_none hidle]
        rfl
      · rw [hmoved, updateConnection, link_updateAttempt]
        split
        · rename_i hi
          subst hi
          exact .inr (.inl ⟨action, a, rfl, ha, hlaunch, hself, by simp [ha, hstep]⟩)
        · rename_i hi
          refine .inl ⟨rfl, ?_⟩
          rw [arrival?_connection ha hlaunch]
          cases a.connection.arrival? action <;> simp [messagesOf, hi]
  | pump i =>
      rw [prelude]
      split
      · rename_i hsome
        obtain ⟨message, hdelivery⟩ := Option.isSome_iff_exists.mp hsome
        obtain ⟨rest, -, hlink⟩ := link_pump hdelivery
        rw [hlink]
        split
        · rename_i hi
          exact .inr (.inr ⟨rest, by rw [hi], rfl⟩)
        · exact .inl ⟨rfl, rfl⟩
      · exact .inl ⟨rfl, rfl⟩
  | poll k =>
      refine .inl ⟨link_of_attempts ?_ g, rfl⟩
      simp only [prelude]
      split
      · split
        · exact attempts_preface c _ _
        · rfl
      · rfl
  | onReady hook => exact .inl ⟨link_of_attempts ((workspaceEffect_onReady hook).attempts c) g, rfl⟩
  | _ => exact .inl ⟨rfl, rfl⟩

/-! ### Queues -/

/-- Behind its prelude, an event leaves the notifications as they are. -/
theorem notifications_step (c : Client) (event : Event) (g : Nat) :
    ((c.step event).link g).notifications = ((c.prelude event).link g).notifications :=
  (bringsNothing_of_ownSteps (ownSteps_step c event) g).notifications

/-- A pump takes the update that came first. -/
theorem onWay_pump (c : Client) (g : Nat) : c.onWay (.queue g) =
    (c.serverInput (.pump g)).file?.toList ++ (c.step (.pump g)).onWay (.queue g) := by
  simp only [onWay, notifications_step, prelude, serverInput]
  cases hdelivery : c.delivery? g with
  | none => rfl
  | some message =>
      obtain ⟨rest, hnotifications, hlink⟩ := link_pump hdelivery
      rw [hnotifications, List.filterMap_cons]
      simp only [Option.isSome_some, if_true, hlink, Option.elim_some]
      change _ = message.file?.toList ++ _
      cases message.file? <;> rfl

/-- Every other event puts what it brings at the end. -/
theorem onWay_queue (h : event ≠ .pump g) :
    (c.step event).onWay (.queue g) = c.onWay (.queue g) ++ c.entering event (.queue g) := by
  simp only [onWay, notifications_step, entering]
  rcases link_prelude c event g with ⟨hsame, hnothing⟩ |
    ⟨action, a, rfl, ha, hlaunch, hself, hstep⟩ | ⟨rest, rfl, -⟩
  · rw [hsame, hnothing, List.filterMap_nil, List.append_nil]
  · have hqueues := (Connection.queues_step? hself hstep).notifications
    rw [hqueues, link_of_attempt ha, List.filterMap_append, arrival?_connection ha hlaunch]
    cases a.connection.arrival? action <;> simp [messagesOf]
  · exact absurd rfl h

/-! ### Replies -/

/-- A call brings a virtual file when it waits for a reply in which there is one. -/
theorem shown?_eq_some_iff : c.shown? k = some file ↔
    ∃ (operation : Operation) (g id : Nat) (source : String) (value : Json),
      c.calls[k]? = some ⟨operation, .awaiting g id (.virtualFile source)⟩ ∧
        (c.link g).untaken? id = some value ∧ VirtualFileInfo.file? source value = some file := by
  constructor
  · intro h
    obtain ⟨operation, g, id, source, d, value, hcall, hsettle, hfile⟩ := awaits_of_shown h
    exact ⟨operation, g, id, source, value, hcall, settle?_eq_ok_iff.mp ⟨d, hsettle⟩, hfile⟩
  · rintro ⟨operation, g, id, source, value, hcall, huntaken, hfile⟩
    obtain ⟨d, hsettle⟩ := settle?_eq_ok_iff.mpr huntaken
    simp [shown?, hcall, replyFile?, hsettle, hfile]

/-- A caller has a result after an event if it had one before, or if the event brings it. -/
theorem untaken?_link_step {id : Nat} {value : Json}
    (h : ((c.step event).link g).untaken? id = some value) :
    (c.link g).untaken? id = some value ∨ (c.link g).untaken? id = none ∧
      ∃ action, event = .connection g action ∧ (c.link g).brought? action id = some value := by
  have hprelude := (bringsNothing_of_ownSteps (ownSteps_step c event) g).results id value h
  rcases link_prelude c event g with ⟨hsame, -⟩ | ⟨action, a, rfl, ha, -, -, hstep⟩ |
    ⟨rest, -, htook⟩
  · exact .inl (hsame ▸ hprelude)
  · rw [link_of_attempt ha]
    refine (Connection.untaken_step hstep hprelude).imp_right ?_
    exact fun ⟨hnone, hbrought⟩ => ⟨hnone, action, rfl, hbrought⟩
  · rw [htook] at hprelude
    exact .inl hprelude

/-- The virtual file of a reply stands there before the event, or it is in the response that the event
brings. -/
theorem shown_step (h : c.life.Orderly) (hnumbered : c.IsNumbered)
    (hshown : (c.step event).shown? k = some file) :
    c.shown? k = some file ∨ c.shown? k = none ∧ c.entering event (.reply k) = [file] := by
  obtain ⟨operation, g, id, source, value, hcall', huntaken, hfile⟩ := shown?_eq_some_iff.mp hshown
  rcases call_of_step h hcall' with hcall | ⟨-, hfresh⟩ | hdropped |
    ⟨call, -, -, -, -, -, -, hawaits⟩
  · rcases untaken?_link_step huntaken with hbefore | ⟨hnone, action, rfl, hbrought⟩
    · exact .inl (shown?_eq_some_iff.mpr ⟨operation, g, id, source, value, hcall, hbefore, hfile⟩)
    · refine .inr ⟨?_, by simp [entering, hcall, answered?, hbrought, hfile]⟩
      rw [Option.eq_none_iff_forall_ne_some]
      intro other hother
      obtain ⟨_, _, _, _, _, hcall', hbefore, -⟩ := shown?_eq_some_iff.mp hother
      rw [hcall, Option.some.injEq] at hcall'
      cases hcall'
      rw [hnone] at hbefore
      cases hbefore
  · cases hfresh
  · cases hdropped
  · rw [hawaits g id _ rfl hnumbered] at huntaken
    cases huntaken

/-- A call that brings its virtual file has ended. -/
theorem shown_poll (hshown : c.shown? k = some file) : (c.step (.poll k)).shown? k = none := by
  obtain ⟨operation, g, id, source, d, value, hcall, hsettle, -⟩ := awaits_of_shown hshown
  obtain ⟨outcome, hlife⟩ := life_useReply d k (.ok value) (.virtualFile source)
  have hpoll : c.poll k = d.useReply k (.ok value) (.virtualFile source) := by
    simp [poll, hcall, canGoOn, hsettle, goOn, afterReply]
  have hused : (d.useReply k (.ok value) (.virtualFile source)).calls =
      (c.life.setPhase k (.finished outcome)).calls := by
    rw [← life_settle? hsettle]
    exact congrArg Life.calls hlife
  have hcalls : (c.step (.poll k)).calls[k]? = some ⟨operation, .finished outcome⟩ := by
    change (c.poll k).tidy.calls[k]? = _
    rw [tidy_calls, hpoll, hused]
    exact Life.getElem?_setPhase_self (l := c.life) hcall _
  rw [shown?, hcalls]
  rfl

/-- A call that goes on takes its update. -/
theorem onWay_poll (h : c.life.Orderly) (hnumbered : c.IsNumbered) (k : Nat) : c.onWay (.reply k) =
    (c.serverInput (.poll k)).file?.toList ++ (c.step (.poll k)).onWay (.reply k) := by
  simp only [onWay, serverInput]
  cases hshown : c.shown? k with
  | some file =>
      rw [shown_poll hshown]
      rfl
  | none =>
      -- Nothing comes in an event of a caller, so there is nothing afterwards either.
      have hafter : (c.step (.poll k)).shown? k = none := by
        rw [Option.eq_none_iff_forall_ne_some]
        intro file hfile
        rcases shown_step h hnumbered hfile with hbefore | ⟨-, hentering⟩
        · rw [hshown] at hbefore
          cases hbefore
        · simp [entering, answered?] at hentering
      rw [hafter]
      rfl

/-- Every other event at most brings the reply of a call. -/
theorem onWay_reply (h : c.life.Orderly) (hnumbered : c.IsNumbered) (event : Event) (k : Nat) :
    (c.step event).onWay (.reply k) <+: c.onWay (.reply k) ++ c.entering event (.reply k) := by
  simp only [onWay]
  cases hshown : (c.step event).shown? k with
  | none => exact List.nil_prefix
  | some file =>
      rcases shown_step h hnumbered hshown with hbefore | ⟨hnone, hentering⟩
      · rw [hbefore]
        exact List.prefix_append _ _
      · rw [hnone, hentering]
        exact List.prefix_refl _

/-! ### Every event -/

/-- **An event takes the first update off its own way**, and on every other way updates are kept in
their order, with what the event brings behind them. -/
theorem onWay_step (h : c.life.Orderly) (hnumbered : c.IsNumbered) (event : Event) (way : Way) :
    (event.way? = some way ∧
        c.onWay way = (c.serverInput event).file?.toList ++ (c.step event).onWay way) ∨
      event.way? ≠ some way ∧
        (c.step event).onWay way <+: c.onWay way ++ c.entering event way := by
  by_cases hway : event.way? = some way
  · refine .inl ⟨hway, ?_⟩
    cases event with
    | pump g =>
        cases hway
        exact onWay_pump c g
    | poll k =>
        cases hway
        exact onWay_poll h hnumbered k
    | _ => cases hway
  · refine .inr ⟨hway, ?_⟩
    cases way with
    | queue g =>
        have hother : event ≠ .pump g := by
          rintro rfl
          exact hway rfl
        exact ⟨[], by rw [onWay_queue hother, List.append_nil]⟩
    | reply k => exact onWay_reply h hnumbered event k

/-- An event that takes nothing off a way brings about no update. -/
theorem file?_serverInput (h : event.way? = none) : (c.serverInput event).file? = none := by
  cases event with
  | poll k => cases h
  | pump g => cases h
  | _ => rfl

/-- The virtual files of a uri on a way. -/
def underway (c : Client) (uri : String) (way : Way) : List VirtualFile :=
  (c.onWay way).filter fun file => file.uri = uri

/-- The virtual files that the events of a run put on a way. -/
def entered (c : Client) (way : Way) : List Event → List VirtualFile
  | [] => []
  | event :: rest => c.entering event way ++ (c.step event).entered way rest

/-- The updates of a uri in a run, one after the other. -/
def updatesOf (c : Client) (uri : String) (events : List Event) : List VirtualFile :=
  (c.updates events).filter fun file => file.uri = uri

theorem updatesOf_cons (c : Client) (uri : String) (event : Event) (rest : List Event) :
    c.updatesOf uri (event :: rest) =
      ((c.serverInput event).file?.toList.filter fun file => file.uri = uri) ++
        (c.step event).updatesOf uri rest := by
  rw [updatesOf, updates, serverInputs, List.filterMap_cons]
  cases hfile : (c.serverInput event).file? with
  | none => simp [updatesOf, updates]
  | some file => by_cases huri : file.uri = uri <;> simp [updatesOf, updates, huri]

/-- When no update of a uri comes, an event takes one off its own way only. -/
theorem underway_step (h : c.life.Orderly) (hnumbered : c.IsNumbered)
    (hnone : ∀ file ∈ c.entering event way, file.uri ≠ uri) :
    (event.way? = some way ∧ c.underway uri way =
        ((c.serverInput event).file?.toList.filter fun file => file.uri = uri) ++
          (c.step event).underway uri way) ∨
      event.way? ≠ some way ∧ (c.step event).underway uri way <+: c.underway uri way := by
  refine (onWay_step h hnumbered event way).imp ?_ ?_
  · rintro ⟨hway, honWay⟩
    refine ⟨hway, ?_⟩
    rw [underway, honWay, List.filter_append]
    rfl
  · rintro ⟨hway, honWay⟩
    refine ⟨hway, ?_⟩
    have hkept := honWay.filter fun file => decide (file.uri = uri)
    have hnothing : (c.entering event way).filter (fun file => decide (file.uri = uri)) = [] :=
      List.filter_eq_nil_iff.mpr fun file hfile => by simpa using hnone file hfile
    rwa [List.filter_append, hnothing, List.append_nil] at hkept

/-! ### Runs -/

/-- The updates of a uri that are left on a single way are applied in their order. -/
theorem updatesOf_prefix (h : c.life.Orderly) (hnumbered : c.IsNumbered) {events : List Event}
    (halone : ∀ other, other ≠ way → c.underway uri other = [])
    (hnone : ∀ other, ∀ file ∈ c.entered other events, file.uri ≠ uri) :
    c.updatesOf uri events <+: c.underway uri way := by
  induction events generalizing c with
  | nil => exact List.nil_prefix
  | cons event rest ih =>
      have hstep : ∀ other, _ := fun other => @underway_step c event uri other h hnumbered
        fun file hfile => hnone other file (List.mem_append_left _ hfile)
      -- The other ways stay without updates.
      have halone' : ∀ other, other ≠ way → (c.step event).underway uri other = [] := by
        intro other hother
        rcases hstep other with ⟨-, htaken⟩ | ⟨-, hkept⟩
        · rw [halone other hother] at htaken
          exact (List.append_eq_nil_iff.mp htaken.symm).2
        · rw [halone other hother] at hkept
          exact List.prefix_nil.mp hkept
      have hrest : (c.step event).updatesOf uri rest <+: (c.step event).underway uri way :=
        ih (orderly_step h event)
          (isNumbered_attemptsGoOn (attemptsGoOn_step c event) hnumbered) halone'
          fun other file hfile => hnone other file (List.mem_append_right _ hfile)
      rw [updatesOf_cons]
      rcases hstep way with ⟨-, htaken⟩ | ⟨hway, hkept⟩
      · rw [htaken]
        exact (List.prefix_append_right_inj _).mpr hrest
      · -- Another way has nothing that could be applied.
        have hnothing :
            ((c.serverInput event).file?.toList.filter fun file => file.uri = uri) = [] := by
          cases hother : event.way? with
          | none => rw [file?_serverInput hother, Option.toList_none, List.filter_nil]
          | some other =>
              have hne : other ≠ way := fun heq => hway (heq ▸ hother)
              rcases hstep other with ⟨-, htaken⟩ | ⟨hno, -⟩
              · rw [halone other hne] at htaken
                exact (List.append_eq_nil_iff.mp htaken.symm).1
              · exact absurd hother hno
        rw [hnothing, List.nil_append]
        exact hrest.trans hkept

/-- As long as no connection takes a step, no update comes. -/
theorem entered_eq_nil {events : List Event}
    (h : ∀ event ∈ events, ∀ g action, event ≠ .connection g action) (way : Way) :
    c.entered way events = [] := by
  have hentering : ∀ (c : Client) (event : Event), (∀ g action, event ≠ .connection g action) →
      c.entering event way = [] := by
    intro c event hother
    cases event with
    | connection g action => exact absurd rfl (hother g action)
    | _ => cases way <;> simp [entering, arrival?, answered?]
  induction events generalizing c with
  | nil => rfl
  | cons event rest ih =>
      rw [List.forall_mem_cons] at h
      rw [entered, hentering c event h.1, ih h.2, List.nil_append]

/-- There is nothing on the way of a session that has not been started. -/
theorem underway_queue_eq_nil (h : c.attempt? g = none) : c.underway uri (.queue g) = [] := by
  rw [underway, onWay, link, connection?, h]
  rfl

/-- There is nothing on the way of a call that has not been made. -/
theorem underway_reply_eq_nil (h : c.calls[k]? = none) : c.underway uri (.reply k) = [] := by
  rw [underway, onWay, shown?, h]
  rfl

/-! ### Clients that have been activated -/

/-- A client with a new workspace, after its activation has begun and further events. -/
def activeAfter (options : SessionOptions) (processId : Nat) (workspace : Workspace)
    (past : List Event) : Client :=
  (Client.new options processId { workspace with router := {}, store := {} }).run
    ([.invoke .activate, .poll 0] ++ past)

section Active

variable (options : SessionOptions) (processId : Nat) (workspace : Workspace)
  (past later : List Event) (uri : String)

theorem orderly_activeAfter : (activeAfter options processId workspace past).life.Orderly :=
  orderly_run (orderly_new options processId _) _

theorem isNumbered_activeAfter : (activeAfter options processId workspace past).IsNumbered :=
  isNumbered_attemptsGoOn (attemptsGoOn_run _ _) (isNumbered_new options processId _)

theorem updates_append (c : Client) (past later : List Event) :
    c.updates (past ++ later) = c.updates past ++ (c.run past).updates later := by
  have hinputs : c.serverInputs (past ++ later) =
      c.serverInputs past ++ (c.run past).serverInputs later := by
    induction past generalizing c with
    | nil => rfl
    | cons event rest ih =>
        rw [List.cons_append, serverInputs, serverInputs, ih, List.cons_append]
        rfl
  rw [updates, hinputs, List.filterMap_append]
  rfl

/-- The virtual file of a uri is that of its last update, once there is one. -/
theorem get?_run_activeAfter
    (h : (activeAfter options processId workspace past).updatesOf uri later ≠ []) :
    ((activeAfter options processId workspace past).run later).workspace.store.get? uri =
      ((activeAfter options processId workspace past).updatesOf uri later).getLast? := by
  let first : Client := Client.new options processId { workspace with router := {}, store := {} }
  let c := activeAfter options processId workspace past
  have hfolds : first.FoldsNotifications (([.invoke .activate, .poll 0] ++ past) ++ later) := by
    refine folds_of_findsHandlers (fun before after heq => ?_) rfl rfl
    rw [List.append_assoc] at heq
    exact findsHandlers_of_activated rfl ⟨nofun, nofun⟩ rfl rfl heq
  have hfile := hfolds.file uri
  rw [run_append, updates_append, List.filter_append] at hfile
  have hlast : (c.run later).workspace.store.get? uri = (_ ++ c.updatesOf uri later).getLast? := hfile
  rw [hlast, List.getLast?_append_of_ne_nil _ h]

/-- **The update that came last is held, if nothing overtakes it.**  When all updates of a uri that
are left stand on a single way, be it the notifications of a session or the reply that a call waits
for, and no more of them come, then in whatever order pumps, calls and connections go on, as soon as
those updates have been applied the virtual file is the one that came last. -/
theorem latest_update_is_held (way : Way) (file : VirtualFile)
    (hlast : ((activeAfter options processId workspace past).underway uri way).getLast? = some file)
    (halone : ∀ other, other ≠ way →
      (activeAfter options processId workspace past).underway uri other = [])
    (hnone : ∀ other, ∀ entering ∈ (activeAfter options processId workspace past).entered other later,
      entering.uri ≠ uri)
    (happlied : ((activeAfter options processId workspace past).updatesOf uri later).length =
      ((activeAfter options processId workspace past).underway uri way).length) :
    ((activeAfter options processId workspace past).run later).workspace.store.get? uri =
      some file := by
  have hprefix := updatesOf_prefix (orderly_activeAfter options processId workspace past)
    (isNumbered_activeAfter options processId workspace past) halone hnone
  have hall := hprefix.eq_of_length happlied
  rw [← hall] at hlast
  rw [get?_run_activeAfter options processId workspace past later uri ?_, hlast]
  intro hempty
  rw [hempty] at hlast
  cases hlast

end Active

/-! ### Updates that come one after the other -/

/-- A session becomes ready, and the request for a virtual file is written. -/
def queried : List Event :=
  [.launchSucceeded 1 false false, .poll 0, .connection 1 .start, .connection 1 .write,
    .connection 1 .finish,
    .connection 1 (.receive (Frame.encode (.obj [("id", .ofNat 1),
      ("result", .obj [("capabilities", .obj [])])]))),
    .connection 1 .read, .connection 1 .handle, .poll 0, .invoke (.showVirtualFile "file:///a.vue"),
    .poll 1, .connection 1 .write, .connection 1 .finish, .connection 1 .write,
    .connection 1 .finish]

/-- The reply to that request that brings a virtual file. -/
def fileReply (file : VirtualFile) : Json :=
  .obj [("id", .ofNat 2), ("result", .arr [.str file.uri, .str file.content, .str file.sourceMap])]

/-- The notification that brings a virtual file. -/
def fileNote (file : VirtualFile) : Json :=
  .obj [("method", .str Method.showVirtualFile),
    ("params", .arr [.str file.content, .str file.sourceMap, .str file.uri])]

/-- Two notifications bring files of one uri, and between them comes a reply with one of another uri:
the second notification is held, though the call goes on in between. -/
theorem second_of_two_notes_is_held :
    let uri := "v:1"
    let second : VirtualFile := ⟨uri, "second", "m2"⟩
    let past := queried ++ [.connection 1 (.receive (Frame.encode (fileNote ⟨uri, "first", "m1"⟩) ++
        Frame.encode (fileReply ⟨"v:2", "other", "m"⟩) ++ Frame.encode (fileNote second))),
      .connection 1 .read, .connection 1 .handle, .connection 1 .read, .connection 1 .handle,
      .connection 1 .read, .connection 1 .handle]
    let later := [.pump 1, .poll 1, .pump 1]
    ((activeAfter {} 0 {} past).underway uri (.queue 1)).getLast? = some second ∧
      ((activeAfter {} 0 {} past).updatesOf uri later).length =
        ((activeAfter {} 0 {} past).underway uri (.queue 1)).length ∧
      ((activeAfter {} 0 {} past).run later).workspace.store.get? uri = some second := by
  intro uri second past later
  have hseen : ((activeAfter {} 0 {} past).underway uri (.queue 1)).getLast? = some second ∧
      ((activeAfter {} 0 {} past).updatesOf uri later).length =
        ((activeAfter {} 0 {} past).underway uri (.queue 1)).length ∧
      (activeAfter {} 0 {} past).attempts.length = 1 ∧
      (activeAfter {} 0 {} past).calls.length = 2 ∧
      ∀ k < 2, (activeAfter {} 0 {} past).underway uri (.reply k) = [] := by decide +kernel
  obtain ⟨hlast, happlied, hattempts, hcalls, hreplies⟩ := hseen
  have halone : ∀ other, other ≠ .queue 1 → (activeAfter {} 0 {} past).underway uri other = [] := by
    rintro (g | k) hother
    · refine underway_queue_eq_nil ?_
      have hg : g ≠ 1 := fun hg => hother (hg ▸ rfl)
      unfold attempt?
      split
      · rfl
      · exact List.getElem?_eq_none (by omega)
    · by_cases hk : k < 2
      · exact hreplies k hk
      · exact underway_reply_eq_nil (List.getElem?_eq_none (by omega))
  have hitself : ∀ event ∈ later, ∀ g action, event ≠ .connection g action := by simp [later]
  have hnone : ∀ other, ∀ entering ∈ (activeAfter {} 0 {} past).entered other later,
      entering.uri ≠ uri := by
    intro other entering hentering
    rw [entered_eq_nil hitself] at hentering
    cases hentering
  exact ⟨hlast, happlied,
    latest_update_is_held {} 0 {} past later uri (.queue 1) second hlast halone hnone happlied⟩

/-- The reply of a call brings a file, and then a notification brings one of the same uri.  The two
are on different ways, so the file that came first is held when the call goes on behind the pump. -/
theorem overtaken_reply_is_held :
    let uri := "v:1"
    let reply : VirtualFile := ⟨uri, "reply", "m1"⟩
    let note : VirtualFile := ⟨uri, "note", "m2"⟩
    let before := activeAfter {} 0 {} (queried ++ [.connection 1 (.receive
      (Frame.encode (fileReply reply) ++ Frame.encode (fileNote note))), .connection 1 .read])
    let between := before.run [.connection 1 .handle, .connection 1 .read]
    let c := between.step (.connection 1 .handle)
    before.status = ⟨1, .ready⟩ ∧
      before.entering (.connection 1 .handle) (.reply 1) = [reply] ∧
      between.entering (.connection 1 .handle) (.queue 1) = [note] ∧
      c.updatesOf uri [.poll 1, .pump 1] = [reply, note] ∧
      (c.run [.poll 1, .pump 1]).workspace.store.get? uri = some note ∧
      c.updatesOf uri [.pump 1, .poll 1] = [note, reply] ∧
      (c.run [.pump 1, .poll 1]).workspace.store.get? uri = some reply := by
  decide +kernel

end Client
end LanguageClient
