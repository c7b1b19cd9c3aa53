import LanguageClient.Client.Step
import LanguageClient.Text.Blank
import Mathlib.Logic.Relation

/-!
# The service of a client

What a client does for its host is its service: the hooks, the handlers of the notifications, the
virtual files and the journal.  It is open as soon as the pump of a session delivers.  Whatever the
client does of itself are a few moves of the service; only what a server sends can bring about
anything else.

* `Reaction`, `Router.reaction?` — what the handler of a notification sets off.
* `Router.Binds`, `Router.IsBounded` — handlers that are bound as wiring binds them, and no others.
* `Service`, `Service.Move`, `Client.service` — the view, and what the client does of itself.
* `Client.ServiceMoves` — one client comes of another by moves of the service.
* `service_deliver` — a delivery is the reaction of the handler.
* `serviceMoves_runHooks`, `binds_runHooks` — a session that becomes ready has the hooks run, and the
  handlers are bound when wiring is the first hook.
* **`Service.journal_moves`** — of itself a client delivers nothing and opens no address, and it tells
  the host of every loss that it publishes.
-/

namespace LanguageClient

/-! ### Reactions -/

/-- What a handler sets off. -/
inductive Reaction where
  /-- An address is opened. -/
  | opens (url : String)
  /-- A virtual file is kept in the place of the one with its uri. -/
  | keeps (file : VirtualFile)
  /-- A line is added to the output channel. -/
  | adds (line : String)
  /-- Parameters are noted. -/
  | notes (tag : String) (params : Json)

namespace Reaction

/-- The entry that a reaction leaves in the journal. -/
def entry? : Reaction → Option Entry
  | opens url => some (.called (.openExternal url))
  | keeps _ => none
  | adds line => some (.called (.appendOutput line))
  | notes tag params => some (.observed tag params)

/-- The virtual file that a reaction keeps. -/
def file? : Reaction → Option VirtualFile
  | keeps file => some file
  | _ => none

end Reaction

/-- What parameters set off in a handler. -/
def Handler.reaction? (params : Json) : Handler → Option Reaction
  | openWebsite => (OpenWebsite.url? params).join.map .opens
  | showVirtualFile => (VirtualFileUpdate.ofJson? params).map fun update =>
      .keeps ⟨update.uri, update.content, update.sourceMap⟩
  | message => (LogEntry.ofJson? params).map fun entry => .adds entry.line
  | observe tag => some (.notes tag params)

namespace Router

/-- What a notification sets off. -/
def reaction? (router : Router Handler) (message : Notification) : Option Reaction :=
  (router.find? message.method).bind (Handler.reaction? message.params)

/-- The handler that wiring binds to a method. -/
def wired? (method : String) : Option Handler :=
  if method = Method.openWebsite then some .openWebsite
  else if method = Method.showVirtualFile then some .showVirtualFile
  else if method = Method.logMessage ∨ method = Method.showMessage then some .message
  else none

/-- The handlers after wiring. -/
def wire (router : Router Handler) : Router Handler :=
  (((router.register Method.openWebsite .openWebsite).register Method.showVirtualFile
    .showVirtualFile).register Method.logMessage .message).register Method.showMessage .message

/-- Every handler that wiring binds is bound. -/
def Binds (router : Router Handler) : Prop :=
  ∀ (method : String) (handler : Handler), wired? method = some handler →
    router.find? method = some handler

/-- No other handler is bound. -/
def IsBounded (router : Router Handler) : Prop :=
  ∀ (method : String) (handler : Handler), router.find? method = some handler →
    wired? method = some handler

/-- What is taken out for one method is not what is looked for under another. -/
theorem lookup_filter_of_ne {α : Type} {method other : String} (h : other ≠ method)
    (entries : List (String × α)) :
    (entries.filter fun entry => entry.1 ≠ method).lookup other = entries.lookup other := by
  induction entries with
  | nil => rfl
  | cons entry rest ih =>
      obtain ⟨name, handler⟩ := entry
      by_cases hname : name = method
      · rw [List.filter_cons_of_neg (by simpa using hname), ih, List.lookup_cons,
          beq_false_of_ne (by rwa [hname])]
      · rw [List.filter_cons_of_pos (by simpa using hname), List.lookup_cons, List.lookup_cons, ih]

theorem find?_register {α : Type} (router : Router α) (method : String) (handler : α)
    (other : String) : (router.register method handler).find? other =
      if other = method then some handler else router.find? other := by
  unfold register find?
  rw [List.lookup_cons]
  by_cases hsame : other = method
  · simp [hsame]
  · rw [if_neg hsame, beq_false_of_ne hsame]
    exact lookup_filter_of_ne hsame router.entries

theorem find?_wire (router : Router Handler) (method : String) :
    router.wire.find? method = (wired? method).or (router.find? method) := by
  -- The four methods differ, so the order in which they are bound does not matter.
  have hdiffer : [Method.openWebsite, Method.showVirtualFile, Method.logMessage,
      Method.showMessage].Nodup := by decide
  unfold wire wired?
  simp only [find?_register]
  grind

theorem binds_wire (router : Router Handler) : router.wire.Binds := by
  intro method handler h
  rw [find?_wire, h, Option.some_or]

theorem isBounded_wire {router : Router Handler} (h : router.IsBounded) :
    router.wire.IsBounded := by
  intro method handler hfind
  rw [find?_wire] at hfind
  cases hwired : wired? method with
  | some wired => rwa [hwired, Option.some_or] at hfind
  | none =>
      rw [hwired, Option.none_or] at hfind
      rw [← hwired]
      exact h method handler hfind

end Router

/-! ### Entries that tell of a loss -/

/-- How the line begins that tells the host of a session that has failed. -/
def lossPrefix : String := "[Error] Language server failed: "

namespace Entry

/-- Whether an entry adds a line that tells of a failed session. -/
def tellsLoss : Entry → Bool
  | called (.appendOutput line) => Text.beginsWith lossPrefix line
  | _ => false

/-- Whether an entry publishes that a session has failed. -/
def isLoss : Entry → Bool
  | published status => status.state = .failed
  | _ => false

/-- The notification that an entry delivers, with the generation of its session. -/
def delivery? : Entry → Option (Nat × Notification)
  | delivered g message => some (g, message)
  | _ => none

/-- The address that an entry has opened in the host. -/
def opened? : Entry → Option String
  | called (.openExternal url) => some url
  | _ => none

/-- Whether an entry has nothing to do with losses, deliveries and addresses. -/
def isNeutral (entry : Entry) : Bool :=
  !entry.tellsLoss && !entry.isLoss && entry.delivery?.isNone && entry.opened?.isNone

theorem isNeutral_appendOutput {line : String} (h : Text.beginsWith lossPrefix line = false) :
    (called (.appendOutput line)).isNeutral := by
  rw [isNeutral, tellsLoss, h]
  rfl

theorem beginsWith_lossPrefix (reason : String) :
    Text.beginsWith lossPrefix ("[Error] Language server failed: " ++ reason) := by
  simp [Text.beginsWith, lossPrefix]

end Entry

/-! ### The view -/

/-- Puts a virtual file in its place. -/
def VirtualStore.keep (store : VirtualStore) (file : VirtualFile) : VirtualStore :=
  store.set file.uri file.content file.sourceMap

/-- What a client does for its host. -/
structure Service where
  hooks : List Hook
  router : Router Handler
  store : VirtualStore
  /-- Whether the pump of some session delivers. -/
  isOpen : Bool
  journal : List Entry

namespace Service

def note (s : Service) (entry : Entry) : Service := { s with journal := s.journal ++ [entry] }

def keep (s : Service) (file : VirtualFile) : Service := { s with store := s.store.keep file }

/-- What a handler sets off. -/
def react (s : Service) (reaction : Reaction) : Service :=
  { s with
    store := reaction.file?.elim s.store s.store.keep
    journal := s.journal ++ reaction.entry?.toList }

/-- A notification is delivered. -/
def receive (s : Service) (g : Nat) (message : Notification) : Service :=
  (s.router.reaction? message).elim (s.note (.delivered g message))
    (s.note (.delivered g message)).react

/-- A notification brings about what its handler sets off. -/
theorem receive_eq (s : Service) (g : Nat) (message : Notification) : s.receive g message =
    { s with
      store := ((s.router.reaction? message).bind Reaction.file?).elim s.store s.store.keep
      journal := s.journal ++ .delivered g message ::
        ((s.router.reaction? message).bind Reaction.entry?).toList } := by
  unfold receive
  cases s.router.reaction? message <;> simp [note, react]

/-- What a client does of itself. -/
inductive Move (s : Service) : Service → Prop
  /-- Pumps come to an end. -/
  | rest (isOpen : Bool) (h : isOpen → s.isOpen) : Move s { s with isOpen }
  /-- Something is noted. -/
  | note (entry : Entry) (h : entry.isNeutral) : Move s (s.note entry)
  /-- A session fails; that is published, and the host is told. -/
  | fail (g : Nat) (error : SessionError) :
      Move s ((s.note (.published ⟨g, .failed⟩)).note
        (.called (.appendOutput ("[Error] Language server failed: " ++ error.message))))
  /-- A hook is added. -/
  | enroll (hook : Hook) : Move s { s with hooks := s.hooks ++ [hook] }
  /-- The handlers are bound. -/
  | wire : Move s { s with router := s.router.wire }
  /-- The pump of a session begins to deliver; the hooks have run for it. -/
  | arm (h : s.hooks.head? = some .wire → s.router.Binds) : Move s { s with isOpen := true }

/-- Several moves. -/
def Moves (s t : Service) : Prop := Relation.ReflTransGen Move s t

end Service

namespace Client

/-- The service of a client. -/
def service (c : Client) : Service :=
  ⟨c.hooks, c.workspace.router, c.workspace.store, c.attempts.any fun a => a.pump = .armed,
    c.journal⟩

/-- One client comes of another by moves of the service. -/
def ServiceMoves (c d : Client) : Prop := c.service.Moves d.service

variable {c d e : Client} {g : Nat}

theorem serviceMoves_of_service (h : d.service = c.service) : c.ServiceMoves d := by
  unfold ServiceMoves
  rw [h]
  exact .refl

theorem serviceMoves_refl (c : Client) : c.ServiceMoves c := serviceMoves_of_service rfl

theorem serviceMoves_of_move (h : c.service.Move d.service) : c.ServiceMoves d := .single h

theorem ServiceMoves.trans (h : c.ServiceMoves d) (h' : d.ServiceMoves e) :
    c.ServiceMoves e := Relation.ReflTransGen.trans h h'

/-! ### Attempts -/

/-- A change of one attempt shows only in whether a pump delivers. -/
theorem service_updateAttempt (c : Client) (g : Nat) (f : Attempt → Attempt) :
    (c.updateAttempt g f).service =
      { c.service with isOpen := (c.updateAttempt g f).service.isOpen } := by
  unfold updateAttempt
  split <;> rfl

/-- The pump of a session begins to deliver when the hooks have run. -/
theorem serviceMoves_arm (h : c.hooks.head? = some .wire → c.workspace.router.Binds) :
    c.ServiceMoves (c.setPump g .armed) := by
  have harmed : c.service.Moves { c.service with isOpen := true } := .single (.arm h)
  unfold ServiceMoves setPump
  rw [service_updateAttempt]
  exact harmed.tail (.rest _ fun _ => rfl)

/-! ### Calls of the host -/

theorem serviceMoves_note {entry : Entry} (h : entry.isNeutral) : c.ServiceMoves (c.note entry) :=
  serviceMoves_of_move (.note entry h)

theorem serviceMoves_publish (c : Client) (g : Nat) (state : SessionState) (h : state ≠ .failed) :
    c.ServiceMoves (c.publish g state) :=
  serviceMoves_note (by simp [Entry.isNeutral, Entry.tellsLoss, Entry.isLoss, Entry.delivery?,
    Entry.opened?, h])

theorem serviceMoves_reportFailure (c : Client) (g : Nat) (error : SessionError) :
    c.ServiceMoves (c.reportFailure g error) :=
  serviceMoves_of_move (.fail g error)

/-! ### Notifications -/

theorem service_handle (c : Client) (params : Json) (handler : Handler) :
    (c.handle params handler).service = (handler.reaction? params).elim c.service c.service.react := by
  have hsay : ∀ line, (c.say line).service = c.service.note (.called line) := fun _ => rfl
  cases handler with
  | openWebsite =>
      rw [handle, Handler.reaction?]
      rcases OpenWebsite.url? params with _ | _ | url
      · rfl
      · rfl
      · exact hsay _
  | showVirtualFile =>
      rw [handle, Handler.reaction?]
      cases VirtualFileUpdate.ofJson? params with
      | none => rfl
      | some update => simp [service, setFile, Service.react, Reaction.file?, Reaction.entry?,
          VirtualStore.keep]
  | message =>
      rw [handle, Handler.reaction?]
      cases LogEntry.ofJson? params with
      | none => rfl
      | some entry => exact hsay _
  | observe tag => rfl

/-- A delivery is the reaction of the handler of the method. -/
theorem service_deliver (c : Client) (message : Notification) : (c.deliver message).service =
    (c.workspace.router.reaction? message).elim c.service c.service.react := by
  unfold deliver Router.reaction?
  cases c.workspace.router.find? message.method with
  | none => rfl
  | some handler => exact service_handle c message.params handler

/-! ### Commands and hooks -/

theorem service_registerCommand (c : Client) (id : String) (action : CommandAction) :
    (c.registerCommand id action).service = c.service := by
  unfold registerCommand
  split <;> rfl

theorem service_registerSessionCommands (c : Client) :
    c.registerSessionCommands.service = c.service := by
  unfold registerSessionCommands
  split
  · rfl
  · simp only [service_registerCommand]
    rfl

theorem service_wire (c : Client) : c.wire.service = { c.service with
    router := c.workspace.router.wire }.note
      (.called (.setLanguageConfiguration languageId wordPattern)) := by
  rw [wire, service_registerSessionCommands]
  rfl

theorem serviceMoves_wire (c : Client) : c.ServiceMoves c.wire := by
  refine (Relation.ReflTransGen.single .wire).tail ?_
  rw [service_wire]
  exact .note _ rfl

theorem serviceMoves_enroll (c : Client) (hook : Hook) :
    c.ServiceMoves { c with hooks := c.hooks ++ [hook] } := serviceMoves_of_move (.enroll hook)

theorem serviceMoves_runHook (c : Client) (g place : Nat) (hook : Hook) :
    c.ServiceMoves (runHook g place hook c) := by
  have hnote : ∀ (c : Client) (g place : Nat), c.ServiceMoves (c.note (.setOff place g)) :=
    fun c _ _ => serviceMoves_note rfl
  induction hook generalizing c g place with
  | observe tag => exact (hnote c g place).trans (serviceMoves_note rfl)
  | wire => exact (hnote c g place).trans (serviceMoves_wire _)
  | enroll hook ih =>
      refine ((hnote c g place).trans (serviceMoves_enroll _ hook)).trans ?_
      rw [runHook]
      split
      · exact ih _ _ _
      · exact serviceMoves_refl _

/-- A hook is added, and then it may run. -/
theorem serviceMoves_onReady_of_enroll (c : Client) (hook : Hook) :
    ({ c with hooks := c.hooks ++ [hook] } : Client).ServiceMoves (c.onReady hook) := by
  unfold onReady
  dsimp only
  split
  · exact serviceMoves_runHook _ _ _ hook
  · exact serviceMoves_refl _

theorem serviceMoves_onReady (c : Client) (hook : Hook) : c.ServiceMoves (c.onReady hook) :=
  (serviceMoves_enroll c hook).trans (serviceMoves_onReady_of_enroll c hook)

theorem serviceMoves_foldl_runHook (c : Client) (g : Nat) (entries : List (Hook × Nat)) :
    c.ServiceMoves (entries.foldl (fun c entry => runHook g entry.2 entry.1 c) c) := by
  induction entries generalizing c with
  | nil => exact serviceMoves_refl c
  | cons entry rest ih => exact (serviceMoves_runHook c g entry.2 entry.1).trans (ih _)

/-- A session that becomes ready has the hooks run. -/
theorem serviceMoves_runHooks (c : Client) (g : Nat) : c.ServiceMoves (c.runHooks g) :=
  serviceMoves_foldl_runHook c g _

end Client

/-! ### What every move keeps -/

namespace Service

variable {s t : Service}

/-- What every move keeps is kept by several. -/
theorem moves_keep {P : Service → Prop} (hmove : ∀ s t : Service, P s → s.Move t → P t)
    (h : s.Moves t) (hs : P s) : P t := by
  induction h with
  | refl => exact hs
  | tail _ hlast ih => exact hmove _ _ ih hlast

theorem binds_moves (h : s.Moves t) (hs : s.router.Binds) : t.router.Binds := by
  refine moves_keep (P := fun s => s.router.Binds) ?_ h hs
  intro s t hs h
  cases h with
  | wire => exact s.router.binds_wire
  | _ => exact hs

theorem store_moves (h : s.Moves t) : t.store = s.store := by
  refine moves_keep (P := fun t => t.store = s.store) ?_ h rfl
  intro s t hs h
  cases h <;> exact hs

theorem isBounded_moves (h : s.Moves t) (hs : s.router.IsBounded) : t.router.IsBounded := by
  refine moves_keep (P := fun s => s.router.IsBounded) ?_ h hs
  intro s t hs h
  cases h with
  | wire => exact Router.isBounded_wire hs
  | _ => exact hs

/-- Of itself a client delivers nothing and opens no address, and every loss that it publishes is
told to the host. -/
structure ComesOfItself (new : List Entry) : Prop where
  delivers : ∀ entry ∈ new, entry.delivery? = none
  opens : ∀ entry ∈ new, entry.opened? = none
  losses : new.countP Entry.tellsLoss = new.countP Entry.isLoss

theorem comesOfItself_nil : ComesOfItself [] := ⟨by simp, by simp, rfl⟩

theorem comesOfItself_append {new more : List Entry} (h : ComesOfItself new)
    (h' : ComesOfItself more) : ComesOfItself (new ++ more) where
  delivers := List.forall_mem_append.mpr ⟨h.delivers, h'.delivers⟩
  opens := List.forall_mem_append.mpr ⟨h.opens, h'.opens⟩
  losses := by rw [List.countP_append, List.countP_append, h.losses, h'.losses]

theorem comesOfItself_of_isNeutral {entry : Entry} (h : entry.isNeutral) : ComesOfItself [entry] := by
  simp only [Entry.isNeutral, Bool.and_eq_true, Bool.not_eq_true', Option.isNone_iff_eq_none] at h
  obtain ⟨⟨⟨htells, hloss⟩, hdelivery⟩, hopened⟩ := h
  refine ⟨by simpa using hdelivery, by simpa using hopened, ?_⟩
  simp [htells, hloss]

theorem comesOfItself_fail (g : Nat) (error : SessionError) : ComesOfItself [.published ⟨g, .failed⟩,
    .called (.appendOutput ("[Error] Language server failed: " ++ error.message))] := by
  refine ⟨by simp [Entry.delivery?], by simp [Entry.opened?], ?_⟩
  simp [Entry.beginsWith_lossPrefix, Entry.isLoss, Entry.tellsLoss]

theorem journal_moves (h : s.Moves t) : ∃ new, t.journal = s.journal ++ new ∧ ComesOfItself new := by
  refine moves_keep (P := fun t => ∃ new, t.journal = s.journal ++ new ∧ ComesOfItself new) ?_ h
    ⟨[], by simp, comesOfItself_nil⟩
  rintro c t ⟨new, hjournal, hitself⟩ h
  cases h with
  | note entry hplain =>
      refine ⟨new ++ [entry], ?_, comesOfItself_append hitself (comesOfItself_of_isNeutral hplain)⟩
      rw [note, hjournal, List.append_assoc]
  | fail g error =>
      refine ⟨new ++ _, ?_, comesOfItself_append hitself (comesOfItself_fail g error)⟩
      simp [note, hjournal]
  | _ => exact ⟨new, hjournal, hitself⟩

/-- The first hook stays the first one. -/
theorem head?_moves (h : s.Moves t) {hook : Hook} (hs : s.hooks.head? = some hook) :
    t.hooks.head? = some hook := by
  refine moves_keep (P := fun s => s.hooks.head? = some hook) ?_ h hs
  intro s t hs h
  cases h with
  | enroll other => rw [List.head?_append, hs, Option.some_or]
  | _ => exact hs

end Service

namespace Client

/-- When wiring is the first hook, the handlers are bound after the hooks have run. -/
theorem binds_runHooks {c : Client} {g : Nat} (h : (c.runHooks g).hooks.head? = some .wire) :
    (c.runHooks g).workspace.router.Binds := by
  obtain ⟨rest, hhooks⟩ : ∃ rest, c.hooks = .wire :: rest := by
    cases hhooks : c.hooks with
    | nil =>
        rw [runHooks, hhooks, List.zipIdx_nil, List.foldl_nil, hhooks] at h
        cases h
    | cons first rest =>
        have hfirst : (c.runHooks g).hooks.head? = some first :=
          Service.head?_moves (serviceMoves_runHooks c g) (by rw [service, hhooks, List.head?_cons])
        rw [hfirst, Option.some.injEq] at h
        exact ⟨rest, by rw [h]⟩
  unfold runHooks
  rw [hhooks, List.zipIdx_cons, List.foldl_cons]
  refine Service.binds_moves (serviceMoves_foldl_runHook _ g _) ?_
  have hwire : (runHook g 0 .wire c).service.router = c.workspace.router.wire := by
    rw [runHook, service_wire]
    rfl
  rw [hwire]
  exact Router.binds_wire _

end Client

end LanguageClient
