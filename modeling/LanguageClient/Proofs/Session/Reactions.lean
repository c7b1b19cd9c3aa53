import LanguageClient.Proofs.Session.ServiceStep
import Mathlib.Data.List.Induction

/-!
# What notifications bring about

The router reads every notification by itself: it binds the handlers anew for every session that
becomes ready, and a handler drops parameters that it cannot read.  So after any run the virtual
files and the host are what the notifications delivered have made of them one after the other, and a
notification that is unknown or malformed makes nothing of them.

* `Notification.reaction?` — what a notification asks for, read off its method and its parameters.
* `Service.FindsHandlers` — whatever is delivered finds the handlers bound as wiring binds them.
* `VirtualStore.get?_foldl_keep` — of several updates the last one of a uri counts.
* `ServerInput.reaction?`, `Client.serverInputs`, `Client.updates` — what the events of a run bring
  about.
* **`Service.reacts_step`** — an event brings about what it brings, and no more.
* **`Client.notifications_are_folded`** — for every run of a client that is activated first.
-/

namespace LanguageClient

/-! ### What notifications ask for -/

/-- The address among parameters: a text, or the first one of an array of texts. -/
def Json.firstText? : Json → Option String
  | .str url => some url
  | .arr (.str url :: others) => if others.all (·.asString?.isSome) then some url else none
  | _ => none

/-- What a notification asks for.  Other methods ask for nothing, and neither do parameters that
cannot be read. -/
def Notification.reaction? (message : Notification) : Option Reaction :=
  if message.method = Method.openWebsite then message.params.firstText?.map .opens
  else if message.method = Method.showVirtualFile then
    (VirtualFileUpdate.ofJson? message.params).map fun update =>
      .keeps ⟨update.uri?.getD defaultVirtualUri, update.content, update.sourceMap⟩
  else if message.method = Method.logMessage ∨ message.method = Method.showMessage then
    (LogEntry.ofJson? message.params).map fun entry =>
      .adds ("[" ++ levelLabel entry.level ++ "] " ++ entry.message)
  else none

/-- Texts are read off an array when all its items are texts. -/
theorem isSome_mapM_asString? (items : List Json) :
    (items.mapM Json.asString?).isSome = items.all (·.asString?.isSome) := by
  induction items with
  | nil => rfl
  | cons item rest ih =>
      rw [List.mapM_cons, List.all_cons, ← ih]
      cases item.asString? <;> cases rest.mapM Json.asString? <;> rfl

theorem join_url? (params : Json) : (OpenWebsite.url? params).join = params.firstText? := by
  cases params with
  | arr items =>
      cases items with
      | nil => rfl
      | cons first others =>
          have hall := isSome_mapM_asString? others
          cases first with
          | str url =>
              rw [Json.firstText?, ← hall]
              cases hothers : others.mapM Json.asString? <;>
                simp [OpenWebsite.url?, Json.asString?, Json.asStrings?, List.mapM_cons, hothers]
          | _ => simp [OpenWebsite.url?, Json.asString?, Json.asStrings?, Json.firstText?,
              List.mapM_cons]
  | _ => rfl

namespace Router

variable {router : Router Handler}

theorem find?_eq_wired? (hbinds : router.Binds) (hbounded : router.IsBounded) (method : String) :
    router.find? method = wired? method := by
  cases hfind : router.find? method with
  | some handler => exact (hbounded method handler hfind).symm
  | none =>
      cases hwired : wired? method with
      | none => rfl
      | some handler =>
          rw [hbinds method handler hwired] at hfind
          cases hfind

/-- Handlers that are bound as wiring binds them do what notifications ask for. -/
theorem reaction?_eq (hbinds : router.Binds) (hbounded : router.IsBounded)
    (message : Notification) : router.reaction? message = message.reaction? := by
  rw [reaction?, find?_eq_wired? hbinds hbounded, wired?, Notification.reaction?]
  repeat' split
  · rw [Option.bind_some, Handler.reaction?, join_url?]
  · rfl
  · rfl
  · rfl

end Router

/-! ### The virtual files -/

namespace VirtualStore

theorem find?_replaceIn (file : VirtualFile) (files : List VirtualFile) (uri : String) :
    ((replaceIn file files).find? fun other => other.uri = uri) =
      if file.uri = uri then some file else files.find? fun other => other.uri = uri := by
  induction files with
  | nil => by_cases huri : file.uri = uri <;> simp [replaceIn, huri]
  | cons other rest ih =>
      unfold replaceIn
      by_cases hsame : other.uri = file.uri <;> by_cases huri : file.uri = uri <;>
        by_cases hother : other.uri = uri <;> simp_all

theorem get?_keep (store : VirtualStore) (file : VirtualFile) (uri : String) :
    (store.keep file).get? uri = if file.uri = uri then some file else store.get? uri :=
  find?_replaceIn file store.files uri

/-- Of several updates the last one of a uri counts. -/
theorem get?_foldl_keep (store : VirtualStore) (files : List VirtualFile) (uri : String) :
    (files.foldl keep store).get? uri =
      ((files.filter fun file => file.uri = uri).getLast?).or (store.get? uri) := by
  induction files using List.reverseRecOn with
  | nil => rfl
  | append_singleton files file ih =>
      rw [List.foldl_append, List.foldl_cons, List.foldl_nil, get?_keep, ih, List.filter_append]
      by_cases huri : file.uri = uri <;> simp [huri]

end VirtualStore

/-! ### Deliveries find their handlers -/

namespace Service

variable {s t : Service} {serverInput : ServerInput}

/-- Whatever is delivered finds the handlers bound as wiring binds them. -/
structure FindsHandlers (s : Service) : Prop where
  bounded : s.router.IsBounded
  binds : s.isOpen → s.router.Binds

/-- Wiring is the first hook, so that every session that becomes ready has the handlers bound. -/
structure IsWired (s : Service) : Prop extends s.FindsHandlers where
  first : s.hooks.head? = some .wire

theorem isWired_moves (h : s.Moves t) (hs : s.IsWired) : t.IsWired := by
  refine moves_keep ?_ h hs
  intro s t hs h
  have hfirst := head?_moves (.single h) hs.first
  have hbounded := isBounded_moves (.single h) hs.bounded
  refine ⟨⟨hbounded, ?_⟩, hfirst⟩
  cases h with
  | rest isOpen hopen => exact fun h => hs.binds (hopen h)
  | wire => exact fun _ => s.router.binds_wire
  | arm hbinds => exact fun _ => hbinds hs.first
  | _ => exact hs.binds

theorem isWired_step (h : s.Step serverInput t) (hs : s.IsWired) : t.IsWired := by
  cases h with
  | works h => exact isWired_moves h hs
  | hands line h => exact isWired_moves h ⟨⟨hs.bounded, hs.binds⟩, hs.first⟩
  | keeps file h => exact isWired_moves h ⟨⟨hs.bounded, hs.binds⟩, hs.first⟩
  | receives g message hopen isOpen =>
      have hbinds := hs.binds hopen
      unfold receive
      cases s.router.reaction? message <;> exact ⟨⟨hs.bounded, fun _ => hbinds⟩, hs.first⟩

end Service

/-! ### What an event brings about -/

namespace Reaction

/-- The address that a reaction opens. -/
def url? : Reaction → Option String
  | opens url => some url
  | _ => none

end Reaction

namespace ServerInput

/-- What an event asks for by what it brings. -/
def reaction? : ServerInput → Option Reaction
  | nothing => none
  | line text => some (.adds text)
  | file update => some (.keeps update)
  | notification _ message => message.reaction?

/-- The virtual file that an event brings. -/
def file? (serverInput : ServerInput) : Option VirtualFile :=
  serverInput.reaction?.bind Reaction.file?

/-- The address that an event opens. -/
def url? (serverInput : ServerInput) : Option String := serverInput.reaction?.bind Reaction.url?

/-- The notification that an event delivers, with the generation of its session. -/
def delivery? : ServerInput → Option (Nat × Notification)
  | notification g message => some (g, message)
  | _ => none

end ServerInput

namespace Service

variable {s t : Service} {serverInput : ServerInput}

/-- The notifications that were delivered, each with the generation of its session. -/
def deliveries (s : Service) : List (Nat × Notification) := s.journal.filterMap Entry.delivery?

/-- The addresses that were opened. -/
def opened (s : Service) : List String := s.journal.filterMap Entry.opened?

/-- An event brings about what it brings, and no more. -/
structure Reacts (s : Service) (serverInput : ServerInput) (t : Service) : Prop where
  deliveries : t.deliveries = s.deliveries ++ serverInput.delivery?.toList
  opened : t.opened = s.opened ++ serverInput.url?.toList
  store : t.store = serverInput.file?.elim s.store s.store.keep
  /-- In an event that delivers a notification nothing else can be seen. -/
  journal : ∀ (g : Nat) (message : Notification), serverInput = .notification g message →
    t.journal = s.journal ++ .delivered g message :: (message.reaction?.bind Reaction.entry?).toList

/-- What a client does of itself shows neither among the deliveries nor among the addresses. -/
theorem deliveries_moves (h : s.Moves t) : t.deliveries = s.deliveries := by
  obtain ⟨new, hjournal, hitself⟩ := journal_moves h
  rw [deliveries, hjournal, List.filterMap_append,
    List.filterMap_eq_nil_iff.mpr hitself.delivers, List.append_nil, deliveries]

theorem opened_moves (h : s.Moves t) : t.opened = s.opened := by
  obtain ⟨new, hjournal, hitself⟩ := journal_moves h
  rw [opened, hjournal, List.filterMap_append, List.filterMap_eq_nil_iff.mpr hitself.opens,
    List.append_nil, opened]

/-- What a client does of itself adds nothing to what an event brings about. -/
theorem Reacts.moves {m : Service} (h : s.Reacts serverInput m) (hd : m.Moves t)
    (hno : ∀ g message, serverInput ≠ .notification g message) : s.Reacts serverInput t where
  deliveries := by rw [deliveries_moves hd, h.deliveries]
  opened := by rw [opened_moves hd, h.opened]
  store := by rw [store_moves hd, h.store]
  journal g message heq := absurd heq (hno g message)

theorem reacts_nothing (s : Service) : s.Reacts .nothing s :=
  ⟨by simp [ServerInput.delivery?], by simp [ServerInput.url?, ServerInput.reaction?], rfl, nofun⟩

theorem reacts_line (s : Service) (line : String) :
    s.Reacts (.line line) (s.note (.called (.appendOutput line))) := by
  refine ⟨?_, ?_, rfl, nofun⟩
  · simp [deliveries, note, ServerInput.delivery?, Entry.delivery?]
  · simp [opened, note, ServerInput.url?, ServerInput.reaction?, Entry.opened?, Reaction.url?]

theorem reacts_file (s : Service) (file : VirtualFile) : s.Reacts (.file file) (s.keep file) := by
  refine ⟨?_, ?_, rfl, nofun⟩
  · simp [deliveries, keep, ServerInput.delivery?]
  · simp [opened, keep, ServerInput.url?, ServerInput.reaction?, Reaction.url?]

theorem reacts_receive {g : Nat} {message : Notification}
    (h : s.router.reaction? message = message.reaction?) (isOpen : Bool) :
    s.Reacts (.notification g message) { s.receive g message with isOpen } := by
  rw [receive_eq, h]
  refine ⟨?_, ?_, rfl, ?_⟩
  · rw [deliveries, List.filterMap_append, ServerInput.delivery?, deliveries]
    rcases message.reaction? with _ | _ | _ | _ | _ <;> rfl
  · rw [opened, List.filterMap_append, ServerInput.url?, ServerInput.reaction?, opened]
    rcases message.reaction? with _ | _ | _ | _ | _ <;> rfl
  · rintro g' message' heq
    cases heq
    rfl

/-- Where deliveries find their handlers, an event brings about what it brings. -/
theorem reacts_step (hs : s.FindsHandlers) (h : s.Step serverInput t) : s.Reacts serverInput t := by
  cases h with
  | works h => exact (reacts_nothing s).moves h nofun
  | hands line h => exact (reacts_line s line).moves h nofun
  | keeps file h => exact (reacts_file s file).moves h nofun
  | receives g message hopen isOpen =>
      exact reacts_receive (Router.reaction?_eq (hs.binds hopen) hs.bounded message) isOpen

end Service

namespace Client

variable {c : Client} {event : Event}

/-! ### The activation -/

theorem isWired_run (h : c.service.IsWired) (events : List Event) :
    (c.run events).service.IsWired := by
  induction events generalizing c with
  | nil => exact h
  | cons event rest ih => exact ih (Service.isWired_step (service_step c event) h)

/-- The activation of a client without hooks makes wiring the first one. -/
theorem isWired_activate (hhooks : c.hooks = []) (hfinds : c.service.FindsHandlers) (k : Nat) :
    (c.activate k).service.IsWired := by
  refine Service.isWired_moves (serves_activate c k) ⟨⟨hfinds.bounded, hfinds.binds⟩, ?_⟩
  rw [hhooks]
  rfl

/-- When a client without hooks is activated first, deliveries find their handlers after any
events. -/
theorem findsHandlers_of_activated {rest before after : List Event} (hhooks : c.hooks = [])
    (hfinds : c.service.FindsHandlers)
    (hinvoked : (c.step (.invoke .activate)).service = c.service)
    (hpoll : (c.step (.invoke .activate)).poll 0 = (c.step (.invoke .activate)).activate 0)
    (h : [.invoke .activate, .poll 0] ++ rest = before ++ after) :
    (c.run before).service.FindsHandlers := by
  match before with
  | [] => exact hfinds
  | [_] =>
      obtain ⟨rfl, -⟩ := List.cons_eq_cons.mp h
      exact hinvoked ▸ hfinds
  | _ :: _ :: more =>
      obtain ⟨rfl, hmore⟩ := List.cons_eq_cons.mp h
      obtain ⟨rfl, -⟩ := List.cons_eq_cons.mp hmore
      have hactivated : ((c.step (.invoke .activate)).poll 0).service.IsWired := by
        rw [hpoll]
        refine isWired_activate ((congrArg Service.hooks hinvoked).trans hhooks) ?_ 0
        rwa [hinvoked]
      have hwired := Service.isWired_moves (serviceMoves_tidy _) hactivated
      exact (isWired_run hwired more).toFindsHandlers

/-! ### Runs -/

/-- What the events of a run bring, one after the other. -/
def serverInputs (c : Client) : List Event → List ServerInput
  | [] => []
  | event :: rest => c.serverInput event :: (c.step event).serverInputs rest

/-- The virtual files that the events of a run bring. -/
def updates (c : Client) (events : List Event) : List VirtualFile :=
  (c.serverInputs events).filterMap ServerInput.file?

/-- What is seen after a run in which deliveries find their handlers. -/
theorem reacts_run {events : List Event}
    (h : ∀ before after, events = before ++ after → (c.run before).service.FindsHandlers) :
    (c.run events).service.deliveries =
        c.service.deliveries ++ (c.serverInputs events).filterMap ServerInput.delivery? ∧
      (c.run events).service.opened =
        c.service.opened ++ (c.serverInputs events).filterMap ServerInput.url? ∧
      (c.run events).service.store = (c.updates events).foldl VirtualStore.keep c.service.store := by
  induction events generalizing c with
  | nil => simp [run, serverInputs, updates]
  | cons event rest ih =>
      have hreacts : c.service.Reacts (c.serverInput event) (c.step event).service :=
        Service.reacts_step (h [] (event :: rest) rfl) (service_step c event)
      have hrest : ∀ before after, rest = before ++ after →
          ((c.step event).run before).service.FindsHandlers :=
        fun before after heq => h (event :: before) after (by rw [heq]; rfl)
      obtain ⟨hdeliveries, hopened, hstore⟩ := ih hrest
      rw [hreacts.deliveries] at hdeliveries
      rw [hreacts.opened] at hopened
      rw [hreacts.store] at hstore
      refine ⟨hdeliveries.trans ?_, hopened.trans ?_, hstore.trans ?_⟩
      · rw [serverInputs, List.filterMap_cons]
        cases (c.serverInput event).delivery? <;> simp
      · rw [serverInputs, List.filterMap_cons]
        cases (c.serverInput event).url? <;> simp
      · rw [updates, updates, serverInputs, List.filterMap_cons]
        cases (c.serverInput event).file? <;> rfl

/-- What notifications have brought about in a run. -/
structure FoldsNotifications (c : Client) (events : List Event) : Prop where
  /-- A notification that is delivered does what it asks for, and nothing else is seen then. -/
  delivered : ∀ (before after : List Event) (event : Event) (g : Nat) (message : Notification),
    events = before ++ event :: after → (c.run before).serverInput event = .notification g message →
      (c.run (before ++ [event])).journal = (c.run before).journal ++
        .delivered g message :: (message.reaction?.bind Reaction.entry?).toList ∧
      (c.run (before ++ [event])).workspace.store =
        (message.reaction?.bind Reaction.file?).elim (c.run before).workspace.store
          (c.run before).workspace.store.keep
  /-- Those notifications are all that is delivered, once each. -/
  deliveries : (c.run events).deliveries = (c.serverInputs events).filterMap ServerInput.delivery?
  /-- The addresses that the host opens are those of the notifications delivered. -/
  opened : (c.run events).service.opened =
    (c.run events).deliveries.filterMap fun delivery => delivery.2.reaction?.bind Reaction.url?
  /-- The virtual files are what the updates, by notifications and by replies, make of none. -/
  store : (c.run events).workspace.store = (c.updates events).foldl VirtualStore.keep {}
  /-- For every uri there is the file of the last update for it, and none for other uris. -/
  file : ∀ uri, (c.run events).workspace.store.get? uri =
    ((c.updates events).filter fun file => file.uri = uri).getLast?

/-- Where deliveries find their handlers, the notifications of a run are folded. -/
theorem folds_of_findsHandlers {events : List Event}
    (h : ∀ before after, events = before ++ after → (c.run before).service.FindsHandlers)
    (hjournal : c.journal = []) (hstore : c.workspace.store = {}) : c.FoldsNotifications events := by
  have hnone : c.service.deliveries = [] ∧ c.service.opened = [] := by
    unfold Service.deliveries Service.opened service
    rw [hjournal]
    exact ⟨rfl, rfl⟩
  obtain ⟨hdeliveries, hopened, hfiles⟩ := reacts_run h
  rw [hnone.1, List.nil_append] at hdeliveries
  rw [hnone.2, List.nil_append] at hopened
  have hfiles : (c.run events).workspace.store = (c.updates events).foldl VirtualStore.keep {} :=
    hstore ▸ hfiles
  -- The address of an event is that of the notification that it delivers.
  have hurl : ∀ serverInput : ServerInput, serverInput.url? =
      serverInput.delivery?.bind fun delivery => delivery.2.reaction?.bind Reaction.url? := by
    intro serverInput
    cases serverInput <;> rfl
  refine ⟨?_, hdeliveries, ?_, hfiles, ?_⟩
  · intro before after event g message heq hinput
    have hreacts := Service.reacts_step (h before _ heq) (service_step (c.run before) event)
    rw [hinput] at hreacts
    have hrun : c.run (before ++ [event]) = (c.run before).step event := by
      rw [run, List.foldl_append]
      rfl
    rw [hrun]
    exact ⟨hreacts.journal g message rfl, hreacts.store⟩
  · have hsame : (c.run events).deliveries =
        (c.serverInputs events).filterMap ServerInput.delivery? :=
      hdeliveries
    rw [hsame, hopened, funext hurl, List.filterMap_filterMap]
  · intro uri
    rw [hfiles, VirtualStore.get?_foldl_keep]
    exact Option.or_none

end Client

end LanguageClient
