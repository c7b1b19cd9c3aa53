import LanguageClient.Client.Step
import LanguageClient.Proofs.Connection.Transitions
import Mathlib.Data.List.Basic

/-!
# What hooks and pumps have to do with

Hooks and pumps have to do with a part of a client only: the statuses, the hooks in their places,
what was set off and delivered, and for every session the queue before its pump.  This is the
`Dispatch` of the client, and everything else that it does leaves it as it is.

* `PumpQueue`, `Dispatch`, `Client.dispatch` — the view.
* `Dispatch.enroll`, `Dispatch.BecomesReady` — hooks that are added, and a session that becomes ready.
* `Client.dispatch_updateAttempt` — a change of one attempt, seen at the queue of its pump.
* **`Client.dispatch_onReady`**, **`Client.becomesReady_runHooks`** — what running hooks does to it.
-/

namespace LanguageClient

/-! ### The view -/

/-- What the pump of a session has before it: whether it delivers, the notifications that wait, and
whether more can come. -/
structure PumpQueue where
  armed : Bool := false
  waiting : List Notification := []
  isOpen : Bool := true

namespace PumpQueue

def arm (d : PumpQueue) : PumpQueue := { d with armed := true }

def disarm (d : PumpQueue) : PumpQueue := { d with armed := false }

def close (d : PumpQueue) : PumpQueue := { d with isOpen := false }

/-- A notification comes and waits behind the others. -/
def put (message : Notification) (d : PumpQueue) : PumpQueue :=
  { d with waiting := d.waiting ++ [message] }

end PumpQueue

/-- The queue before the pump of an attempt. -/
def Attempt.pumpQueue (a : Attempt) : PumpQueue :=
  ⟨a.pump = .armed, a.connection.notifications, a.connection.isOpen⟩

/-- What the hooks and the pumps of a client have to do with. -/
structure Dispatch where
  published : List Status
  hooks : List Hook
  setOffs : List (Nat × Nat)
  deliveries : List (Nat × Notification)
  pumpQueues : List PumpQueue

namespace Dispatch

/-- Nothing has been seen yet. -/
def empty : Dispatch := ⟨[], [], [], [], []⟩

def status (s : Dispatch) : Status := s.published.getLastD {}

def pumpQueue? (s : Dispatch) (g : Nat) : Option PumpQueue :=
  if g = 0 then none else s.pumpQueues[g - 1]?

def updatePumpQueue (s : Dispatch) (g : Nat) (f : PumpQueue → PumpQueue) : Dispatch :=
  if g = 0 then s else { s with pumpQueues := s.pumpQueues.modify (g - 1) f }

def publish (s : Dispatch) (g : Nat) (state : SessionState) : Dispatch :=
  { s with published := s.published ++ [⟨g, state⟩] }

/-- A server is asked for, for a session of the next generation. -/
def launch (s : Dispatch) : Dispatch :=
  { s.publish (s.pumpQueues.length + 1) .starting with pumpQueues := s.pumpQueues ++ [{}] }

/-- Hooks are added; when a session is ready, they are set off for it, one after the other. -/
def enroll (s : Dispatch) (more : List Hook) : Dispatch :=
  { s with
    hooks := s.hooks ++ more
    setOffs := s.setOffs ++
      if s.status.isReady then
        (List.range' s.hooks.length more.length).map fun place => (place, s.status.generation)
      else [] }

/-- A session becomes ready: every hook is set off for it once, also those that the hooks enroll,
and then its pump delivers. -/
inductive BecomesReady (s : Dispatch) (g : Nat) : Dispatch → Prop
  | intro (more : List Hook) (places : List Nat)
      (h : places.Perm (List.range (s.hooks ++ more).length)) :
      BecomesReady s g
        ({ s.publish g .ready with
            hooks := s.hooks ++ more
            setOffs := s.setOffs ++ places.map fun place => (place, g) }.updatePumpQueue g .arm)

/-! ### Its parts -/

variable (s : Dispatch) (g : Nat) (f : PumpQueue → PumpQueue)

@[simp] theorem published_updatePumpQueue : (s.updatePumpQueue g f).published = s.published := by
  unfold updatePumpQueue
  split <;> rfl

@[simp] theorem status_updatePumpQueue : (s.updatePumpQueue g f).status = s.status := by
  rw [status, published_updatePumpQueue, status]

@[simp] theorem hooks_updatePumpQueue : (s.updatePumpQueue g f).hooks = s.hooks := by
  unfold updatePumpQueue
  split <;> rfl

@[simp] theorem setOffs_updatePumpQueue : (s.updatePumpQueue g f).setOffs = s.setOffs := by
  unfold updatePumpQueue
  split <;> rfl

@[simp] theorem deliveries_updatePumpQueue : (s.updatePumpQueue g f).deliveries = s.deliveries := by
  unfold updatePumpQueue
  split <;> rfl

@[simp] theorem status_publish (state : SessionState) :
    (s.publish g state).status = ⟨g, state⟩ := by
  simp [status, publish]

@[simp] theorem status_launch : s.launch.status = ⟨s.pumpQueues.length + 1, .starting⟩ :=
  status_publish s _ _

theorem pumpQueue?_updatePumpQueue (g' : Nat) :
    (s.updatePumpQueue g f).pumpQueue? g' =
      if g = g' then (s.pumpQueue? g').map f else s.pumpQueue? g' := by
  unfold updatePumpQueue pumpQueue?
  by_cases hg : g = 0
  · subst hg
    by_cases hg' : g' = 0 <;> simp [hg', eq_comm]
  · by_cases hg' : g' = 0
    · simp [hg', hg]
    · have hsame : g - 1 = g' - 1 ↔ g = g' := by omega
      rw [if_neg hg, if_neg hg', if_neg hg', List.getElem?_modify]
      by_cases heq : g = g' <;> simp [heq, hsame]

/-- The queue of a session that is launched is new and comes after the others. -/
theorem pumpQueue?_launch (g' : Nat) :
    s.launch.pumpQueue? g' = if g' = s.pumpQueues.length + 1 then some {} else s.pumpQueue? g' := by
  unfold launch pumpQueue?
  rw [List.getElem?_append]
  by_cases hg' : g' = 0
  · simp [hg']
  · by_cases hnew : g' = s.pumpQueues.length + 1
    · simp [hnew]
    · rw [if_neg hg', if_neg hnew, if_neg hg']
      split
      · rfl
      · rw [List.getElem?_eq_none (by rw [List.length_singleton]; omega),
          List.getElem?_eq_none (by omega)]

/-- Whether the pump delivered before makes no difference to a session that becomes ready. -/
theorem becomesReady_of_disarmed {s t : Dispatch} {g : Nat}
    (h : (s.updatePumpQueue g .disarm).BecomesReady g t) : s.BecomesReady g t := by
  obtain ⟨more, places, hperm⟩ := h
  rw [hooks_updatePumpQueue] at hperm
  have hsame := BecomesReady.intro (s := s) (g := g) more places hperm
  unfold updatePumpQueue publish at hsame ⊢
  split
  · rename_i hg
    rwa [if_pos hg] at hsame
  · rename_i hg
    rw [if_neg hg] at hsame
    simp only [List.modify_modify_eq]
    exact hsame

end Dispatch

namespace Client

/-- What the hooks and the pumps of a client have to do with, read off the client. -/
def dispatch (c : Client) : Dispatch :=
  ⟨c.published, c.hooks, c.setOffs, c.deliveries, c.attempts.map Attempt.pumpQueue⟩

theorem status_dispatch (c : Client) : c.dispatch.status = c.status := rfl

theorem pumpQueue?_dispatch (c : Client) (g : Nat) :
    c.dispatch.pumpQueue? g = (c.attempt? g).map Attempt.pumpQueue := by
  unfold Dispatch.pumpQueue? attempt?
  split
  · rfl
  · simp [dispatch]

/-! ### Attempts -/

/-- What the queue of an attempt shows of a change. -/
theorem dispatch_updateAttempt {c : Client} {g : Nat} {f : Attempt → Attempt}
    (change : PumpQueue → PumpQueue)
    (h : ∀ a, c.attempt? g = some a → (f a).pumpQueue = change a.pumpQueue) :
    (c.updateAttempt g f).dispatch = c.dispatch.updatePumpQueue g change := by
  unfold updateAttempt Dispatch.updatePumpQueue
  unfold attempt? at h
  split
  · rfl
  · rename_i hg
    rw [if_neg hg] at h
    have hqueues : (c.attempts.modify (g - 1) f).map Attempt.pumpQueue =
        (c.attempts.map Attempt.pumpQueue).modify (g - 1) change := by
      refine List.ext_getElem? fun i => ?_
      simp only [List.getElem?_map, List.getElem?_modify]
      by_cases hi : g - 1 = i
      · subst hi
        cases ha : c.attempts[g - 1]? with
        | none => rfl
        | some a => simp [h a ha]
      · cases c.attempts[i]? <;> simp [hi]
    exact congrArg (fun pumpQueues => { c.dispatch with pumpQueues }) hqueues

theorem updatePumpQueue_same (s : Dispatch) (g : Nat) : (s.updatePumpQueue g fun d => d) = s := by
  unfold Dispatch.updatePumpQueue
  split
  · rfl
  · have hsame : (s.pumpQueues.modify (g - 1) fun d => d) = s.pumpQueues := List.modify_id _ _
    rw [hsame]

/-- A change that cannot be seen at the queue. -/
theorem dispatch_updateAttempt_same {c : Client} {g : Nat} {f : Attempt → Attempt}
    (h : ∀ a, c.attempt? g = some a → (f a).pumpQueue = a.pumpQueue) :
    (c.updateAttempt g f).dispatch = c.dispatch := by
  rw [dispatch_updateAttempt (fun d => d) h, updatePumpQueue_same]

/-- A change of a connection that cannot be seen at the queue. -/
theorem dispatch_updateConnection_same {c : Client} {g : Nat} {f : Connection → Connection}
    (h : ∀ k, c.connection? g = some k → (f k).notifications = k.notifications ∧
      (f k).isOpen = k.isOpen) : (c.updateConnection g f).dispatch = c.dispatch := by
  refine dispatch_updateAttempt_same ?_
  intro a ha
  obtain ⟨hnotifications, hopen⟩ := h a.connection (by simp [connection?, ha])
  simp only [Attempt.pumpQueue, hnotifications, hopen]

@[simp] theorem dispatch_setPump_waiting (c : Client) (g : Nat) :
    (c.setPump g .waiting).dispatch = c.dispatch.updatePumpQueue g .disarm :=
  dispatch_updateAttempt _ fun _ _ => rfl

@[simp] theorem dispatch_setPump_ended (c : Client) (g : Nat) :
    (c.setPump g .ended).dispatch = c.dispatch.updatePumpQueue g .disarm :=
  dispatch_updateAttempt _ fun _ _ => rfl

@[simp] theorem dispatch_setPump_armed (c : Client) (g : Nat) :
    (c.setPump g .armed).dispatch = c.dispatch.updatePumpQueue g .arm :=
  dispatch_updateAttempt _ fun _ _ => rfl

@[simp] theorem dispatch_endProcess (c : Client) (g : Nat) :
    (c.endProcess g).dispatch = c.dispatch := by
  refine dispatch_updateAttempt_same ?_
  intro a _
  split <;> rfl

@[simp] theorem dispatch_setLaunch (c : Client) (g : Nat) (launch : Launch) (taken : Bool)
    (process : Process) : (c.setLaunch g launch taken process).dispatch = c.dispatch := by
  refine dispatch_updateAttempt_same ?_
  intro a _
  dsimp only
  split <;> rfl

/-! ### Talking to a server -/

@[simp] theorem dispatch_send (c : Client) (g : Nat) (method : String) (params : Json) (span : Nat) :
    (c.send g method params span).1.dispatch = c.dispatch := by
  unfold send
  cases hconnection : c.connection? g with
  | none => rfl
  | some connection =>
      refine dispatch_updateConnection_same ?_
      intro k hk
      rw [hconnection, Option.some.injEq] at hk
      subst hk
      exact ⟨rfl, rfl⟩

theorem dispatch_notify? {c c' : Client} {g : Nat} {message : Notification}
    (h : c.notify? g message = some c') : c'.dispatch = c.dispatch := by
  obtain ⟨before, _, hbefore, hnotify, rfl⟩ := notify?_eq_some_iff.mp h
  obtain ⟨-, rfl⟩ := Connection.notify?_eq_some_iff.mp hnotify
  refine dispatch_updateConnection_same fun k hk => ?_
  rw [hbefore, Option.some.injEq] at hk
  subst hk
  exact ⟨rfl, rfl⟩

theorem dispatch_settle? {c c' : Client} {g id : Nat} {outcome : Except SessionError Json}
    (h : c.settle? g id = some (c', outcome)) : c'.dispatch = c.dispatch := by
  obtain ⟨before, _, hbefore, hsettle, rfl⟩ := settle?_eq_some_iff.mp h
  obtain ⟨-, rfl⟩ := Connection.settle?_eq_some_iff.mp hsettle
  refine dispatch_updateConnection_same fun k hk => ?_
  rw [hbefore, Option.some.injEq] at hk
  subst hk
  exact ⟨rfl, rfl⟩

@[simp] theorem dispatch_forget (c : Client) (g id : Nat) : (c.forget g id).dispatch = c.dispatch :=
  dispatch_updateConnection_same fun _ _ => ⟨rfl, rfl⟩

/-! ### Effects on the host -/

theorem dispatch_note {c : Client} {entry : Entry} (hpublished : ∀ s, entry ≠ .published s)
    (hset : ∀ place g, entry ≠ .setOff place g) (hdelivered : ∀ g m, entry ≠ .delivered g m) :
    (c.note entry).dispatch = c.dispatch := by
  cases entry with
  | published s => exact absurd rfl (hpublished s)
  | setOff place g => exact absurd rfl (hset place g)
  | delivered g m => exact absurd rfl (hdelivered g m)
  | _ => simp [dispatch, note, published, setOffs, deliveries]

@[simp] theorem dispatch_publish (c : Client) (g : Nat) (state : SessionState) :
    (c.publish g state).dispatch = c.dispatch.publish g state := by
  simp [dispatch, publish, note, published, setOffs, deliveries, Dispatch.publish]

theorem dispatch_note_setOff (c : Client) (place g : Nat) :
    (c.note (.setOff place g)).dispatch =
      { c.dispatch with setOffs := c.dispatch.setOffs ++ [(place, g)] } := by
  simp [dispatch, note, published, setOffs, deliveries]

theorem dispatch_note_delivered (c : Client) (g : Nat) (message : Notification) :
    (c.note (.delivered g message)).dispatch =
      { c.dispatch with deliveries := c.dispatch.deliveries ++ [(g, message)] } := by
  simp [dispatch, note, published, setOffs, deliveries]

@[simp] theorem dispatch_say (c : Client) (call : HostCall) : (c.say call).dispatch = c.dispatch :=
  dispatch_note (by simp) (by simp) (by simp)

@[simp] theorem dispatch_sayAll (c : Client) (calls : List HostCall) :
    (c.sayAll calls).dispatch = c.dispatch := by
  induction calls generalizing c with
  | nil => rfl
  | cons call rest ih => exact (ih (c.say call)).trans (dispatch_say c call)

@[simp] theorem dispatch_beginProgress (c : Client) (call : Nat) (title : String) :
    (c.beginProgress call title).dispatch = c.dispatch := dispatch_sayAll _ _

@[simp] theorem dispatch_endProgress (c : Client) (call : Nat) :
    (c.endProgress call).dispatch = c.dispatch := dispatch_sayAll _ _

@[simp] theorem dispatch_reportFailure (c : Client) (g : Nat) (error : SessionError) :
    (c.reportFailure g error).dispatch = c.dispatch.publish g .failed := by
  rw [reportFailure, dispatch_say, dispatch_publish]

@[simp] theorem dispatch_handle (c : Client) (params : Json) (handler : Handler) :
    (c.handle params handler).dispatch = c.dispatch := by
  cases handler with
  | observe tag => exact dispatch_note (by simp) (by simp) (by simp)
  | _ =>
      simp only [handle]
      split
      · first | exact dispatch_say _ _ | rfl
      · rfl

@[simp] theorem dispatch_deliver (c : Client) (message : Notification) :
    (c.deliver message).dispatch = c.dispatch := by
  unfold deliver
  split
  · exact dispatch_handle c _ _
  · rfl

@[simp] theorem dispatch_registerCommand (c : Client) (id : String) (action : CommandAction) :
    (c.registerCommand id action).dispatch = c.dispatch := by
  unfold registerCommand
  split <;> rfl

@[simp] theorem dispatch_registerSessionCommands (c : Client) :
    c.registerSessionCommands.dispatch = c.dispatch := by
  unfold registerSessionCommands
  split
  · rfl
  · simp only [dispatch_registerCommand]
    rfl

@[simp] theorem dispatch_registerHandler (c : Client) (method : String) (handler : Handler) :
    (c.registerHandler method handler).dispatch = c.dispatch := rfl

@[simp] theorem dispatch_wire (c : Client) : c.wire.dispatch = c.dispatch := by
  simp only [wire, dispatch_registerSessionCommands, dispatch_say, dispatch_registerHandler]

/-! ### Hooks -/

/-- While a session is ready, a hook is set off in its place, and the hooks that it enrolls are set
off behind it. -/
theorem dispatch_runHook {c : Client} {g : Nat} (h : c.status = ⟨g, .ready⟩) (place : Nat)
    (hook : Hook) : ∃ more : List Hook, (runHook g place hook c).dispatch =
      { c.dispatch with
        hooks := c.hooks ++ more
        setOffs := c.setOffs ++ (place :: List.range' c.hooks.length more.length).map
          fun place => (place, g) } := by
  induction hook generalizing c place with
  | observe tag =>
      refine ⟨[], ?_⟩
      have hnoted : ((c.note (.setOff place g)).note (.hookRan tag g)).dispatch =
          (c.note (.setOff place g)).dispatch := dispatch_note (by simp) (by simp) (by simp)
      rw [runHook, hnoted, dispatch_note_setOff]
      simp [dispatch]
  | wire =>
      refine ⟨[], ?_⟩
      rw [runHook, dispatch_wire, dispatch_note_setOff]
      simp [dispatch]
  | enroll hook ih =>
      -- The new hook has the next place, and what it enrolls comes after that.
      let c₁ : Client := { c.note (.setOff place g) with hooks := c.hooks ++ [hook] }
      have hstatus : c₁.status = ⟨g, .ready⟩ := by
        rw [← status_dispatch]
        exact (congrArg Dispatch.status (dispatch_note_setOff c place g)).trans h
      obtain ⟨more, hmore⟩ := ih hstatus c.hooks.length
      have hrun : runHook g place (.enroll hook) c = runHook g c.hooks.length hook c₁ := by
        have hready : runHook g place (.enroll hook) c =
            if c₁.status.isReady then runHook c₁.status.generation c.hooks.length hook c₁ else c₁ :=
          rfl
        rw [hready, hstatus]
        rfl
      refine ⟨hook :: more, ?_⟩
      have hset : c₁.setOffs = c.setOffs ++ [(place, g)] :=
        congrArg Dispatch.setOffs (dispatch_note_setOff c place g)
      have hdispatch : c₁.dispatch = { c.dispatch with
          hooks := c.hooks ++ [hook], setOffs := c.setOffs ++ [(place, g)] } :=
        congrArg (fun s : Dispatch => { s with hooks := c.hooks ++ [hook] })
          (dispatch_note_setOff c place g)
      rw [hrun, hmore, hdispatch, hset]
      simp [c₁, List.range'_succ]

/-- A hook is added, and behind it those that it enrolls. -/
theorem enrolls_onReady (c : Client) (hook : Hook) :
    ∃ more : List Hook, (c.onReady hook).dispatch = c.dispatch.enroll (hook :: more) := by
  let c₁ : Client := { c with hooks := c.hooks ++ [hook] }
  have hadd : c.onReady hook =
      if c₁.status.isReady then runHook c₁.status.generation c.hooks.length hook c₁ else c₁ := rfl
  have hstatus : c₁.status = c.status := rfl
  rw [hadd, hstatus]
  split
  · rename_i hready
    have hstate : c₁.status = ⟨c.status.generation, .ready⟩ := by
      have hstate : c.status.state = .ready := by simpa [Status.isReady] using hready
      rw [hstatus, ← hstate]
    obtain ⟨more, hmore⟩ := dispatch_runHook hstate c.hooks.length hook
    refine ⟨more, ?_⟩
    rw [hmore, Dispatch.enroll, status_dispatch, if_pos hready]
    simp [c₁, dispatch, List.range'_succ, setOffs, published, deliveries]
  · rename_i hready
    refine ⟨[], ?_⟩
    rw [Dispatch.enroll, status_dispatch, if_neg hready]
    simp [c₁, dispatch, setOffs, published, deliveries]

theorem dispatch_onReady (c : Client) (hook : Hook) :
    ∃ more : List Hook, (c.onReady hook).dispatch = c.dispatch.enroll more := by
  obtain ⟨more, hmore⟩ := enrolls_onReady c hook
  exact ⟨hook :: more, hmore⟩

/-- The hooks of some places run one after the other while a session is ready. -/
theorem dispatch_foldl_runHook {c : Client} {g : Nat} (h : c.status = ⟨g, .ready⟩)
    (entries : List (Hook × Nat)) : ∃ (more : List Hook) (places : List Nat),
      places.Perm (entries.map Prod.snd ++ List.range' c.hooks.length more.length) ∧
        (entries.foldl (fun c entry => runHook g entry.2 entry.1 c) c).dispatch =
          { c.dispatch with
            hooks := c.hooks ++ more
            setOffs := c.setOffs ++ places.map fun place => (place, g) } := by
  induction entries generalizing c with
  | nil => exact ⟨[], [], by simp, by simp [dispatch]⟩
  | cons entry rest ih =>
      obtain ⟨hook, place⟩ := entry
      obtain ⟨first, hfirst⟩ := dispatch_runHook h place hook
      have hstatus : (runHook g place hook c).status = ⟨g, .ready⟩ := by
        rw [← status_dispatch, hfirst]
        exact h
      have hhooks : (runHook g place hook c).hooks = c.hooks ++ first :=
        congrArg Dispatch.hooks hfirst
      have hset : (runHook g place hook c).setOffs = _ := congrArg Dispatch.setOffs hfirst
      obtain ⟨more, places, hperm, hdispatch⟩ := ih hstatus
      rw [hhooks, List.length_append] at hperm
      refine ⟨first ++ more, place :: List.range' c.hooks.length first.length ++ places, ?_, ?_⟩
      · rw [List.map_cons, List.cons_append, List.cons_append, List.length_append,
          ← List.range'_append_1]
        refine List.Perm.cons _ ?_
        exact (hperm.append_left _).trans (List.perm_append_comm_assoc _ _ _)
      · rw [List.foldl_cons, hdispatch, hfirst, hhooks, hset]
        simp

/-- A session becomes ready, its hooks run, and its pump is armed. -/
theorem becomesReady_runHooks {c : Client} {s : Dispatch} {g : Nat}
    (h : c.dispatch = s.publish g .ready) :
    s.BecomesReady g (((c.runHooks g).setPump g .armed).dispatch) := by
  have hstatus : c.status = ⟨g, .ready⟩ := by
    rw [← status_dispatch, h, Dispatch.status_publish]
  obtain ⟨more, places, hperm, hdispatch⟩ := dispatch_foldl_runHook hstatus c.hooks.zipIdx
  have hhooks : c.hooks = s.hooks := congrArg Dispatch.hooks h
  have hset : c.setOffs = s.setOffs := congrArg Dispatch.setOffs h
  have hplaces : places.Perm (List.range (s.hooks ++ more).length) := by
    rw [List.length_append, List.range_eq_range', ← hhooks]
    rw [List.zipIdx_map_snd] at hperm
    rwa [← List.range'_append_1, Nat.zero_add]
  rw [dispatch_setPump_armed, runHooks, hdispatch, h, hhooks, hset]
  exact .intro more places hplaces

end Client
end LanguageClient
