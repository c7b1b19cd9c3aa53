import LanguageClient.Proofs.Session.Hooks

/-!
# Notifications are delivered in order, while their session is ready

A connection queues the notifications of its server from its first message on.  The pump of a
session delivers them, but only between two points: the session has become ready and its hooks have
run, and it is not yet published as stopped or lost.

* `Dispatch.PumpStep`, `Dispatch.pumpStep_of_step` — what an event does to pumps and queues, apart
  from what it does to hooks.
* `Dispatch.OnlyReadyDelivers` — the first invariant: only the pump of a session that is ready
  delivers, and a session that was lost has nothing left.
* `Dispatch.ReadyDelivers` — the second one: the pump of a session that is ready delivers whatever
  waits.
* `Dispatch.account_step` — what is delivered and what waits together are what was queued.
* `Client.arrivals`, `Client.queued`, `Client.delivered` — the two sides of the comparison.
* **`Client.notifications_are_delivered_in_order`** — after any events.
-/

namespace LanguageClient

/-- The messages of one session. -/
def messagesOf (g : Nat) (entries : List (Nat × Notification)) : List Notification :=
  entries.filterMap fun entry => if entry.1 = g then some entry.2 else none

@[simp] theorem messagesOf_nil (g : Nat) : messagesOf g [] = [] := rfl

theorem messagesOf_append (g : Nat) (entries more : List (Nat × Notification)) :
    messagesOf g (entries ++ more) = messagesOf g entries ++ messagesOf g more :=
  List.filterMap_append

@[simp] theorem messagesOf_singleton (g g' : Nat) (message : Notification) :
    messagesOf g' [(g, message)] = if g = g' then [message] else [] := by
  by_cases hg : g = g' <;> simp [messagesOf, hg]

namespace Dispatch

variable {r s t : Dispatch} {g : Nat}

/-! ### What is seen of a queue -/

/-- The notifications that wait for the pump of a session. -/
def waiting (s : Dispatch) (g : Nat) : List Notification :=
  ((s.pumpQueue? g).map PumpQueue.waiting).getD []

/-- Whether the pump of a session delivers. -/
def isArmed (s : Dispatch) (g : Nat) : Bool := (s.pumpQueue? g).any PumpQueue.armed

/-- Whether notifications of a session can still come. -/
def isOpen (s : Dispatch) (g : Nat) : Bool := (s.pumpQueue? g).all PumpQueue.isOpen

/-- A session was ready and is lost. -/
def Crashed (s : Dispatch) (g : Nat) : Prop := ⟨g, .ready⟩ ∈ s.published ∧ ⟨g, .failed⟩ ∈ s.published

theorem pumpQueue?_updatePumpQueue_ne {f : PumpQueue → PumpQueue} {g' : Nat} (h : g ≠ g') :
    (s.updatePumpQueue g f).pumpQueue? g' = s.pumpQueue? g' := by
  rw [pumpQueue?_updatePumpQueue, if_neg h]

theorem pumpQueue?_updatePumpQueue_self {f : PumpQueue → PumpQueue} :
    (s.updatePumpQueue g f).pumpQueue? g = (s.pumpQueue? g).map f := by
  rw [pumpQueue?_updatePumpQueue, if_pos rfl]

theorem waiting_updatePumpQueue (s : Dispatch) (g : Nat) (f : PumpQueue → PumpQueue) (g' : Nat) :
    (s.updatePumpQueue g f).waiting g' =
      if g = g' then ((s.pumpQueue? g').map fun d => (f d).waiting).getD [] else s.waiting g' := by
  unfold waiting
  rw [pumpQueue?_updatePumpQueue]
  split
  · rw [Option.map_map]
    rfl
  · rfl

theorem pumpQueue?_becomesReady (h : s.BecomesReady g t) (g' : Nat) :
    t.pumpQueue? g' = (s.updatePumpQueue g .arm).pumpQueue? g' := by
  obtain ⟨more, places, -⟩ := h
  rw [pumpQueue?_updatePumpQueue, pumpQueue?_updatePumpQueue]
  rfl

/-! ### What leaves the pumps alone -/

/-- Nothing is delivered or queued, no pump begins to deliver, and no session is lost. -/
structure LeavesPumps (s t : Dispatch) : Prop where
  deliveries : t.deliveries = s.deliveries
  published : s.published <+: t.published
  waiting : ∀ g, t.waiting g = s.waiting g
  isOpen : ∀ g, t.isOpen g → s.isOpen g
  /-- While a pump delivers, its session stays ready. -/
  armed : ∀ g, t.isArmed g → s.isArmed g ∧ (s.status = ⟨g, .ready⟩ → t.status = ⟨g, .ready⟩)
  crashed : ∀ g, t.Crashed g → s.Crashed g

theorem leavesPumps_refl (s : Dispatch) : s.LeavesPumps s :=
  ⟨rfl, List.prefix_refl _, fun _ => rfl, fun _ h => h, fun _ h => ⟨h, fun h => h⟩, fun _ h => h⟩

theorem LeavesPumps.trans (h : r.LeavesPumps s) (h' : s.LeavesPumps t) : r.LeavesPumps t where
  deliveries := h'.deliveries.trans h.deliveries
  published := h.published.trans h'.published
  waiting g := (h'.waiting g).trans (h.waiting g)
  isOpen g hopen := h.isOpen g (h'.isOpen g hopen)
  armed g harmed := by
    obtain ⟨harmed', hstays'⟩ := h'.armed g harmed
    obtain ⟨harmed, hstays⟩ := h.armed g harmed'
    exact ⟨harmed, fun hready => hstays' (hstays hready)⟩
  crashed g hcrashed := h.crashed g (h'.crashed g hcrashed)

theorem leavesPumps_enroll (s : Dispatch) (more : List Hook) : s.LeavesPumps (s.enroll more) :=
  ⟨rfl, List.prefix_refl _, fun _ => rfl, fun _ h => h, fun _ h => ⟨h, fun h => h⟩, fun _ h => h⟩

theorem leavesPumps_updatePumpQueue (s : Dispatch) (g : Nat) {f : PumpQueue → PumpQueue}
    (hwaiting : ∀ d, (f d).waiting = d.waiting) (hopen : ∀ d, (f d).isOpen → d.isOpen)
    (harmed : ∀ d, (f d).armed → d.armed) : s.LeavesPumps (s.updatePumpQueue g f) where
  deliveries := deliveries_updatePumpQueue s g f
  published := (published_updatePumpQueue s g f) ▸ List.prefix_refl _
  waiting g' := by
    simp only [waiting_updatePumpQueue, hwaiting]
    exact ite_self _
  isOpen g' h := by
    unfold isOpen at h ⊢
    rw [pumpQueue?_updatePumpQueue] at h
    cases hd : s.pumpQueue? g' with
    | none => rfl
    | some d =>
        by_cases hg : g = g' <;> simp only [hg, hd, if_true, if_false, Option.map_some] at h
        · exact hopen d h
        · exact h
  armed g' h := by
    refine ⟨?_, fun hstatus => by rwa [status_updatePumpQueue]⟩
    unfold isArmed at h ⊢
    rw [pumpQueue?_updatePumpQueue] at h
    cases hd : s.pumpQueue? g' with
    | none => simp [hd] at h
    | some d =>
        by_cases hg : g = g' <;> simp only [hg, hd, if_true, if_false, Option.map_some] at h
        · exact harmed d h
        · exact h
  crashed g' h := by
    unfold Crashed at h ⊢
    rwa [published_updatePumpQueue] at h

theorem leavesPumps_disarm (s : Dispatch) (g : Nat) : s.LeavesPumps (s.updatePumpQueue g .disarm) :=
  leavesPumps_updatePumpQueue s g (fun _ => rfl) (fun _ h => h) (fun _ h => by cases h)

theorem not_isArmed_disarm (s : Dispatch) (g : Nat) :
    (s.updatePumpQueue g .disarm).isArmed g = false := by
  unfold isArmed
  rw [pumpQueue?_updatePumpQueue_self]
  cases s.pumpQueue? g <;> rfl

/-- A status is published while no pump of a session that is ready delivers. -/
theorem leavesPumps_publish {state : SessionState}
    (harmed : ∀ g', s.isArmed g' → s.status ≠ ⟨g', .ready⟩) (hready : state ≠ .ready)
    (hfailed : state = .failed → ⟨g, .ready⟩ ∉ s.published) :
    s.LeavesPumps (s.publish g state) where
  deliveries := rfl
  published := List.prefix_append _ _
  waiting _ := rfl
  isOpen _ h := h
  armed g' h := ⟨h, fun hstatus => absurd hstatus (harmed g' h)⟩
  crashed g' h := by
    obtain ⟨hmem, hfail⟩ := h
    rw [publish, List.mem_append, List.mem_singleton, Status.mk.injEq] at hmem hfail
    have hmem' := hmem.resolve_right fun heq => hready heq.2.symm
    refine ⟨hmem', hfail.resolve_right ?_⟩
    rintro ⟨rfl, rfl⟩
    exact hfailed rfl hmem'

theorem leavesPumps_launch (hready : s.status.isReady = false) : s.LeavesPumps s.launch := by
  have hnot : ∀ g', s.status ≠ ⟨g', .ready⟩ := by
    intro g' hstatus
    rw [hstatus] at hready
    cases hready
  have hpublish : s.LeavesPumps (s.publish (s.pumpQueues.length + 1) .starting) :=
    leavesPumps_publish (fun g' _ => hnot g') (by decide) (fun h => by cases h)
  have hnone : s.pumpQueue? (s.pumpQueues.length + 1) = none := by simp [pumpQueue?]
  refine ⟨rfl, hpublish.published, ?_, ?_, ?_, hpublish.crashed⟩
  · intro g
    unfold waiting
    rw [pumpQueue?_launch]
    by_cases hg : g = s.pumpQueues.length + 1
    · rw [if_pos hg, hg, hnone]
      rfl
    · rw [if_neg hg]
  · intro g hopen
    unfold isOpen at hopen ⊢
    rw [pumpQueue?_launch] at hopen
    by_cases hg : g = s.pumpQueues.length + 1
    · rw [hg, hnone]
      rfl
    · rwa [if_neg hg] at hopen
  · intro g harmed
    refine ⟨?_, fun hstatus => absurd hstatus (hnot g)⟩
    unfold isArmed at harmed ⊢
    rw [pumpQueue?_launch] at harmed
    by_cases hg : g = s.pumpQueues.length + 1
    · rw [if_pos hg] at harmed
      cases harmed
    · rwa [if_neg hg] at harmed

/-- The pump of a session that is ready ends when the session is published as stopped. -/
theorem leavesPumps_stopped (hs : s.status = ⟨g, .ready⟩) :
    s.LeavesPumps ((s.updatePumpQueue g .disarm).publish g .stopped) := by
  refine (leavesPumps_disarm s g).trans (leavesPumps_publish ?_ (by decide) fun h => by cases h)
  intro g' harmed hstatus
  rw [status_updatePumpQueue, hs, Status.mk.injEq] at hstatus
  obtain rfl := hstatus.1
  rw [not_isArmed_disarm] at harmed
  cases harmed

theorem leavesPumps_failed (hs : s.IsStarting g) : s.LeavesPumps (s.publish g .failed) := by
  refine leavesPumps_publish ?_ (by decide) fun _ hready => by cases hs.first _ hready rfl
  intro g' _ hstatus
  rw [hs.status] at hstatus
  cases hstatus

theorem isStarting_disarm (hs : s.IsStarting g) : (s.updatePumpQueue g .disarm).IsStarting g :=
  ⟨(status_updatePumpQueue s g _).trans hs.status, by rw [published_updatePumpQueue]; exact hs.first⟩

/-! ### Every step, seen from the pumps -/

/-- What an event does to the pumps and their queues. -/
inductive PumpStep (s : Dispatch) : Option (Nat × Notification) → Dispatch → Prop
  | leaves {t : Dispatch} (h : s.LeavesPumps t) : PumpStep s none t
  | becomesReady {g : Nat} {t : Dispatch} (hs : s.IsStarting g) (h : s.BecomesReady g t) :
      PumpStep s none t
  | delivers (g : Nat) (message : Notification) (rest : List Notification) (isOpen : Bool)
      (h : s.pumpQueue? g = some ⟨true, message :: rest, isOpen⟩) :
      PumpStep s none { s.updatePumpQueue g (fun d => { d with waiting := rest }) with
        deliveries := s.deliveries ++ [(g, message)] }
  | loses (g : Nat) (hs : s.status = ⟨g, .ready⟩) (h : s.pumpQueue? g = some ⟨true, [], false⟩) :
      PumpStep s none ((s.updatePumpQueue g .disarm).publish g .failed)
  | arrives (g : Nat) (message : Notification) (d : PumpQueue) (h : s.pumpQueue? g = some d)
      (hopen : d.isOpen) : PumpStep s (some (g, message)) (s.updatePumpQueue g (.put message))

theorem pumpStep_of_step {arrival? : Option (Nat × Notification)} (hm : s.Step arrival? t) :
    s.PumpStep arrival? t := by
  cases hm with
  | stays => exact .leaves (leavesPumps_refl s)
  | enrolls more => exact .leaves (leavesPumps_enroll s more)
  | launches more hready =>
      exact .leaves ((leavesPumps_enroll s more).trans (leavesPumps_launch hready))
  | starts hs hstarts =>
      cases hstarts with
      | waits => exact .leaves (leavesPumps_refl s)
      | ready hbecomes => exact .becomesReady hs hbecomes
      | failed => exact .leaves (leavesPumps_failed hs)
      | refused =>
          exact .leaves ((leavesPumps_disarm s _).trans (leavesPumps_failed (isStarting_disarm hs)))
  | stops hs hstops =>
      cases hstops with
      | waits => exact .leaves (leavesPumps_refl s)
      | stopped => exact .leaves (leavesPumps_stopped hs)
      | restarts =>
          refine .leaves ((leavesPumps_stopped hs).trans (leavesPumps_launch ?_))
          rw [status_publish]
          rfl
  | delivers g message rest isOpen h => exact .delivers g message rest isOpen h
  | loses g hs h => exact .loses g hs h
  | rests g h => exact .leaves (leavesPumps_disarm s g)
  | arrives g message d h hopen => exact .arrives g message d h hopen
  | closes g =>
      exact .leaves
        (leavesPumps_updatePumpQueue s g (fun _ => rfl) (fun _ h => by cases h) fun _ h => h)

/-! ### What a step keeps -/

/-- What has been delivered of a session and what waits together grow by what arrives. -/
theorem account_step {arrival? : Option (Nat × Notification)} (hm : s.PumpStep arrival? t) (g : Nat) :
    messagesOf g t.deliveries ++ t.waiting g =
      messagesOf g s.deliveries ++ s.waiting g ++ messagesOf g arrival?.toList := by
  cases hm with
  | leaves h =>
      rw [h.deliveries, h.waiting]
      simp
  | becomesReady hs h =>
      have hwaiting : t.waiting g = s.waiting g := by
        rw [waiting, pumpQueue?_becomesReady h]
        exact (waiting_updatePumpQueue s _ .arm g).trans (ite_self _)
      obtain ⟨more, places, -⟩ := h
      rw [hwaiting, deliveries_updatePumpQueue]
      simp [publish]
  | delivers g' message rest isOpen h =>
      have hwaiting := waiting_updatePumpQueue s g' (fun d => { d with waiting := rest }) g
      show messagesOf g (s.deliveries ++ [(g', message)]) ++ (s.updatePumpQueue g' _).waiting g = _
      rw [hwaiting, messagesOf_append, messagesOf_singleton]
      by_cases hg : g' = g
      · subst hg
        simp [waiting, h]
      · simp [hg]
  | loses g' hs h =>
      -- A pump that ends leaves the queue, which is empty, as it is.
      have hwaiting := (leavesPumps_disarm s g').waiting g
      show messagesOf g (s.updatePumpQueue g' _).deliveries ++ (s.updatePumpQueue g' _).waiting g = _
      rw [hwaiting, deliveries_updatePumpQueue]
      simp
  | arrives g' message d h hopen =>
      rw [deliveries_updatePumpQueue, waiting_updatePumpQueue, List.append_assoc]
      by_cases hg : g' = g
      · subst hg
        simp [waiting, h, PumpQueue.put]
      · simp [hg]

/-- Only the pump of a session that is ready delivers; a session that was lost has nothing left and
gets nothing more. -/
structure OnlyReadyDelivers (s : Dispatch) : Prop where
  armed : ∀ g, s.isArmed g → s.status = ⟨g, .ready⟩
  crashed : ∀ g, s.Crashed g → s.waiting g = [] ∧ s.isOpen g = false
  delivered : ∀ entry ∈ s.deliveries, ⟨entry.1, .ready⟩ ∈ s.published

theorem onlyReadyDelivers_empty : empty.OnlyReadyDelivers where
  armed g harmed := by cases g <;> cases harmed
  crashed _ hcrashed := by cases hcrashed.1
  delivered _ hentry := by cases hentry

theorem onlyReadyDelivers_leaves (h : s.OnlyReadyDelivers) (hm : s.LeavesPumps t) :
    t.OnlyReadyDelivers where
  armed g harmed := by
    obtain ⟨hbefore, hstays⟩ := hm.armed g harmed
    exact hstays (h.armed g hbefore)
  crashed g hcrashed := by
    obtain ⟨hwaiting, hopen⟩ := h.crashed g (hm.crashed g hcrashed)
    refine ⟨(hm.waiting g).trans hwaiting, ?_⟩
    rw [← Bool.not_eq_true] at hopen ⊢
    exact fun hmore => hopen (hm.isOpen g hmore)
  delivered entry hentry := by
    rw [hm.deliveries] at hentry
    exact hm.published.subset (h.delivered entry hentry)

/-- What is seen of a queue does not depend on the queue of another session. -/
theorem elsewhere (h : t.pumpQueue? g = s.pumpQueue? g) :
    t.waiting g = s.waiting g ∧ t.isOpen g = s.isOpen g ∧ t.isArmed g = s.isArmed g := by
  unfold waiting isOpen isArmed
  rw [h]
  exact ⟨rfl, rfl, rfl⟩

theorem onlyReadyDelivers_becomesReady (h : s.OnlyReadyDelivers) (hs : s.IsStarting g)
    (hm : s.BecomesReady g t) : t.OnlyReadyDelivers := by
  have hpublished := published_becomesReady hm
  have hother : ∀ g', g ≠ g' → t.pumpQueue? g' = s.pumpQueue? g' := fun g' hg => by
    rw [pumpQueue?_becomesReady hm, pumpQueue?_updatePumpQueue_ne hg]
  refine ⟨?_, ?_, ?_⟩
  · intro g' harmed
    rw [status_becomesReady hm]
    by_cases hg : g = g'
    · rw [hg]
    · rw [(elsewhere (hother g' hg)).2.2] at harmed
      have hready := h.armed g' harmed
      rw [hs.status] at hready
      cases hready
  · -- The session has not failed before, and another one was lost before.
    rintro g' ⟨hready, hfailed⟩
    rw [hpublished, List.mem_append, List.mem_singleton, Status.mk.injEq] at hready hfailed
    have hfailed' := hfailed.resolve_right fun heq => by cases heq.2
    have hg : g ≠ g' := by
      rintro rfl
      cases hs.first _ hfailed' rfl
    obtain ⟨hwaiting, hopen, -⟩ := elsewhere (hother g' hg)
    rw [hwaiting, hopen]
    exact h.crashed g' ⟨hready.resolve_right fun heq => hg heq.1.symm, hfailed'⟩
  · intro entry hentry
    obtain ⟨more, places, -⟩ := hm
    rw [deliveries_updatePumpQueue] at hentry
    rw [hpublished]
    exact List.mem_append_left _ (h.delivered entry hentry)

/-- Something is delivered or arrives at the queue of a session that was not lost. -/
theorem onlyReadyDelivers_at (h : s.OnlyReadyDelivers) (hnot : ¬ s.Crashed g)
    (hpublished : t.published = s.published)
    (hother : ∀ g', g ≠ g' → t.pumpQueue? g' = s.pumpQueue? g') (harmed : t.isArmed g → s.isArmed g)
    (hdelivered : ∀ entry ∈ t.deliveries, entry ∈ s.deliveries ∨ entry.1 = g ∧ s.isArmed g) :
    t.OnlyReadyDelivers where
  armed g' harmed' := by
    have hstatus : t.status = s.status := by rw [status, hpublished, status]
    rw [hstatus]
    by_cases hg : g = g'
    · subst hg
      exact h.armed g (harmed harmed')
    · rw [(elsewhere (hother g' hg)).2.2] at harmed'
      exact h.armed g' harmed'
  crashed g' hcrashed := by
    have hbefore : s.Crashed g' := by
      unfold Crashed at hcrashed ⊢
      rwa [hpublished] at hcrashed
    have hg : g ≠ g' := fun hg => hnot (hg ▸ hbefore)
    obtain ⟨hwaiting, hopen, -⟩ := elsewhere (hother g' hg)
    rw [hwaiting, hopen]
    exact h.crashed g' hbefore
  delivered entry hentry := by
    rw [hpublished]
    rcases hdelivered entry hentry with hold | ⟨hg, harmed'⟩
    · exact h.delivered entry hold
    · rw [hg]
      exact mem_published_of_status (h.armed g harmed')

theorem onlyReadyDelivers_loses (h : s.OnlyReadyDelivers) (hs : s.status = ⟨g, .ready⟩)
    (hqueue : s.pumpQueue? g = some ⟨true, [], false⟩) :
    ((s.updatePumpQueue g .disarm).publish g .failed).OnlyReadyDelivers where
  armed g' harmed := by
    have harmed' : (s.updatePumpQueue g .disarm).isArmed g' := harmed
    have hready := h.armed g' ((leavesPumps_disarm s g).armed g' harmed').1
    rw [hs, Status.mk.injEq] at hready
    rw [← hready.1, not_isArmed_disarm] at harmed'
    cases harmed'
  crashed g' hcrashed := by
    show (s.updatePumpQueue g .disarm).waiting g' = [] ∧
      (s.updatePumpQueue g .disarm).isOpen g' = false
    by_cases hg : g = g'
    · subst hg
      unfold waiting isOpen
      rw [pumpQueue?_updatePumpQueue_self, hqueue]
      exact ⟨rfl, rfl⟩
    · obtain ⟨hready, hfailed⟩ := hcrashed
      rw [publish, published_updatePumpQueue, List.mem_append, List.mem_singleton, Status.mk.injEq]
        at hready hfailed
      obtain ⟨hwaiting, hopen, -⟩ :=
        elsewhere (pumpQueue?_updatePumpQueue_ne (f := .disarm) (s := s) hg)
      rw [hwaiting, hopen]
      exact h.crashed g' ⟨hready.resolve_right fun heq => hg heq.1.symm,
        hfailed.resolve_right fun heq => hg heq.1.symm⟩
  delivered entry hentry := by
    rw [publish, deliveries_updatePumpQueue] at hentry
    rw [publish, published_updatePumpQueue]
    exact List.mem_append_left _ (h.delivered entry hentry)

theorem onlyReadyDelivers_step {arrival? : Option (Nat × Notification)} (h : s.OnlyReadyDelivers)
    (hm : s.PumpStep arrival? t) : t.OnlyReadyDelivers := by
  cases hm with
  | leaves hm => exact onlyReadyDelivers_leaves h hm
  | becomesReady hs hm => exact onlyReadyDelivers_becomesReady h hs hm
  | delivers g message rest isOpen hqueue =>
      -- Something waits, so the session was not lost.
      have hnot : ¬ s.Crashed g := by
        intro hcrashed
        have hwaiting := (h.crashed g hcrashed).1
        simp [waiting, hqueue] at hwaiting
      have harmed : s.isArmed g := by simp [isArmed, hqueue]
      refine onlyReadyDelivers_at h hnot (published_updatePumpQueue s g _) ?_ (fun _ => harmed) ?_
      · exact fun g' hg => pumpQueue?_updatePumpQueue_ne hg
      · intro entry hentry
        rw [List.mem_append, List.mem_singleton] at hentry
        exact hentry.imp_right fun heq => ⟨by rw [heq], harmed⟩
  | loses g hs hqueue => exact onlyReadyDelivers_loses h hs hqueue
  | arrives g message d hqueue hopen =>
      -- Something can come, so the session was not lost.
      have hnot : ¬ s.Crashed g := by
        intro hcrashed
        have hclosed := (h.crashed g hcrashed).2
        simp [isOpen, hqueue, hopen] at hclosed
      refine onlyReadyDelivers_at h hnot (published_updatePumpQueue s g _) ?_ ?_ ?_
      · exact fun g' hg => pumpQueue?_updatePumpQueue_ne hg
      · intro harmed
        unfold isArmed at harmed ⊢
        rw [pumpQueue?_updatePumpQueue_self, hqueue] at harmed
        rwa [hqueue]
      · intro entry hentry
        rw [deliveries_updatePumpQueue] at hentry
        exact .inl hentry

/-- The session that is being started has a queue; the pump of the session that is ready
delivers, or nothing is left and nothing can come. -/
structure ReadyDelivers (s : Dispatch) : Prop where
  starting : ∀ g, s.status = ⟨g, .starting⟩ → (s.pumpQueue? g).isSome
  ready : ∀ g, s.status = ⟨g, .ready⟩ → s.isArmed g ∨ s.waiting g = [] ∧ s.isOpen g = false

theorem readyDelivers_empty : empty.ReadyDelivers where
  starting _ hstatus := by cases hstatus
  ready _ hstatus := by cases hstatus

theorem readyDelivers_updatePumpQueue (h : s.ReadyDelivers) {f : PumpQueue → PumpQueue}
    (hf : ∀ d, s.pumpQueue? g = some d → d.armed ∨ d.waiting = [] ∧ d.isOpen = false →
      (f d).armed ∨ (f d).waiting = [] ∧
        (f d).isOpen = false) :
    (s.updatePumpQueue g f).ReadyDelivers where
  starting g' hstatus := by
    rw [status_updatePumpQueue] at hstatus
    rw [pumpQueue?_updatePumpQueue]
    split
    · rw [Option.isSome_map]
      exact h.starting g' hstatus
    · exact h.starting g' hstatus
  ready g' hstatus := by
    rw [status_updatePumpQueue] at hstatus
    have hbefore := h.ready g' hstatus
    unfold isArmed waiting isOpen at hbefore ⊢
    by_cases hg : g = g'
    · subst hg
      rw [pumpQueue?_updatePumpQueue_self]
      cases hqueue : s.pumpQueue? g with
      | none => simp [hqueue] at hbefore
      | some d => simpa [hqueue] using hf d hqueue (by simpa [hqueue] using hbefore)
    · rwa [pumpQueue?_updatePumpQueue_ne hg]

theorem readyDelivers_publish (s : Dispatch) (g : Nat) {state : SessionState}
    (hstarting : state ≠ .starting) (hready : state ≠ .ready) :
    (s.publish g state).ReadyDelivers where
  starting g' hstatus := by
    rw [status_publish, Status.mk.injEq] at hstatus
    exact absurd hstatus.2 hstarting
  ready g' hstatus := by
    rw [status_publish, Status.mk.injEq] at hstatus
    exact absurd hstatus.2 hready

theorem readyDelivers_launch (s : Dispatch) : s.launch.ReadyDelivers where
  starting g hstatus := by
    rw [status_launch, Status.mk.injEq] at hstatus
    rw [pumpQueue?_launch, if_pos hstatus.1.symm]
    rfl
  ready g hstatus := by
    rw [status_launch] at hstatus
    cases hstatus

theorem readyDelivers_becomesReady (h : s.ReadyDelivers) (hs : s.IsStarting g)
    (hm : s.BecomesReady g t) : t.ReadyDelivers where
  starting g' hstatus := by
    rw [status_becomesReady hm] at hstatus
    cases hstatus
  ready g' hstatus := by
    rw [status_becomesReady hm, Status.mk.injEq] at hstatus
    obtain ⟨rfl, -⟩ := hstatus
    obtain ⟨d, hqueue⟩ := Option.isSome_iff_exists.mp (h.starting g hs.status)
    left
    rw [isArmed, pumpQueue?_becomesReady hm, pumpQueue?_updatePumpQueue_self, hqueue]
    rfl

theorem readyDelivers_step {arrival? : Option (Nat × Notification)} (h : s.ReadyDelivers)
    (hm : s.Step arrival? t) : t.ReadyDelivers := by
  cases hm with
  | stays => exact h
  | enrolls more => exact ⟨h.starting, h.ready⟩
  | launches more hready => exact readyDelivers_launch _
  | starts hs hstarts =>
      cases hstarts with
      | waits => exact h
      | ready hbecomes => exact readyDelivers_becomesReady h hs hbecomes
      | failed => exact readyDelivers_publish _ _ (by decide) (by decide)
      | refused => exact readyDelivers_publish _ _ (by decide) (by decide)
  | stops hs hstops =>
      cases hstops with
      | waits => exact h
      | stopped => exact readyDelivers_publish _ _ (by decide) (by decide)
      | restarts => exact readyDelivers_launch _
  | delivers g message rest isOpen hqueue =>
      have hafter : (s.updatePumpQueue g fun d => { d with waiting := rest }).ReadyDelivers := by
        refine readyDelivers_updatePumpQueue h fun d hd _ => .inl ?_
        rw [hqueue, Option.some.injEq] at hd
        rw [← hd]
      exact ⟨hafter.starting, hafter.ready⟩
  | loses g hs hqueue => exact readyDelivers_publish _ _ (by decide) (by decide)
  | rests g hqueue =>
      -- The queue was empty and closed, which is when a pump may stop.
      refine readyDelivers_updatePumpQueue h fun d hd _ => .inr ?_
      rw [hqueue, Option.some.injEq] at hd
      rw [← hd]
      exact ⟨rfl, rfl⟩
  | arrives g message d hqueue hopen =>
      refine readyDelivers_updatePumpQueue h fun d' hd hbefore => .inl ?_
      rw [hqueue, Option.some.injEq] at hd
      subst hd
      -- A pump that has stopped left a closed queue, and nothing arrives there.
      rcases hbefore with harmed | ⟨-, hclosed⟩
      · exact harmed
      · rw [hopen] at hclosed
        cases hclosed
  | closes g =>
      refine readyDelivers_updatePumpQueue h fun d _ hbefore => ?_
      exact hbefore.imp_right fun hrest => ⟨hrest.1, rfl⟩

/-- A delivery is one notification, of a session that is ready. -/
theorem deliveries_step {arrival? : Option (Nat × Notification)} (h : s.OnlyReadyDelivers)
    (hm : s.PumpStep arrival? t) : t.deliveries = s.deliveries ∨ ∃ (g : Nat) (message : Notification),
      t.deliveries = s.deliveries ++ [(g, message)] ∧ s.status = ⟨g, .ready⟩ ∧
        t.published = s.published := by
  cases hm with
  | leaves hm => exact .inl hm.deliveries
  | becomesReady hs hm =>
      obtain ⟨more, places, -⟩ := hm
      exact .inl (deliveries_updatePumpQueue _ _ _)
  | delivers g message rest isOpen hqueue =>
      have harmed : s.isArmed g := by simp [isArmed, hqueue]
      exact .inr ⟨g, message, rfl, h.armed g harmed, published_updatePumpQueue s g _⟩
  | loses g hs hqueue => exact .inl (deliveries_updatePumpQueue s g _)
  | arrives g message d hqueue hopen => exact .inl (deliveries_updatePumpQueue s g _)

end Dispatch

namespace Client

variable {c : Client} {g : Nat}

/-! ### Runs -/

/-- The notifications that connections queue in a run, each with the generation of its session. -/
def arrivals (c : Client) : List Event → List (Nat × Notification)
  | [] => []
  | event :: rest => (c.arrival? event).toList ++ (c.step event).arrivals rest

/-- The notifications that the connection of a session queues in a run. -/
def queued (c : Client) (events : List Event) (g : Nat) : List Notification :=
  messagesOf g (c.arrivals events)

/-- The notifications of a session that have been delivered. -/
def delivered (c : Client) (g : Nat) : List Notification := messagesOf g c.deliveries

/-- How the notifications of the sessions are delivered. -/
structure DeliversInOrder (c : Client) (events : List Event) : Prop where
  /-- What has been delivered of a session is the beginning of what its connection has queued. -/
  inOrder : ∀ g, (c.run events).delivered g <+: c.queued events g
  /-- An event delivers at most one notification.  Then the session is ready, every hook in the list
  has been set off for it, and it has not been published as stopped or as failed. -/
  timely : ∀ past event, past ++ [event] <+: events →
    (c.run (past ++ [event])).deliveries = (c.run past).deliveries ∨
      ∃ (g : Nat) (message : Notification),
        (c.run (past ++ [event])).deliveries = (c.run past).deliveries ++ [(g, message)] ∧
        (c.run past).status = ⟨g, .ready⟩ ∧
        (c.run (past ++ [event])).published = (c.run past).published ∧
        (∀ place < (c.run past).hooks.length, (c.run past).setOffs.count (place, g) = 1) ∧
        ⟨g, .stopped⟩ ∉ (c.run past).published ∧ ⟨g, .failed⟩ ∉ (c.run past).published
  /-- All that was queued has been delivered of a session that was ready and is lost. -/
  lost : ∀ g, ⟨g, .ready⟩ ∈ (c.run events).published → ⟨g, .failed⟩ ∈ (c.run events).published →
    (c.run events).delivered g = c.queued events g
  /-- While a session is ready, its pump can go on with what has been queued. -/
  goesOn : ∀ g, (c.run events).status = ⟨g, .ready⟩ →
    (c.run events).delivered g ≠ c.queued events g → ∃ message : Notification,
      (c.run (events ++ [.pump g])).delivered g = (c.run events).delivered g ++ [message]
  /-- Nothing is delivered of a session that was never ready. -/
  unready : ∀ g, ⟨g, .ready⟩ ∉ (c.run events).published → (c.run events).delivered g = []
  /-- Whatever is delivered of a session is delivered before anything of a later one. -/
  apart : ((c.run events).deliveries.map Prod.fst).Pairwise (· ≤ ·)

theorem arrivals_append (c : Client) (past future : List Event) :
    c.arrivals (past ++ future) = c.arrivals past ++ (c.run past).arrivals future := by
  induction past generalizing c with
  | nil => rfl
  | cons event rest ih =>
      rw [List.cons_append, arrivals, arrivals, ih, List.append_assoc]
      rfl

theorem onlyReadyDelivers_run (h : c.life.Orderly) (ht : c.life.HasChronicle)
    (hnew : c.dispatch = .empty)
    {events : List Event} (hkeeps : c.keepsTurns events) :
    (c.run events).dispatch.OnlyReadyDelivers :=
  dispatch_run (fun _ _ _ hs hm =>
    Dispatch.onlyReadyDelivers_step hs (Dispatch.pumpStep_of_step hm)) h ht
    (hnew ▸ Dispatch.onlyReadyDelivers_empty) hkeeps

theorem readyDelivers_run (h : c.life.Orderly) (ht : c.life.HasChronicle) (hnew : c.dispatch = .empty)
    {events : List Event} (hkeeps : c.keepsTurns events) : (c.run events).dispatch.ReadyDelivers :=
  dispatch_run (fun _ _ _ => Dispatch.readyDelivers_step) h ht
    (hnew ▸ Dispatch.readyDelivers_empty) hkeeps

/-- While something waits for a session that is ready, its pump delivers the first of that. -/
theorem delivered_pump (h : c.dispatch.ReadyDelivers) (hstatus : c.status = ⟨g, .ready⟩)
    (hwaiting : c.dispatch.waiting g ≠ []) : ∃ message : Notification,
      (c.step (.pump g)).delivered g = c.delivered g ++ [message] := by
  obtain harmed | ⟨hempty, -⟩ := h.ready g hstatus
  · unfold Dispatch.isArmed at harmed
    unfold Dispatch.waiting at hwaiting
    cases hqueue : c.dispatch.pumpQueue? g with
    | none => simp [hqueue] at hwaiting
    | some d =>
        obtain ⟨armed, waiting, isOpen⟩ := d
        have harmed' : armed = true := by simpa [hqueue] using harmed
        subst harmed'
        cases waiting with
        | nil => simp [hqueue] at hwaiting
        | cons message rest =>
            refine ⟨message, ?_⟩
            have hdispatch : (c.step (.pump g)).dispatch = _ :=
              (dispatch_tidy _).trans (dispatch_pump hqueue)
            have hdeliveries : (c.step (.pump g)).deliveries = c.deliveries ++ [(g, message)] :=
              congrArg Dispatch.deliveries hdispatch
            rw [delivered, hdeliveries, messagesOf_append, messagesOf_singleton, if_pos rfl]
            rfl
  · exact absurd hempty hwaiting

theorem pumpStep_snoc (h : c.life.Orderly) (ht : c.life.HasChronicle) {past : List Event}
    {event : Event} (hkeeps : c.keepsTurns (past ++ [event])) :
    (c.run past).dispatch.PumpStep ((c.run past).arrival? event) (c.run (past ++ [event])).dispatch :=
  Dispatch.pumpStep_of_step (dispatch_snoc h ht hkeeps)

/-- What has been delivered of a session and what still waits are what its connection has queued. -/
theorem account_run (h : c.life.Orderly) (ht : c.life.HasChronicle) (hnew : c.dispatch = .empty)
    {events : List Event} (hkeeps : c.keepsTurns events) (g : Nat) :
    (c.run events).delivered g ++ (c.run events).dispatch.waiting g = c.queued events g := by
  induction events using List.reverseRecOn with
  | nil =>
      have hdeliveries : c.deliveries = [] := congrArg Dispatch.deliveries hnew
      have hqueue : Dispatch.empty.pumpQueue? g = none := by
        simp [Dispatch.pumpQueue?, Dispatch.empty]
      rw [run_nil, delivered, hdeliveries, hnew, Dispatch.waiting, hqueue]
      rfl
  | append_singleton past event ih =>
      have ih := ih (keepsTurns_beginning (List.prefix_append _ _) hkeeps)
      have hstep := Dispatch.account_step (pumpStep_snoc h ht hkeeps) g
      have hbefore : messagesOf g (c.run past).dispatch.deliveries ++
        (c.run past).dispatch.waiting g =
          c.queued past g := ih
      rw [hbefore] at hstep
      refine hstep.trans ?_
      rw [queued, queued, arrivals_append, messagesOf_append, arrivals, arrivals, List.append_nil]

/-- While a session is published as ready, whatever was published before is of an earlier session,
or is that the session was starting. -/
theorem before_of_ready (ht : c.life.HasChronicle) (hstatus : c.status = ⟨g, .ready⟩) :
    ∀ status ∈ c.published, status = ⟨g, .ready⟩ ∨ status.Before ⟨g, .ready⟩ := by
  obtain ⟨fates, rfl, hupTo⟩ := Life.publishedUpTo_of_ready ht hstatus
  obtain ⟨all, hprefix⟩ := Course.prefix_of_publishedUpTo hupTo
  have hpairwise := pairwise_chronicle hprefix
  have hpublished : c.published =
      (chronicle fates ++ [⟨fates.length + 1, .starting⟩]) ++ [⟨fates.length + 1, .ready⟩] := by
    rw [List.append_assoc]
    exact hupTo.published
  have hpairwise' : c.published.Pairwise Status.Before := hpairwise
  rw [hpublished, List.pairwise_append] at hpairwise'
  intro status hmem
  rw [hpublished, List.mem_append] at hmem
  rcases hmem with hbefore | hlast
  · exact .inr (hpairwise'.2.2 status hbefore _ (List.mem_singleton_self _))
  · exact .inl (List.mem_singleton.mp hlast)

/-- While a session is published as ready, no end of it has been published. -/
theorem not_over_of_ready (ht : c.life.HasChronicle) (hstatus : c.status = ⟨g, .ready⟩)
    {state : SessionState} (hrank : state.rank = 2) : ⟨g, state⟩ ∉ c.published := by
  intro hmem
  rcases before_of_ready ht hstatus _ hmem with hlast | hless | ⟨-, hless⟩
  · rw [Status.mk.injEq] at hlast
    rw [hlast.2] at hrank
    cases hrank
  · exact absurd hless (Nat.lt_irrefl g)
  · rw [hrank] at hless
    exact absurd hless (show ¬ 2 < 1 by decide)

theorem apart_run (h : c.life.Orderly) (ht : c.life.HasChronicle) (hnew : c.dispatch = .empty)
    {events : List Event} (hkeeps : c.keepsTurns events) :
    ((c.run events).deliveries.map Prod.fst).Pairwise (· ≤ ·) := by
  induction events using List.reverseRecOn with
  | nil =>
      have hdeliveries : c.deliveries = [] := congrArg Dispatch.deliveries hnew
      rw [run_nil, hdeliveries]
      exact List.Pairwise.nil
  | append_singleton past event ih =>
      have hkept := keepsTurns_beginning (List.prefix_append past [event]) hkeeps
      have ih := ih hkept
      have honly := onlyReadyDelivers_run h ht hnew hkept
      rcases Dispatch.deliveries_step honly (pumpStep_snoc h ht hkeeps) with
        hsame | ⟨g, message, hmore, hstatus, -⟩
      · have hsame' : (c.run (past ++ [event])).deliveries = (c.run past).deliveries := hsame
        rw [hsame']
        exact ih
      · have hmore' : (c.run (past ++ [event])).deliveries =
            (c.run past).deliveries ++ [(g, message)] := hmore
        rw [hmore', List.map_append, List.pairwise_append]
        refine ⟨ih, List.pairwise_singleton _ _, ?_⟩
        -- An earlier delivery is of a session that became ready before.
        intro earlier hearlier later hlater
        obtain ⟨entry, hentry, rfl⟩ := List.mem_map.mp hearlier
        obtain rfl := List.mem_singleton.mp hlater
        have hready := honly.delivered entry hentry
        rcases before_of_ready (hasChronicle_run h ht hkept) hstatus _ hready with
            hlast | hbefore | hbefore
        · rw [Status.mk.injEq] at hlast
          exact Nat.le_of_eq hlast.1
        · exact Nat.le_of_lt hbefore
        · exact Nat.le_of_eq hbefore.1

/-- **Notifications are delivered in order, while their session is ready.**  After any events that
drop no turn, what has been delivered of every session is the beginning of what its connection has
queued, and all of it once the session is lost; of a session that was never ready nothing is
delivered; every delivery comes after the hooks of its session and before its end; and as long as
the session is ready, deliveries can go on. -/
theorem notifications_are_delivered_in_order (options : SessionOptions) (processId : Nat)
    (workspace : Workspace) (events : List Event)
    (hkeeps : (Client.new options processId workspace).keepsTurns events) :
    (Client.new options processId workspace).DeliversInOrder events := by
  have h := orderly_new options processId workspace
  have ht : (Client.new options processId workspace).life.HasChronicle := Life.hasChronicle_empty
  have hnew : (Client.new options processId workspace).dispatch = .empty := rfl
  have haccount := fun g => account_run h ht hnew hkeeps g
  have honly : ∀ {past}, (Client.new options processId workspace).keepsTurns past →
      ((Client.new options processId workspace).run past).dispatch.OnlyReadyDelivers :=
    fun hkept => onlyReadyDelivers_run h ht hnew hkept
  refine ⟨?_, ?_, ?_, ?_, ?_, apart_run h ht hnew hkeeps⟩
  · intro g
    exact ⟨_, haccount g⟩
  · intro past event hpast
    have hkeptAll := keepsTurns_beginning hpast hkeeps
    have hkept := keepsTurns_beginning (List.prefix_append past [event]) hkeptAll
    refine (Dispatch.deliveries_step (honly hkept) (pumpStep_snoc h ht hkeptAll)).imp_right ?_
    rintro ⟨g, message, hmore, hstatus, hpublished⟩
    have hsets := setsOff_run h ht hnew hkept
    -- While its last status is ready, a session has neither failed nor stopped.
    have hnotOver : ∀ state : SessionState, state.rank = 2 →
        ⟨g, state⟩ ∉ ((Client.new options processId workspace).run past).published :=
      fun _ => not_over_of_ready (hasChronicle_run h ht hkept) hstatus
    refine ⟨g, message, hmore, hstatus, hpublished, ?_, hnotOver _ rfl, hnotOver _ rfl⟩
    exact fun place hplace => (hsets.ready g hstatus place).trans (if_pos hplace)
  · intro g hready hfailed
    -- A session that crashed has nothing waiting, so all that came was delivered.
    have hwaiting := ((honly hkeeps).crashed g ⟨hready, hfailed⟩).1
    rw [← haccount g, hwaiting, List.append_nil]
  · intro g hstatus hmore
    rw [run_append]
    refine delivered_pump (readyDelivers_run h ht hnew hkeeps) hstatus ?_
    intro hempty
    rw [← haccount g, hempty, List.append_nil] at hmore
    exact hmore rfl
  · intro g hready
    rw [delivered, messagesOf, List.filterMap_eq_nil_iff]
    intro entry hentry
    rw [if_neg]
    rintro rfl
    exact hready ((honly hkeeps).delivered entry hentry)

/-- A notification that comes before the session is ready and one that comes after that are both
delivered before the session is lost. -/
theorem deliveries_of_a_lost_session :
    let note (method : String) : Json := .obj [("method", .str method)]
    let answer : Json :=
      .obj [("id", .ofNat 1), ("result", .obj [("capabilities", .obj [])])]
    let events : List Event := [.onReady (.observe "a"), .invoke .start, .poll 0,
      .launchSucceeded 1 false false, .poll 0, .connection 1 .start, .connection 1 .write,
      .connection 1 .finish,
      .connection 1 (.receive (Frame.encode (note "early") ++ Frame.encode answer)),
      .connection 1 .read, .connection 1 .handle, .pump 1, .connection 1 .read,
      .connection 1 .handle, .poll 0, .connection 1 (.receive (Frame.encode (note "late"))),
      .connection 1 .endOfStream, .connection 1 .read, .connection 1 .handle, .connection 1 .read,
      .pump 1, .connection 1 .write, .connection 1 .finish, .connection 1 .handle, .pump 1, .pump 1]
    let c := (Client.new {} 0 {}).run events
    (Client.new {} 0 {}).keepsTurns events ∧
      (c.delivered 1).map Notification.method = ["early", "late"] ∧
      c.published = [⟨1, .starting⟩, ⟨1, .ready⟩, ⟨1, .failed⟩] ∧
      (Client.new {} 0 {}).DeliversInOrder events := by
  intro note answer events c
  have hkeeps : (Client.new {} 0 {}).keepsTurns events := by decide +kernel
  have hseen : (c.delivered 1).map Notification.method = ["early", "late"] ∧
      c.published = [⟨1, .starting⟩, ⟨1, .ready⟩, ⟨1, .failed⟩] := by decide +kernel
  exact ⟨hkeeps, hseen.1, hseen.2, notifications_are_delivered_in_order {} 0 {} events hkeeps⟩

end Client
end LanguageClient
