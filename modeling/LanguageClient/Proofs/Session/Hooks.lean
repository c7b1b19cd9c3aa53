import LanguageClient.Proofs.Session.Handing
import LanguageClient.Proofs.Session.DispatchStep
import Mathlib.Data.List.Count
import Mathlib.Data.List.Induction

/-!
# Hooks run once for every session that is ready

Two places set hooks off: a session that becomes ready goes through the list, and a hook that is
added while a session is ready runs at once.  Together they set every hook off once for every
session that is ready while the hook is in the list, and for no other.

* `Dispatch.SetsOff` — the invariant: the hooks of a session that is ready, and of one that never was.
* `Dispatch.setsOff_step`, `Dispatch.count_setOffs_step`, `Dispatch.hooks_step` — what a step keeps.
* `Client.Sees` — a hook is in the list while a session is ready.
* **`Client.hooks_run_once`** — how often every hook is set off for every session.
-/

namespace LanguageClient

namespace Dispatch

variable {s t : Dispatch} {g place : Nat}

/-! ### Counting -/

theorem count_places (places : List Nat) (g g' place : Nat) :
    (places.map fun place => (place, g)).count (place, g') =
      if g = g' then places.count place else 0 := by
  induction places with
  | nil => simp
  | cons first rest ih =>
      rw [List.map_cons, List.count_cons, List.count_cons, ih]
      by_cases hg : g = g' <;> simp [hg]

/-- A hook that is added is set off once for the session that is ready. -/
theorem count_enroll (s : Dispatch) (more : List Hook) (g place : Nat) :
    (s.enroll more).setOffs.count (place, g) = s.setOffs.count (place, g) +
      if s.status = ⟨g, .ready⟩ ∧ s.hooks.length ≤ place ∧ place < (s.hooks ++ more).length then 1
      else 0 := by
  rw [enroll, List.count_append, List.length_append]
  congr 1
  split
  · rename_i hready
    rw [count_places, List.count_range_1']
    have hstate : s.status.state = .ready := by simpa [Status.isReady] using hready
    have hstatus : s.status = ⟨g, .ready⟩ ↔ s.status.generation = g := by
      rw [← hstate, Status.mk.injEq]
      simp
    by_cases hg : s.status.generation = g <;> simp [hg, hstatus]
  · rename_i hready
    have hstatus : s.status ≠ ⟨g, .ready⟩ := by
      intro hstatus
      rw [hstatus] at hready
      exact hready rfl
    simp [hstatus]

theorem count_becomesReady (h : s.BecomesReady g t) (g' place : Nat) :
    t.setOffs.count (place, g') = s.setOffs.count (place, g') +
      if g = g' ∧ place < t.hooks.length then 1 else 0 := by
  obtain ⟨more, places, hperm⟩ := h
  rw [setOffs_updatePumpQueue, hooks_updatePumpQueue, List.count_append, count_places, hperm.count_eq,
    List.count_range]
  by_cases hg : g = g' <;> simp [hg]

theorem status_becomesReady (h : s.BecomesReady g t) : t.status = ⟨g, .ready⟩ := by
  obtain ⟨more, places, hperm⟩ := h
  rw [status_updatePumpQueue]
  exact status_publish s g .ready

theorem published_becomesReady (h : s.BecomesReady g t) :
    t.published = s.published ++ [⟨g, .ready⟩] := by
  obtain ⟨more, places, hperm⟩ := h
  rw [published_updatePumpQueue]
  rfl

/-! ### What a step does to the hooks -/

/-- No hook is added or set off, and no session becomes ready. -/
structure LeavesHooks (s t : Dispatch) : Prop where
  hooks : t.hooks = s.hooks
  setOffs : t.setOffs = s.setOffs
  ready : ∀ g, t.status = ⟨g, .ready⟩ → s.status = ⟨g, .ready⟩

theorem leavesHooks_updatePumpQueue (s : Dispatch) (g : Nat) (f : PumpQueue → PumpQueue) :
    s.LeavesHooks (s.updatePumpQueue g f) where
  hooks := hooks_updatePumpQueue s g f
  setOffs := setOffs_updatePumpQueue s g f
  ready _ hstatus := by rwa [status_updatePumpQueue] at hstatus

theorem leavesHooks_publish {r : Dispatch} (h : s.LeavesHooks r) (g : Nat) {state : SessionState}
    (hstate : state ≠ .ready) : s.LeavesHooks (r.publish g state) where
  hooks := h.hooks
  setOffs := h.setOffs
  ready g' hstatus := by
    rw [status_publish, Status.mk.injEq] at hstatus
    exact absurd hstatus.2 hstate

theorem leavesHooks_launch {r : Dispatch} (h : s.LeavesHooks r) : s.LeavesHooks r.launch := by
  obtain ⟨hhooks, hset, hready⟩ := leavesHooks_publish h (r.pumpQueues.length + 1)
    (show SessionState.starting ≠ .ready by decide)
  exact ⟨hhooks, hset, hready⟩

/-- Hooks are left alone, are added, or are all set off for a session that becomes ready. -/
theorem hooks_cases {arrival? : Option (Nat × Notification)} (hm : s.Step arrival? t) :
    s.LeavesHooks t ∨ (∃ more : List Hook, (s.enroll more).LeavesHooks t ∧
      (s.status.isReady → t.status = s.status)) ∨ ∃ g, s.IsStarting g ∧ s.BecomesReady g t := by
  have hsame : s.LeavesHooks s := ⟨rfl, rfl, fun _ h => h⟩
  have hqueue := leavesHooks_updatePumpQueue s
  cases hm with
  | stays => exact .inl hsame
  | enrolls more => exact .inr (.inl ⟨more, ⟨rfl, rfl, fun _ h => h⟩, fun _ => rfl⟩)
  | launches more hready =>
      refine .inr (.inl ⟨more, leavesHooks_launch ⟨rfl, rfl, fun _ h => h⟩, ?_⟩)
      rw [hready]
      intro h
      cases h
  | @starts g t hs hstarts =>
      cases hstarts with
      | waits => exact .inl hsame
      | ready hbecomes => exact .inr (.inr ⟨g, hs, hbecomes⟩)
      | failed => exact .inl (leavesHooks_publish hsame g (by decide))
      | refused => exact .inl (leavesHooks_publish (hqueue g _) g (by decide))
  | @stops g t hs hstops =>
      have hstopped : s.LeavesHooks ((s.updatePumpQueue g .disarm).publish g .stopped) :=
        leavesHooks_publish (hqueue g _) g (by decide)
      cases hstops with
      | waits => exact .inl hsame
      | stopped => exact .inl hstopped
      | restarts => exact .inl (leavesHooks_launch hstopped)
  | delivers g message rest isOpen h =>
      obtain ⟨hhooks, hset, hready⟩ := hqueue g fun d => { d with waiting := rest }
      exact .inl ⟨hhooks, hset, hready⟩
  | loses g hs h => exact .inl (leavesHooks_publish (hqueue g _) g (by decide))
  | rests g h => exact .inl (hqueue g _)
  | arrives g message d h hopen => exact .inl (hqueue g _)
  | closes g => exact .inl (hqueue g _)

/-- Statuses are only added, and a session that becomes ready is so after the step. -/
theorem published_step {arrival? : Option (Nat × Notification)} (hm : s.Step arrival? t) :
    ∃ new : List Status, t.published = s.published ++ new ∧
      ∀ g, ⟨g, .ready⟩ ∈ new → t.status = ⟨g, .ready⟩ := by
  have hsame : ∀ {t : Dispatch}, t.published = s.published → ∃ new : List Status,
      t.published = s.published ++ new ∧ ∀ g, ⟨g, .ready⟩ ∈ new → t.status = ⟨g, .ready⟩ :=
    fun h => ⟨[], by simpa using h, by simp⟩
  -- A status other than ready makes no session ready.
  have hpublish : ∀ {r : Dispatch} (g : Nat) {state : SessionState}, r.published = s.published →
      state ≠ .ready → ∃ new : List Status, (r.publish g state).published = s.published ++ new ∧
        ∀ g', ⟨g', .ready⟩ ∈ new → (r.publish g state).status = ⟨g', .ready⟩ := by
    intro r g state h hstate
    refine ⟨[⟨g, state⟩], by rw [← h]; rfl, ?_⟩
    intro g' hmem
    rw [List.mem_singleton, Status.mk.injEq] at hmem
    exact absurd hmem.2.symm hstate
  have hqueue := fun g f => published_updatePumpQueue s g f
  cases hm with
  | stays => exact hsame rfl
  | enrolls more => exact hsame rfl
  | launches more hready =>
      have hstarting : SessionState.starting ≠ .ready := by decide
      exact hpublish (r := s.enroll more) (s.pumpQueues.length + 1) rfl hstarting
  | @starts g t hs hstarts =>
      cases hstarts with
      | waits => exact hsame rfl
      | ready hbecomes =>
          refine ⟨_, published_becomesReady hbecomes, ?_⟩
          intro g' hmem
          rw [List.mem_singleton] at hmem
          rw [status_becomesReady hbecomes, hmem]
      | failed => exact hpublish g rfl (by decide)
      | refused => exact hpublish g (hqueue g _) (by decide)
  | @stops g t hs hstops =>
      cases hstops with
      | waits => exact hsame rfl
      | stopped => exact hpublish g (hqueue g _) (by decide)
      | restarts =>
          refine ⟨[⟨g, .stopped⟩, ⟨(s.updatePumpQueue g .disarm).pumpQueues.length + 1, .starting⟩],
            ?_, ?_⟩
          · simp [launch, publish]
          · simp
  | delivers g message rest isOpen h => exact hsame (hqueue g _)
  | loses g hs h => exact hpublish g (hqueue g _) (by decide)
  | rests g h => exact hsame (hqueue g _)
  | arrives g message d h hopen => exact hsame (hqueue g _)
  | closes g => exact hsame (hqueue g _)

/-! ### What a step keeps -/

/-- For a session that is ready every hook has been set off once; for one that was never ready, none
has been. -/
structure SetsOff (s : Dispatch) : Prop where
  ready : ∀ g, s.status = ⟨g, .ready⟩ →
    ∀ place, s.setOffs.count (place, g) = if place < s.hooks.length then 1 else 0
  never : ∀ g, ⟨g, .ready⟩ ∉ s.published → ∀ place, s.setOffs.count (place, g) = 0

theorem setsOff_empty : empty.SetsOff where
  ready _ hstatus := by cases hstatus
  never _ _ _ := rfl

theorem setsOff_of_leaves (h : s.SetsOff) (hm : s.LeavesHooks t)
    (hpublished : s.published <+: t.published) : t.SetsOff where
  ready g hstatus := by
    rw [hm.setOffs, hm.hooks]
    exact h.ready g (hm.ready g hstatus)
  never g hnever := by
    rw [hm.setOffs]
    exact h.never g fun hmem => hnever (hpublished.subset hmem)

theorem mem_published_of_status (h : s.status = ⟨g, .ready⟩) : ⟨g, .ready⟩ ∈ s.published := by
  unfold status at h
  rw [List.getLastD_eq_getLast?] at h
  cases hlast : s.published.getLast? with
  | none =>
      rw [hlast] at h
      cases h
  | some status =>
      rw [hlast, Option.getD_some] at h
      exact h ▸ List.mem_of_getLast? hlast

theorem setsOff_enroll (h : s.SetsOff) (more : List Hook) : (s.enroll more).SetsOff where
  ready g hstatus := by
    have hs : s.status = ⟨g, .ready⟩ := hstatus
    have hhooks : (s.enroll more).hooks = s.hooks ++ more := rfl
    intro place
    rw [count_enroll, h.ready g hs, hhooks, List.length_append]
    simp only [hs, true_and]
    split <;> split <;> split <;> omega
  never g hnever place := by
    have hs : s.status ≠ ⟨g, .ready⟩ := fun hs => hnever (mem_published_of_status hs)
    rw [count_enroll, h.never g hnever, if_neg fun hboth => hs hboth.1]

/-- A session that becomes ready was not ready before. -/
theorem setsOff_becomesReady (h : s.SetsOff) (hs : s.IsStarting g) (ht : s.BecomesReady g t) :
    t.SetsOff where
  ready g' hstatus := by
    rw [status_becomesReady ht, Status.mk.injEq] at hstatus
    obtain rfl := hstatus.1
    -- Nothing has been set off for it before, and now every place is once.
    intro place
    have hfresh : ⟨g, .ready⟩ ∉ s.published := fun hmem => by cases hs.first _ hmem rfl
    rw [count_becomesReady ht, h.never g hfresh, Nat.zero_add]
    simp
  never g' hnever place := by
    rw [published_becomesReady ht, List.mem_append, List.mem_singleton, not_or, Status.mk.injEq]
      at hnever
    have hne : g ≠ g' := fun heq => hnever.2 ⟨heq.symm, rfl⟩
    rw [count_becomesReady ht, h.never g' hnever.1, if_neg fun hboth => hne hboth.1]

theorem setsOff_step {arrival? : Option (Nat × Notification)} (h : s.SetsOff)
    (hm : s.Step arrival? t) : t.SetsOff := by
  obtain ⟨new, hnew, -⟩ := published_step hm
  have hpublished : s.published <+: t.published := hnew ▸ List.prefix_append _ _
  rcases hooks_cases hm with hleaves | ⟨more, hleaves, -⟩ | ⟨g, hs, hbecomes⟩
  · exact setsOff_of_leaves h hleaves hpublished
  · exact setsOff_of_leaves (setsOff_enroll h more) hleaves hpublished
  · exact setsOff_becomesReady h hs hbecomes

/-- A hook is set off for no session but the one that is ready after the step. -/
theorem count_setOffs_step {arrival? : Option (Nat × Notification)} (hm : s.Step arrival? t)
    (hnot : t.status ≠ ⟨g, .ready⟩) (place : Nat) :
    t.setOffs.count (place, g) = s.setOffs.count (place, g) := by
  rcases hooks_cases hm with hleaves | ⟨more, hleaves, hsame⟩ | ⟨g', -, hbecomes⟩
  · rw [hleaves.setOffs]
  · have hs : s.status ≠ ⟨g, .ready⟩ := by
      intro hs
      exact hnot ((hsame (by rw [hs]; rfl)).trans hs)
    rw [hleaves.setOffs, count_enroll, if_neg fun hboth => hs hboth.1, Nat.add_zero]
  · rw [status_becomesReady hbecomes] at hnot
    rw [count_becomesReady hbecomes, if_neg fun hboth => hnot (by rw [hboth.1]), Nat.add_zero]

/-- Hooks stay in their places. -/
theorem hooks_step {arrival? : Option (Nat × Notification)} (hm : s.Step arrival? t) :
    s.hooks <+: t.hooks := by
  rcases hooks_cases hm with hleaves | ⟨more, hleaves, -⟩ | ⟨g, -, hbecomes⟩
  · exact hleaves.hooks ▸ List.prefix_refl _
  · rw [hleaves.hooks]
    exact List.prefix_append _ _
  · obtain ⟨more, places, -⟩ := hbecomes
    rw [hooks_updatePumpQueue]
    exact List.prefix_append _ _

end Dispatch

namespace Client

variable {c : Client} {g place k : Nat}

/-- After some beginning of a run, a session is published as ready and a place of the list of hooks
is taken. -/
def Sees (c : Client) (events : List Event) (place g : Nat) : Prop :=
  ∃ past, past <+: events ∧ (c.run past).status = ⟨g, .ready⟩ ∧ place < (c.run past).hooks.length

/-- How the hooks run for the sessions. -/
structure HooksRunOnce (c : Client) (events : List Event) : Prop where
  /-- A hook that is in the list while a session is ready is set off for it exactly once. -/
  once : ∀ place g, c.Sees events place g → (c.run events).setOffs.count (place, g) = 1
  /-- It is set off for no other session. -/
  never : ∀ place g, ¬ c.Sees events place g → (place, g) ∉ (c.run events).setOffs
  /-- A session that becomes ready is so after some event, and no other one is. -/
  ready : ∀ g, ⟨g, .ready⟩ ∈ (c.run events).published ↔
    ∃ past, past <+: events ∧ (c.run past).status = ⟨g, .ready⟩
  /-- A hook stays in its place. -/
  kept : ∀ past, past <+: events → (c.run past).hooks <+: (c.run events).hooks
  /-- The event by which the status moves on from a session that is ready adds no hook. -/
  added : ∀ past event, past ++ [event] <+: events → (c.run past).status.isReady →
    (c.run (past ++ [event])).status ≠ (c.run past).status →
      (c.run (past ++ [event])).hooks = (c.run past).hooks
  /-- When a call ends with a session, every hook has been set off for that. -/
  handed : ∀ past event k g, past ++ [event] <+: events →
    (c.run past).outcome? k ≠ some (.session g) →
      (c.run (past ++ [event])).outcome? k = some (.session g) →
        ∀ place < (c.run (past ++ [event])).hooks.length,
          (c.run (past ++ [event])).setOffs.count (place, g) = 1

/-! ### Runs -/

theorem run_nil (c : Client) : c.run [] = c := rfl

/-- The last event of a run is a step for hooks and pumps. -/
theorem dispatch_snoc (h : c.life.Orderly) (ht : c.life.HasChronicle) {past : List Event}
    {event : Event} (hkeeps : c.keepsTurns (past ++ [event])) :
    (c.run past).dispatch.Step ((c.run past).arrival? event) (c.run (past ++ [event])).dispatch := by
  rw [keepsTurns_append, Bool.and_eq_true] at hkeeps
  rw [run_append]
  exact dispatch_step (orderly_run h past) (hasChronicle_run h ht hkeeps.1) event

theorem keepsTurns_beginning {past events : List Event} (hpast : past <+: events)
    (hkeeps : c.keepsTurns events) : c.keepsTurns past := by
  obtain ⟨future, rfl⟩ := hpast
  rw [keepsTurns_append, Bool.and_eq_true] at hkeeps
  exact hkeeps.1

/-- What every step for hooks and pumps keeps, a run keeps that drops no turn. -/
theorem dispatch_run {P : Dispatch → Prop}
    (hstep : ∀ (s t : Dispatch) (arrival? : Option (Nat × Notification)),
      P s → s.Step arrival? t → P t)
    (h : c.life.Orderly) (ht : c.life.HasChronicle) (hc : P c.dispatch) {events : List Event}
    (hkeeps : c.keepsTurns events) : P (c.run events).dispatch := by
  induction events using List.reverseRecOn with
  | nil => exact hc
  | append_singleton past event ih =>
      exact hstep _ _ _ (ih (keepsTurns_beginning (List.prefix_append _ _) hkeeps))
        (dispatch_snoc h ht hkeeps)

theorem dispatch_run_between {P : Dispatch → Dispatch → Prop} (hrefl : ∀ s, P s s)
    (hstep : ∀ (r s t : Dispatch) (arrival? : Option (Nat × Notification)), P r s →
      s.Step arrival? t →
      P r t)
    (h : c.life.Orderly) (ht : c.life.HasChronicle) {past events : List Event}
    (hpast : past <+: events)
    (hkeeps : c.keepsTurns events) : P (c.run past).dispatch (c.run events).dispatch := by
  obtain ⟨future, rfl⟩ := hpast
  rw [keepsTurns_append, Bool.and_eq_true] at hkeeps
  rw [run_append]
  exact dispatch_run (P := P (c.run past).dispatch) (fun s t _ hs hm => hstep _ s t _ hs hm)
    (orderly_run h past) (hasChronicle_run h ht hkeeps.1) (hrefl _) hkeeps.2

theorem setsOff_run (h : c.life.Orderly) (ht : c.life.HasChronicle) (hnew : c.dispatch = .empty)
    {events : List Event} (hkeeps : c.keepsTurns events) : (c.run events).dispatch.SetsOff :=
  dispatch_run (fun _ _ _ => Dispatch.setsOff_step) h ht (hnew ▸ Dispatch.setsOff_empty) hkeeps

theorem hooks_run (h : c.life.Orderly) (ht : c.life.HasChronicle) {past events : List Event}
    (hpast : past <+: events) (hkeeps : c.keepsTurns events) :
    (c.run past).hooks <+: (c.run events).hooks :=
  dispatch_run_between (P := fun s t => s.hooks <+: t.hooks) (fun _ => List.prefix_refl _)
    (fun _ _ _ _ hs hm => hs.trans (Dispatch.hooks_step hm)) h ht hpast hkeeps

theorem published_run (h : c.life.Orderly) (ht : c.life.HasChronicle) {past events : List Event}
    (hpast : past <+: events) (hkeeps : c.keepsTurns events) :
    (c.run past).published <+: (c.run events).published := by
  refine dispatch_run_between (P := fun s t => s.published <+: t.published)
    (fun _ => List.prefix_refl _) ?_ h ht hpast hkeeps
  intro r s t arrival? hs hm
  obtain ⟨new, hnew, -⟩ := Dispatch.published_step hm
  exact hs.trans (hnew ▸ List.prefix_append _ _)

theorem sees_snoc (events : List Event) (event : Event) : c.Sees (events ++ [event]) place g ↔
    c.Sees events place g ∨ (c.run (events ++ [event])).status = ⟨g, .ready⟩ ∧
      place < (c.run (events ++ [event])).hooks.length := by
  simp only [Sees, List.prefix_concat_iff]
  constructor
  · rintro ⟨past, rfl | hpast, hsees⟩
    · exact .inr hsees
    · exact .inl ⟨past, hpast, hsees⟩
  · rintro (⟨past, hpast, hsees⟩ | hsees)
    · exact ⟨past, .inr hpast, hsees⟩
    · exact ⟨_, .inl rfl, hsees⟩

/-- How often a hook has been set off for a session. -/
theorem count_run (h : c.life.Orderly) (ht : c.life.HasChronicle) (hnew : c.dispatch = .empty)
    {events : List Event} (hkeeps : c.keepsTurns events) (place g : Nat) :
    (c.Sees events place g → (c.run events).setOffs.count (place, g) = 1) ∧
      (¬ c.Sees events place g → (c.run events).setOffs.count (place, g) = 0) := by
  -- What an event adds is read off what is there after it: the hooks of the session that is then
  -- ready.
  induction events using List.reverseRecOn with
  | nil =>
      have hset : c.setOffs = [] := congrArg Dispatch.setOffs hnew
      have hstatus : c.status = {} := congrArg Dispatch.status hnew
      refine ⟨?_, fun _ => ?_⟩
      · rintro ⟨past, hpast, hready, -⟩
        rw [List.prefix_nil.mp hpast, run_nil, hstatus] at hready
        cases hready
      · rw [run_nil, hset, List.count_nil]
  | append_singleton events event ih =>
      have hkept := keepsTurns_beginning (List.prefix_append events [event]) hkeeps
      have ih := ih hkept
      have hsets := setsOff_run h ht hnew hkeeps
      rw [sees_snoc]
      by_cases hready : (c.run (events ++ [event])).status = ⟨g, .ready⟩
      · have hcount : (c.run (events ++ [event])).setOffs.count (place, g) =
            if place < (c.run (events ++ [event])).hooks.length then 1 else 0 :=
          hsets.ready g hready place
        rw [hcount]
        constructor
        · intro hsees
          rw [if_pos]
          rcases hsees with ⟨past, hpast, -, hplace⟩ | ⟨-, hplace⟩
          · have hkeep := hooks_run h ht (hpast.trans (List.prefix_append _ _)) hkeeps
            exact Nat.lt_of_lt_of_le hplace hkeep.length_le
          · exact hplace
        · intro hnot
          rw [if_neg fun hplace => hnot (.inr ⟨hready, hplace⟩)]
      · have hsame : (c.run (events ++ [event])).setOffs.count (place, g) =
            (c.run events).setOffs.count (place, g) :=
          Dispatch.count_setOffs_step (dispatch_snoc h ht hkeeps) hready place
        rw [hsame]
        exact ⟨fun hsees => ih.1 (hsees.resolve_right fun hboth => hready hboth.1),
          fun hnot => ih.2 fun hsees => hnot (.inl hsees)⟩

theorem ready_run (h : c.life.Orderly) (ht : c.life.HasChronicle) (hnew : c.dispatch = .empty)
    {events : List Event} (hkeeps : c.keepsTurns events)
    (hready : ⟨g, .ready⟩ ∈ (c.run events).published) :
    ∃ past, past <+: events ∧ (c.run past).status = ⟨g, .ready⟩ := by
  induction events using List.reverseRecOn with
  | nil =>
      have hpublished : c.published = [] := congrArg Dispatch.published hnew
      rw [run_nil, hpublished] at hready
      cases hready
  | append_singleton events event ih =>
      obtain ⟨new, hnew, hlast⟩ := Dispatch.published_step (dispatch_snoc h ht hkeeps)
      have hmem : ⟨g, .ready⟩ ∈ (c.run events).published ++ new := hnew ▸ hready
      rcases List.mem_append.mp hmem with hold | hfresh
      · obtain ⟨past, hpast, hstatus⟩ :=
          ih (keepsTurns_beginning (List.prefix_append events [event]) hkeeps) hold
        exact ⟨past, hpast.trans (List.prefix_append _ _), hstatus⟩
      · exact ⟨_, List.prefix_refl _, hlast g hfresh⟩

/-- **Hooks run once for every session that is ready.**  After any events that drop no turn, every
hook has been set off exactly once for every session that was ready while the hook was in the list,
and for no other session; and a call ends with a session only when every hook has been set off for
it. -/
theorem hooks_run_once (options : SessionOptions) (processId : Nat) (workspace : Workspace)
    (events : List Event) (hkeeps : (Client.new options processId workspace).keepsTurns events) :
    (Client.new options processId workspace).HooksRunOnce events := by
  have h := orderly_new options processId workspace
  have ht : (Client.new options processId workspace).life.HasChronicle := Life.hasChronicle_empty
  have hnew : (Client.new options processId workspace).dispatch = .empty := rfl
  have hcount := fun place g => count_run h ht hnew hkeeps place g
  refine ⟨fun place g => (hcount place g).1, ?_, ?_, ?_, ?_, ?_⟩
  · intro place g hnot
    exact List.count_eq_zero.mp ((hcount place g).2 hnot)
  · intro g
    refine ⟨ready_run h ht hnew hkeeps, ?_⟩
    rintro ⟨past, hpast, hstatus⟩
    have hmem := Dispatch.mem_published_of_status (s := (run _ past).dispatch) hstatus
    exact (published_run h ht hpast hkeeps).subset hmem
  · intro past hpast
    exact hooks_run h ht hpast hkeeps
  · intro past event hpast hready hmoves
    rcases Dispatch.hooks_cases (dispatch_snoc h ht (keepsTurns_beginning hpast hkeeps)) with
      hleaves | ⟨more, -, hsame⟩ | ⟨g, hstarting, -⟩
    · exact hleaves.hooks
    · exact absurd (hsame hready) hmoves
    · rw [← status_dispatch, hstarting.status] at hready
      cases hready
  · -- A call that ends with a session does so while that is ready.
    intro past event k g hpast hbefore hafter place hplace
    have hsets := setsOff_run h ht hnew (keepsTurns_beginning hpast hkeeps)
    rw [run_append] at hafter
    have hready := (outcome?_step (orderly_run h past) event hafter).resolve_left hbefore
    rw [run_append] at hplace hsets ⊢
    exact (hsets.ready g hready place).trans (if_pos hplace)

/-- A hook adds another one when the first session becomes ready, and a third one is added after
that. -/
theorem hooks_of_a_first_session :
    let answer : Json :=
      .obj [("id", .ofNat 1), ("result", .obj [("capabilities", .obj [])])]
    let events : List Event := [.onReady (.enroll (.observe "a")), .invoke .start, .poll 0,
      .launchSucceeded 1 false false, .poll 0, .connection 1 .start, .connection 1 .write,
      .connection 1 .finish, .connection 1 (.receive (Frame.encode answer)), .connection 1 .read,
      .connection 1 .handle, .poll 0, .onReady (.observe "b")]
    (Client.new {} 0 {}).keepsTurns events ∧
      ((Client.new {} 0 {}).run events).setOffs = [(0, 1), (1, 1), (2, 1)] ∧
      (Client.new {} 0 {}).HooksRunOnce events := by
  intro answer events
  have hkeeps : (Client.new {} 0 {}).keepsTurns events := by decide +kernel
  exact ⟨hkeeps, by decide +kernel, hooks_run_once {} 0 {} events hkeeps⟩

end Client
end LanguageClient
