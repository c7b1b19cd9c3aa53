import LanguageClient.Proofs.Session.Fates
import LanguageClient.Proofs.Session.Ownership

/-!
# The chronicle of the sessions

Five places publish a status, and the one that reports a lost session does not hold the lock.  As
long as no caller goes away in its turn, the statuses are nevertheless the beginning of a chronicle:
one block for every session, one session after the other.

* `Stage`, `Course.PublishedUpTo` — how much of the block of the latest session has been published.
* `Life.HasChronicle` — the invariant: the stage, and who will bring the block to its end.
* `Life.hasChronicle_step` — every step in which no turn is dropped keeps it.
* **`Client.published_is_the_beginning_of_a_chronicle`** — the statuses after any events.
-/

namespace LanguageClient

/-! ### How far the latest session has come -/

/-- How much of the block of the latest session has been published. -/
inductive Stage where
  /-- All of it. -/
  | ended
  /-- That it is starting. -/
  | starting
  /-- That it is starting and that it is ready. -/
  | ready

/-- The statuses of a session that has come to a stage. -/
def Stage.part (g : Nat) : Stage → List Status
  | ended => []
  | starting => [⟨g, .starting⟩]
  | ready => [⟨g, .starting⟩, ⟨g, .ready⟩]

/-- How many sessions are in a stage before their end. -/
def Stage.begun : Stage → Nat
  | ended => 0
  | starting => 1
  | ready => 1

namespace Course

/-- The sessions before the latest one had these fates, and the latest one has come to a stage. -/
structure PublishedUpTo (s : Course) (fates : List Fate) (stage : Stage) : Prop where
  published : s.published = chronicle fates ++ stage.part (fates.length + 1)
  generation : s.generation = fates.length + stage.begun

variable {s : Course} {fates : List Fate} {g : Nat}

/-- The last status of a chronicle is an end. -/
theorem status_of_ended (h : s.PublishedUpTo fates .ended) :
    s.status.state = .stopped ∨ s.status.state = .failed := by
  have hpublished : s.published = chronicle fates := by simpa [Stage.part] using h.published
  rw [status, hpublished]
  rcases List.eq_nil_or_concat fates with rfl | ⟨earlier, fate, rfl⟩
  · exact .inl rfl
  · rw [List.concat_eq_append, chronicle_append]
    cases fate <;> simp [Fate.block]

theorem status_of_starting (h : s.PublishedUpTo fates .starting) :
    s.status = ⟨fates.length + 1, .starting⟩ := by
  simp [status, h.published, Stage.part]

theorem status_of_ready (h : s.PublishedUpTo fates .ready) :
    s.status = ⟨fates.length + 1, .ready⟩ := by
  simp [status, h.published, Stage.part]

/-! ### From stage to stage -/

theorem publishedUpTo_launch (h : s.PublishedUpTo fates .ended) :
    s.launch.PublishedUpTo fates .starting where
  published := by
    have hgeneration : s.generation = fates.length := h.generation
    simp [launch, publish, h.published, hgeneration, Stage.part]
  generation := congrArg (· + 1) h.generation

theorem publishedUpTo_ready (h : s.PublishedUpTo fates .starting) :
    (s.ready (fates.length + 1)).PublishedUpTo fates .ready where
  published := by simp [ready, publish, h.published, Stage.part]
  generation := h.generation

/-- The last status of a block brings the latest session to its end. -/
theorem publishedUpTo_end {stage : Stage} (fate : Fate) {state : SessionState}
    (h : s.PublishedUpTo fates stage)
    (hbegun : stage.begun = 1)
    (hblock : fate.block (fates.length + 1) =
      stage.part (fates.length + 1) ++ [⟨fates.length + 1, state⟩]) :
    (s.publish (fates.length + 1) state).PublishedUpTo (fates ++ [fate]) .ended where
  published := by simp [publish, h.published, chronicle_append, hblock, Stage.part]
  generation := by
    have hgeneration := h.generation
    rw [hbegun] at hgeneration
    simpa [publish, Stage.begun] using hgeneration

theorem publishedUpTo_letGo {stage : Stage} (h : s.PublishedUpTo fates stage) :
    s.letGo.PublishedUpTo fates stage :=
  ⟨h.published, h.generation⟩

/-- Whatever the stage, the block of the latest session can be brought to an end. -/
theorem prefix_of_publishedUpTo {stage : Stage} (h : s.PublishedUpTo fates stage) :
    ∃ all : List Fate, s.published <+: chronicle all := by
  cases stage with
  | ended =>
      refine ⟨fates, ?_⟩
      rw [h.published]
      simp [Stage.part]
  | starting =>
      refine ⟨fates ++ [.failed], ?_⟩
      rw [h.published, chronicle_append]
      simp [Stage.part, Fate.block]
  | ready =>
      refine ⟨fates ++ [.lost], ?_⟩
      rw [h.published, chronicle_append]
      simp [Stage.part, Fate.block]

end Course

/-! ### The invariant -/

namespace Life

/-- What has been published of the latest session, and who will publish the rest: the call that
starts it; or its pump, as long as it is owned, or the call that stops it.  When nobody holds the
client, nobody will. -/
def HasChronicle (l : Life) : Prop :=
  ∃ fates : List Fate,
    l.course.PublishedUpTo fates .ended ∨
    (l.course.PublishedUpTo fates .starting ∧
      ∃ (k : Nat) (call : Call), l.calls[k]? = some call ∧ (call.phase.startOf?).isSome) ∨
    (l.course.PublishedUpTo fates .ready ∧
      (l.course.slot.isSome ∨ l.isHeld = false ∨
        ∃ (k : Nat) (call : Call), l.calls[k]? = some call ∧ (call.phase.stopOf?).isSome))

variable {l m : Life} {k : Nat} {call : Call}

theorem hasChronicle_empty : HasChronicle ⟨⟨[], [], 0, none⟩, {}, [], false⟩ := ⟨[], .inl ⟨rfl, rfl⟩⟩

/-! ### Changes that leave the sessions alone -/

theorem isHeld_of_setPhase (hcall : l.calls[k]? = some call) {phase : Phase}
    (h : (l.setPhase k phase).isHeld) :
    l.isHeld ∨ ({ call with phase } : Call).holdsClient := by
  simp only [isHeld, Bool.or_eq_true, List.any_eq_true] at h
  rcases h with hreleased | ⟨other, hmem, hholds⟩
  · left
    have hsame : (l.setPhase k phase).released = l.released := rfl
    rw [hsame] at hreleased
    simp [isHeld, hreleased]
  · obtain ⟨i, hi⟩ := List.mem_iff_getElem?.mp hmem
    rcases call_of_setPhase hcall hi with ⟨-, rfl⟩ | ⟨-, hi⟩
    · exact .inr hholds
    · exact .inl (isHeld_of_holdsClient hi hholds)

/-- Nobody comes to hold a client that nobody holds. -/
theorem isHeld_of_callChange (h : l.CallChange m) (hm : m.isHeld) : l.isHeld := by
  have hkeep : ∀ (l' : Life) (k : Nat) (call : Call) (phase : Phase), l'.calls[k]? = some call →
      l'.MayHold call phase → (l'.setPhase k phase).isHeld → l'.isHeld := by
    intro l' k call phase hcall hmay hheld
    rcases isHeld_of_setPhase hcall hheld with hl | hholds
    · exact hl
    · rcases hmay with hl | hnot
      · exact hl
      · rw [hnot] at hholds
        cases hholds
  cases h with
  | enter operation hheld =>
      rcases hheld with hl | hneeds
      · exact hl
      · have hnot : ({ operation } : Call).holdsClient = false := by
          cases operation <;> simp_all [Operation.needsClient, Call.holdsClient, Phase.hasBegun]
        simpa [isHeld, hnot] using hm
  | shift k call phase hcall hline hover hphase hheld => exact hkeep l k call phase hcall hheld hm
  | ask k call phase hcall hline hover hphase hheld =>
      exact hkeep { l with lock := l.lock.acquire k } k call phase hcall hheld hm
  | quit k call phase hcall hwaits hphase hheld =>
      exact hkeep { l with lock := l.lock.leave k } k call phase hcall hheld hm
  | release =>
      have hany : l.calls.any Call.holdsClient := by simpa [isHeld] using hm
      simp [isHeld, hany]

theorem hasChronicle_callChange (h : l.HasChronicle) (hm : l.CallChange m) : m.HasChronicle := by
  obtain ⟨fates, h⟩ := h
  have hcourse := course_callChange hm
  refine ⟨fates, ?_⟩
  rw [hcourse]
  rcases h with hended | ⟨hstarting, k, call, hcall, hphase⟩ | ⟨hready, hwho⟩
  · exact .inl hended
  · obtain ⟨g, hg⟩ := Option.isSome_iff_exists.mp hphase
    have hkept := getElem?_callChange hm hcall (.inl (Phase.isTurn_of_startOf? hg))
    exact .inr (.inl ⟨hstarting, k, call, hkept, hphase⟩)
  · refine .inr (.inr ⟨hready, ?_⟩)
    rcases hwho with hslot | hheld | ⟨k, call, hcall, hphase⟩
    · exact .inl hslot
    · refine .inr (.inl ?_)
      rw [Bool.eq_false_iff] at hheld ⊢
      exact fun hm' => hheld (isHeld_of_callChange hm hm')
    · obtain ⟨g, hg⟩ := Option.isSome_iff_exists.mp hphase
      have hkept := getElem?_callChange hm hcall (.inl (Phase.isTurn_of_stopOf? hg))
      exact .inr (.inr ⟨k, call, hkept, hphase⟩)

/-! ### Turns -/

/-- A turn that comes to its end leaves a chronicle, or a session that is owned. -/
theorem hasChronicle_over {t : Course} {fates : List Fate} {operation : Operation} {outcome : Outcome}
    (h : t.PublishedUpTo fates .ended ∨ t.PublishedUpTo fates .ready ∧ t.slot.isSome) :
    ({ l with course := t }.proceed k operation (.ends outcome)).HasChronicle := by
  rcases h with h | ⟨h, hslot⟩
  · exact ⟨fates, .inl h⟩
  · exact ⟨fates, .inr (.inr ⟨h, .inl hslot⟩)⟩

theorem hasChronicle_starts (hcall : l.calls[k]? = some call) {t : Course} {fates : List Fate}
    {g : Nat} {phase : Phase} {operation : Operation} (h : t.PublishedUpTo fates .starting)
    (hphase : phase.startOf? = some g) :
    ({ l with course := t }.proceed k operation (.waits phase)).HasChronicle := by
  have hself := getElem?_setPhase_self (l := { l with course := t }) hcall phase
  exact ⟨fates, .inr (.inl ⟨h, k, _, hself, by rw [hphase]; rfl⟩)⟩

theorem hasChronicle_stops (hcall : l.calls[k]? = some call) {t : Course} {fates : List Fate}
    {g : Nat} {phase : Phase} {operation : Operation} (h : t.PublishedUpTo fates .ready)
    (hphase : phase.stopOf? = some g) :
    ({ l with course := t }.proceed k operation (.waits phase)).HasChronicle := by
  have hself := getElem?_setPhase_self (l := { l with course := t }) hcall phase
  exact ⟨fates, .inr (.inr ⟨h, .inr (.inr ⟨k, _, hself, by rw [hphase]; rfl⟩)⟩)⟩

/-- When all sessions have ended, a start launches the next one. -/
theorem hasChronicle_opens_of_ended (hcall : l.calls[k]? = some call) {s t : Course}
    {fates : List Fate}
    {operation : Operation} {next : Next} (hs : s.PublishedUpTo fates .ended) (h : s.Opens t next) :
    ({ l with course := t }.proceed k operation next).HasChronicle := by
  cases h with
  | reuse g h =>
      have hstatus := Course.status_of_ended hs
      unfold Course.session? at h
      rcases hstatus with hstatus | hstatus <;> simp [Status.isReady, hstatus] at h
  | launch h => exact hasChronicle_starts hcall (Course.publishedUpTo_launch hs) rfl

/-- The stage while a call is starting the latest session. -/
theorem publishedUpTo_of_isStarting (h : l.HasChronicle) {g : Nat} (hg : l.course.IsStarting g) :
    ∃ fates, g = fates.length + 1 ∧ l.course.PublishedUpTo fates .starting := by
  obtain ⟨fates, hended | ⟨hstarting, -⟩ | ⟨hready, -⟩⟩ := h
  · have hstatus := Course.status_of_ended hended
    rw [hg.status] at hstatus
    simp at hstatus
  · exact ⟨fates, hg.generation.trans hstarting.generation, hstarting⟩
  · have hstatus := Course.status_of_ready hready
    rw [hg.status] at hstatus
    simp at hstatus

/-- The stage while the latest session is ready for all that is published. -/
theorem publishedUpTo_of_ready (h : l.HasChronicle) {g : Nat} (hg : l.course.status = ⟨g, .ready⟩) :
    ∃ fates, g = fates.length + 1 ∧ l.course.PublishedUpTo fates .ready := by
  obtain ⟨fates, hended | ⟨hstarting, -⟩ | ⟨hready, -⟩⟩ := h
  · have hstatus := Course.status_of_ended hended
    rw [hg] at hstatus
    simp at hstatus
  · have hstatus := Course.status_of_starting hstarting
    rw [hg] at hstatus
    simp at hstatus
  · have hstatus := Course.status_of_ready hready
    rw [hg, Status.mk.injEq] at hstatus
    exact ⟨fates, hstatus.1, hready⟩

/-- While a call of the line has the lock and no turn, no other call has a turn. -/
theorem publishedUpTo_of_queued (h : l.Orderly) (ht : l.HasChronicle)
    (hcall : l.calls[k]? = some call)
    (hphase : call.phase = .queued) (hholder : l.lock.holder? = some k) :
    ∃ fates, l.course.PublishedUpTo fates .ended ∨
      l.course.PublishedUpTo fates .ready ∧ l.course.slot.isSome := by
  have hnobody := not_isTurn_of_waiting h hholder hcall (by rw [hphase]; rfl)
  obtain ⟨fates, hended | ⟨hstarting, i, other, hother, hstart⟩ | ⟨hready, hwho⟩⟩ := ht
  · exact ⟨fates, .inl hended⟩
  · obtain ⟨g, hg⟩ := Option.isSome_iff_exists.mp hstart
    have hnot := hnobody i other hother
    rw [Phase.isTurn_of_startOf? hg] at hnot
    cases hnot
  · rcases hwho with hslot | hheld | ⟨i, other, hother, hstop⟩
    · exact ⟨fates, .inr ⟨hready, hslot⟩⟩
    · rw [isHeld_of_holdsClient hcall (h.holds k call hcall (.inl hphase))] at hheld
      cases hheld
    · obtain ⟨g, hg⟩ := Option.isSome_iff_exists.mp hstop
      have hnot := hnobody i other hother
      rw [Phase.isTurn_of_stopOf? hg] at hnot
      cases hnot

theorem hasChronicle_begins (h : l.Orderly) (ht : l.HasChronicle) (hcall : l.calls[k]? = some call)
    (hphase : call.phase = .queued) (hholder : l.lock.holder? = some k) {t : Course} {next : Next}
    (hbegins : l.course.Begins call.operation t next) :
    ({ l with course := t }.proceed k call.operation next).HasChronicle := by
  obtain ⟨fates, hended | ⟨hready, hslot⟩⟩ := publishedUpTo_of_queued h ht hcall hphase hholder
  · cases hbegins with
    | starts hop hopens => exact hasChronicle_opens_of_ended hcall hended hopens
    | takes g phase hop hslot hphase =>
        have hstatus := Course.status_of_ended hended
        rw [(h.owns g hslot).1] at hstatus
        simp at hstatus
    | idle hop hslot => exact hasChronicle_over (.inl hended)
    | restarts hop hstop hslot hopens => exact hasChronicle_opens_of_ended hcall hended hopens
  · obtain ⟨g, hg⟩ := Option.isSome_iff_exists.mp hslot
    cases hbegins with
    | starts hop hopens =>
        cases hopens with
        | reuse g h => exact hasChronicle_over (.inr ⟨hready, hslot⟩)
        | launch hnone =>
            rw [Course.session?_of_owns h.owns, hg] at hnone
            cases hnone
    | takes g phase hop hslot hphase =>
        exact hasChronicle_stops hcall (Course.publishedUpTo_letGo hready) hphase
    | idle hop hnone =>
        rw [hg] at hnone
        cases hnone
    | restarts hop hstop hnone hopens =>
        rw [hg] at hnone
        cases hnone

theorem hasChronicle_turn (h : l.Orderly) (ht : l.HasChronicle) (hm : l.Turn k m) :
    m.HasChronicle := by
  cases hm with
  | begins call t next hcall hphase hholder hbegins =>
      exact hasChronicle_begins h ht hcall hphase hholder hbegins
  | starts call g t next hcall hphase hstarts =>
      obtain ⟨-, hmatches⟩ := h.turn k call hcall (Phase.isTurn_of_startOf? hphase)
      obtain ⟨fates, rfl, hupTo⟩ := publishedUpTo_of_isStarting ht (hmatches.starting g hphase)
      cases hstarts with
      | waits phase h => exact hasChronicle_starts hcall hupTo h
      | ready => exact hasChronicle_over (.inr ⟨Course.publishedUpTo_ready hupTo, rfl⟩)
      | failed error =>
          exact hasChronicle_over (.inl (Course.publishedUpTo_end .failed hupTo rfl rfl))
  | stops call g t next hcall hphase hstops =>
      obtain ⟨-, hmatches⟩ := h.turn k call hcall (Phase.isTurn_of_stopOf? hphase)
      obtain ⟨fates, rfl, hupTo⟩ := publishedUpTo_of_ready ht (hmatches.stopping g hphase).status
      cases hstops with
      | waits phase h => exact hasChronicle_stops hcall hupTo h
      | stopped hop =>
          exact hasChronicle_over (.inl (Course.publishedUpTo_end .stopped hupTo rfl rfl))
      | restarts hop hopens =>
          exact hasChronicle_opens_of_ended hcall
            (Course.publishedUpTo_end .stopped hupTo rfl rfl) hopens

theorem hasChronicle_sessionChange (h : l.Orderly) (ht : l.HasChronicle) (hm : l.SessionChange m) :
    m.HasChronicle := by
  cases hm with
  | turn k hturn => exact hasChronicle_turn h ht hturn
  | lose g hslot =>
      obtain ⟨fates, rfl, hupTo⟩ := publishedUpTo_of_ready ht (h.owns g hslot).1
      exact ⟨_, .inl (Course.publishedUpTo_end .lost (Course.publishedUpTo_letGo hupTo) rfl rfl)⟩

/-! ### Steps -/

theorem hasChronicle_tidy (h : l.Orderly) (ht : l.HasChronicle) : l.tidy.HasChronicle := by
  unfold tidy
  split
  · exact ht
  · rename_i hheld
    rw [Bool.not_eq_true] at hheld
    obtain ⟨fates, hended | ⟨hstarting, k, call, hcall, hstart⟩ | ⟨hready, -⟩⟩ := ht
    · exact ⟨fates, .inl (Course.publishedUpTo_letGo hended)⟩
    · -- The caller of the start holds the client.
      obtain ⟨g, hg⟩ := Option.isSome_iff_exists.mp hstart
      have hholds := h.holds k call hcall (.inr (Phase.isTurn_of_startOf? hg))
      rw [isHeld_of_holdsClient hcall hholds] at hheld
      cases hheld
    · exact ⟨fates, .inr (.inr ⟨Course.publishedUpTo_letGo hready, .inr (.inl hheld)⟩)⟩

theorem hasChronicle_step (h : l.Orderly) (ht : l.HasChronicle) (hm : l.Step m) : m.HasChronicle := by
  obtain ⟨l₂, hmoves, rfl⟩ := hm
  refine hasChronicle_tidy (orderly_moves h hmoves) ?_
  obtain ⟨l₁, hchanges, hend⟩ := hmoves
  have ht₁ : l₁.HasChronicle := by
    clear hend
    induction hchanges with
    | refl => exact ht
    | tail _ hlast ih => exact hasChronicle_callChange ih hlast
  rcases hend with rfl | hchange
  · exact ht₁
  · exact hasChronicle_sessionChange (orderly_callChanges h hchanges) ht₁ hchange

end Life

/-! ### Runs -/

namespace Client

/-- Whether no event of a run drops a turn. -/
def keepsTurns (c : Client) : List Event → Bool
  | [] => true
  | event :: rest => !c.dropsTurn event && (c.step event).keepsTurns rest

theorem keepsTurns_append (c : Client) (past future : List Event) :
    c.keepsTurns (past ++ future) = (c.keepsTurns past && (c.run past).keepsTurns future) := by
  induction past generalizing c with
  | nil => rfl
  | cons event rest ih =>
      rw [List.cons_append, keepsTurns, keepsTurns, ih, Bool.and_assoc]
      rfl

theorem run_append (c : Client) (past future : List Event) :
    c.run (past ++ future) = (c.run past).run future := List.foldl_append

/-- What every step keeps that drops no turn, a run keeps that drops none. -/
theorem run_of_keepsTurns {P : Client → Prop}
    (hstep : ∀ (c : Client) (event : Event), c.life.Orderly → P c → c.dropsTurn event = false →
      P (c.step event))
    {c : Client} (h : c.life.Orderly) (hc : P c) {events : List Event}
    (hkeeps : c.keepsTurns events) : P (c.run events) := by
  induction events generalizing c with
  | nil => exact hc
  | cons event rest ih =>
      rw [keepsTurns, Bool.and_eq_true, Bool.not_eq_true'] at hkeeps
      exact ih (orderly_step h event) (hstep c event h hc hkeeps.1) hkeeps.2

theorem hasChronicle_run {c : Client} (h : c.life.Orderly) (ht : c.life.HasChronicle)
    {events : List Event}
    (hkeeps : c.keepsTurns events) : (c.run events).life.HasChronicle := by
  refine run_of_keepsTurns (P := fun c => c.life.HasChronicle) ?_ h ht hkeeps
  intro c event h ht hkeeps
  exact Life.hasChronicle_step h ht (life_step h hkeeps)

/-- **The statuses form a chronicle.**  After any events that drop no turn, the statuses published
so far are the beginning of the chronicle of sessions 1, 2, 3, ...; they go on and never back; and
when session `g + 1` has started, the statuses before that are the whole blocks of `g` sessions. -/
theorem published_is_the_beginning_of_a_chronicle (options : SessionOptions) (processId : Nat)
    (workspace : Workspace) (events : List Event)
    (hkeeps : (Client.new options processId workspace).keepsTurns events) :
    let published := ((Client.new options processId workspace).run events).published
    (∃ fates : List Fate, published <+: chronicle fates) ∧
      published.Pairwise Status.Before ∧
      ∀ (g : Nat) (before after : List Status),
        published = before ++ ⟨g + 1, .starting⟩ :: after →
          ∃ done : List Fate, done.length = g ∧ before = chronicle done := by
  intro published
  have hchronicle :=
    hasChronicle_run (orderly_new options processId workspace) Life.hasChronicle_empty hkeeps
  obtain ⟨fates, hprefix⟩ : ∃ fates : List Fate, published <+: chronicle fates := by
    obtain ⟨fates, hended | ⟨hstarting, -⟩ | ⟨hready, -⟩⟩ := hchronicle
    · exact Course.prefix_of_publishedUpTo hended
    · exact Course.prefix_of_publishedUpTo hstarting
    · exact Course.prefix_of_publishedUpTo hready
  refine ⟨⟨fates, hprefix⟩, pairwise_chronicle hprefix, ?_⟩
  intro g before after hstarting
  exact eq_chronicle_of_starting hprefix hstarting

/-- A start whose launch fails is followed by a restart that waited for it; the caller who waits for
a ready session goes away. -/
theorem published_after_a_failed_start :
    let events : List Event := [.invoke .start, .poll 0, .invoke .ready, .poll 1,
      .invoke .restart, .poll 2, .launchFailed 1 .connectionClosed, .poll 0, .cancel 1, .poll 2,
      .launchSucceeded 2 false false, .poll 2]
    let published := ((Client.new {} 0 {}).run events).published
    (Client.new {} 0 {}).keepsTurns events ∧
      published = [⟨1, .starting⟩, ⟨1, .failed⟩, ⟨2, .starting⟩] ∧
      (∃ fates : List Fate, published <+: chronicle fates) ∧
      published.Pairwise Status.Before ∧
      ∀ (g : Nat) (before after : List Status),
        published = before ++ ⟨g + 1, .starting⟩ :: after →
          ∃ done : List Fate, done.length = g ∧ before = chronicle done := by
  intro events published
  have hkeeps : (Client.new {} 0 {}).keepsTurns events := by decide
  exact ⟨hkeeps, by decide, published_is_the_beginning_of_a_chronicle {} 0 {} events hkeeps⟩

end Client

end LanguageClient
