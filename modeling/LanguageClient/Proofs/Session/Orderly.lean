import LanguageClient.Proofs.Session.Life
import LanguageClient.Proofs.Session.Line

/-!
# Order in the life of a client

In an orderly life the calls in line are those that wait for the lock or have their turn, only the
holder of the lock has its turn, and the sessions stand as the turn of that call says.  A session
that is owned is the latest one and is published as ready; while a call has its turn, none is owned.

* `Course.Owns`, `Course.IsStarting`, `Course.IsStopping` — how the sessions can stand.
* `Course.MatchesNext` — what comes next for a call fits to the sessions.
* **`Life.Orderly`** — the invariant.
* **`Life.Orderly.step`**, **`Life.Orderly.droppingStep`** — every step keeps it, also one that drops
  a turn.
-/

namespace LanguageClient

/-! ### How the sessions can stand -/

namespace Course

/-- A session that is owned is the latest one and is published as ready. -/
def Owns (s : Course) : Prop := ∀ g, s.slot = some g → s.status = ⟨g, .ready⟩ ∧ g = s.generation

/-- The latest session is being started. -/
structure IsStarting (s : Course) (g : Nat) : Prop where
  status : s.status = ⟨g, .starting⟩
  generation : g = s.generation
  slot : s.slot = none

/-- The latest session was ready and is being stopped. -/
structure IsStopping (s : Course) (g : Nat) : Prop where
  status : s.status = ⟨g, .ready⟩
  generation : g = s.generation
  slot : s.slot = none

/-- A call that comes to a phase of a turn finds the sessions standing as the phase says. -/
structure MatchesPhase (s : Course) (phase : Phase) : Prop where
  turn : phase.isTurn
  starting : ∀ g, phase.startOf? = some g → s.IsStarting g
  stopping : ∀ g, phase.stopOf? = some g → s.IsStopping g

/-- What comes next for a call that has its turn fits to the sessions. -/
structure MatchesNext (s : Course) (next : Next) : Prop where
  owns : s.Owns
  waits : ∀ phase, next = .waits phase → s.MatchesPhase phase

variable {s t : Course} {g : Nat}

theorem owns_of_empty (h : s.slot = none) : s.Owns := by
  intro g hslot
  rw [h] at hslot
  cases hslot

theorem owns_letGo (s : Course) : s.letGo.Owns := owns_of_empty rfl

theorem session?_of_owns (h : s.Owns) : s.session? = s.slot := by
  unfold session?
  cases hslot : s.slot with
  | none => simp
  | some g => simp [(h g hslot).1, Status.isReady]

theorem matchesPhase_start {phase : Phase} (h : s.IsStarting g) (hphase : phase.startOf? = some g) :
    s.MatchesPhase phase := by
  refine ⟨Phase.isTurn_of_startOf? hphase, ?_, ?_⟩
  · intro g' hg'
    rw [hphase, Option.some.injEq] at hg'
    exact hg' ▸ h
  · intro g' hg'
    rw [Phase.stopOf?_of_startOf? hphase] at hg'
    cases hg'

theorem matchesPhase_stop {phase : Phase} (h : s.IsStopping g) (hphase : phase.stopOf? = some g) :
    s.MatchesPhase phase := by
  refine ⟨Phase.isTurn_of_stopOf? hphase, ?_, ?_⟩
  · intro g' hg'
    rw [Phase.stopOf?_of_startOf? hg'] at hphase
    cases hphase
  · intro g' hg'
    rw [hphase, Option.some.injEq] at hg'
    exact hg' ▸ h

theorem MatchesPhase.slot {phase : Phase} (h : s.MatchesPhase phase) : s.slot = none := by
  rcases Phase.start_or_stop_of_isTurn h.turn with ⟨g, hg⟩ | ⟨g, hg⟩
  · exact (h.starting g hg).slot
  · exact (h.stopping g hg).slot

theorem MatchesPhase.generation {phase : Phase} (h : s.MatchesPhase phase)
    (hphase : phase.turnOf? = some g) : g = s.generation := by
  cases hstart : phase.startOf? with
  | some g' =>
      rw [Phase.turnOf?_of_startOf? hstart, Option.some.injEq] at hphase
      exact hphase ▸ (h.starting g' hstart).generation
  | none => exact (h.stopping g (by simpa [Phase.turnOf?, hstart] using hphase)).generation

/-! ### The judgments lead to what fits -/

theorem matchesNext_over (h : s.Owns) (outcome : Outcome) : s.MatchesNext (.ends outcome) :=
  ⟨h, by simp⟩

theorem matchesNext_waits {phase : Phase} (h : s.MatchesPhase phase) (hslot : s.slot = none) :
    s.MatchesNext (.waits phase) := by
  refine ⟨owns_of_empty hslot, ?_⟩
  intro phase' heq
  injection heq with heq
  exact heq ▸ h

theorem matchesNext_opens {next : Next} (hs : s.Owns) (h : s.Opens t next) : t.MatchesNext next := by
  cases h with
  | reuse g h => exact matchesNext_over hs _
  | launch h =>
      -- Nothing is ready, so nothing is owned.
      rw [session?_of_owns hs] at h
      have hstarting : s.launch.IsStarting (s.generation + 1) := ⟨by simp, rfl, h⟩
      exact matchesNext_waits (matchesPhase_start hstarting rfl) h

theorem matchesNext_starts {next : Next} (hs : s.IsStarting g) (h : s.Starts g t next) :
    t.MatchesNext next := by
  cases h with
  | waits phase h => exact matchesNext_waits (matchesPhase_start hs h) hs.slot
  | ready =>
      refine matchesNext_over ?_ _
      intro g' hg'
      have heq : g = g' := by simpa [ready] using hg'
      subst heq
      exact ⟨by simp, hs.generation⟩
  | failed error =>
      have hempty : (s.publish g .failed).slot = none := hs.slot
      exact matchesNext_over (owns_of_empty hempty) _

theorem matchesNext_stops {operation : Operation} {next : Next} (hs : s.IsStopping g)
    (h : s.Stops operation g t next) : t.MatchesNext next := by
  have hempty : (s.publish g .stopped).slot = none := hs.slot
  cases h with
  | waits phase h => exact matchesNext_waits (matchesPhase_stop hs h) hs.slot
  | stopped hop => exact matchesNext_over (owns_of_empty hempty) _
  | restarts hop h => exact matchesNext_opens (owns_of_empty hempty) h

theorem matchesNext_begins {operation : Operation} {next : Next} (hs : s.Owns)
    (h : s.Begins operation t next) : t.MatchesNext next := by
  cases h with
  | starts hop h => exact matchesNext_opens hs h
  | takes g phase hop h hphase =>
      obtain ⟨hstatus, hgeneration⟩ := hs g h
      -- The session that was owned is the one that is stopped.
      have hstopping : s.letGo.IsStopping g := ⟨hstatus, hgeneration, rfl⟩
      exact matchesNext_waits (matchesPhase_stop hstopping hphase) rfl
  | idle hop h => exact matchesNext_over hs _
  | restarts hop hstop h hopens => exact matchesNext_opens hs hopens

end Course

/-! ### The invariant -/

namespace Life

/-- The calls in line, their turns and the sessions agree. -/
structure Orderly (l : Life) : Prop where
  lock : l.lock.Orderly
  line : ∀ k : Nat, k ∈ l.lock.line ↔
    ∃ call : Call, l.calls[k]? = some call ∧ call.phase.isInLine
  turn : ∀ (k : Nat) (call : Call), l.calls[k]? = some call → call.phase.isTurn →
    l.lock.holder? = some k ∧ l.course.MatchesPhase call.phase
  owns : l.course.Owns
  holds : ∀ (k : Nat) (call : Call), l.calls[k]? = some call →
    call.phase = .queued ∨ call.phase.isTurn → call.holdsClient

/-- A client at the beginning. -/
theorem orderly_empty : Orderly ⟨⟨[], [], 0, none⟩, {}, [], false⟩ where
  lock := Lock.orderly_free
  line := by simp [Lock.line]
  turn := by simp
  owns := Course.owns_of_empty rfl
  holds := by simp

variable {l m : Life} {k : Nat} {call : Call}

theorem isInLine_of_isTurn {phase : Phase} (h : phase.isTurn) : phase.isInLine := by
  cases phase with
  | queued => rfl
  | peeking => rfl
  | _ => exact h

theorem not_isTurn_of_isInLine {phase : Phase} (h : phase.isInLine = false) :
    phase.isTurn = false := by
  rw [Bool.eq_false_iff] at h ⊢
  exact fun hturn => h (isInLine_of_isTurn hturn)

theorem not_mem_line (h : l.Orderly) (hcall : l.calls[k]? = some call)
    (hline : call.phase.isInLine = false) : k ∉ l.lock.line := by
  intro hk
  obtain ⟨call', hcall', hin⟩ := (h.line k).mp hk
  rw [hcall, Option.some.injEq] at hcall'
  rw [← hcall', hline] at hin
  cases hin

/-- Nobody but the holder of the lock has its turn. -/
theorem not_isTurn_of_holder? (h : l.Orderly) (hholder : l.lock.holder? = some k) {i : Nat}
    (hne : i ≠ k) {other : Call} (hother : l.calls[i]? = some other) :
    other.phase.isTurn = false := by
  rw [Bool.eq_false_iff]
  intro hturn
  have hi := (h.turn i other hother hturn).1
  rw [hholder, Option.some.injEq] at hi
  exact hne hi.symm

/-- While the holder of the lock does not have its turn, nobody has. -/
theorem not_isTurn_of_waiting (h : l.Orderly) (hholder : l.lock.holder? = some k)
    (hcall : l.calls[k]? = some call) (hout : call.phase.isTurn = false) :
    ∀ (i : Nat) (other : Call), l.calls[i]? = some other → other.phase.isTurn = false := by
  intro i other hother
  by_cases hi : i = k
  · rw [hi, hcall, Option.some.injEq] at hother
    rwa [← hother]
  · exact not_isTurn_of_holder? h hholder hi hother

/-- While the lock is free, nobody has its turn. -/
theorem not_isTurn_of_free (h : l.Orderly) (hfree : l.lock.isFree) :
    ∀ (i : Nat) (other : Call), l.calls[i]? = some other → other.phase.isTurn = false := by
  intro i other hother
  rw [Bool.eq_false_iff]
  intro hturn
  have hnone : l.lock.holder? = none := by simpa [Lock.isFree] using hfree
  have hholder := (h.turn i other hother hturn).1
  rw [hnone] at hholder
  cases hholder

/-- A call that goes on with its turn still holds the client. -/
theorem holdsClient_of_isTurn (h : call.holdsClient) {phase : Phase} (hphase : phase.isTurn) :
    ({ call with phase } : Call).holdsClient := by
  cases hop : call.operation <;> cases phase <;>
    simp_all [Call.holdsClient, Phase.isOver, Phase.hasBegun, Phase.isTurn, Phase.turnOf?,
      Phase.startOf?, Phase.stopOf?]

/-! ### What one call changes -/

/-- A call comes to another phase: it is enough to look at that call, and at the turns of others. -/
theorem orderly_of_setPhase (h : l.Orderly) (hcall : l.calls[k]? = some call) {phase : Phase}
    (hcalls : m.calls = (l.setPhase k phase).calls) (hlock : m.lock.Orderly)
    (hline : ∀ i, i ∈ m.lock.line ↔ if i = k then phase.isInLine = true else i ∈ l.lock.line)
    (hothers : ∀ (i : Nat) (other : Call), i ≠ k → l.calls[i]? = some other → other.phase.isTurn →
      m.lock.holder? = some i ∧ m.course.MatchesPhase other.phase)
    (hself : phase.isTurn → m.lock.holder? = some k ∧ m.course.MatchesPhase phase)
    (howns : m.course.Owns)
    (hholds : phase = .queued ∨ phase.isTurn → ({ call with phase } : Call).holdsClient) :
    m.Orderly where
  -- Every clause is split on whether the call in question is the one that changes.
  lock := hlock
  line i := by
    rw [hline, hcalls]
    by_cases hi : i = k
    · subst hi
      rw [if_pos rfl, getElem?_setPhase_self hcall]
      simp
    · rw [if_neg hi, getElem?_setPhase_ne l (Ne.symm hi), h.line]
  turn i other hother hturn := by
    rw [hcalls] at hother
    rcases call_of_setPhase hcall hother with ⟨rfl, rfl⟩ | ⟨hi, hother⟩
    · exact hself hturn
    · exact hothers i other hi hother hturn
  owns := howns
  holds i other hother hphase := by
    rw [hcalls] at hother
    rcases call_of_setPhase hcall hother with ⟨rfl, rfl⟩ | ⟨-, hother⟩
    · exact hholds hphase
    · exact h.holds i other hother hphase

/-- A call leaves the line, and the sessions stand in any way that fits to the end of a turn. -/
theorem orderly_leave (h : l.Orderly) (hcall : l.calls[k]? = some call) {phase : Phase}
    (hphase : phase.isInLine = false) {t : Course} (howns : t.Owns)
    (ht : t = l.course ∨ l.lock.holder? = some k) :
    ({ l with course := t }.leave k phase).Orderly := by
  have hturn := not_isTurn_of_isInLine hphase
  refine orderly_of_setPhase h hcall rfl (Lock.orderly_leave h.lock k) ?_ ?_ ?_ howns ?_
  · intro i
    have hline : ({ l with course := t }.leave k phase).lock.line =
        l.lock.line.filter (· ≠ k) := Lock.line_leave h.lock k
    rw [hline]
    by_cases hi : i = k <;> simp [hi, hphase]
  · intro i other hne hother hturn
    obtain ⟨hholder, hmatches⟩ := h.turn i other hother hturn
    refine ⟨Lock.holder?_leave_of_ne hholder hne, ?_⟩
    rcases ht with ht | ht
    · have heq : ({ l with course := t }.leave k phase).course = l.course := ht
      rwa [heq]
    · rw [not_isTurn_of_holder? h ht hne hother] at hturn
      cases hturn
  · intro hon
    rw [hturn] at hon
    cases hon
  · rintro (hqueued | hon)
    · rw [hqueued] at hphase
      cases hphase
    · rw [hturn] at hon
      cases hon

/-! ### Changes that leave the sessions alone -/

theorem orderly_callChange (h : l.Orderly) (hm : l.CallChange m) : m.Orderly := by
  cases hm with
  | enter operation hheld =>
      -- The new call has not begun, so it is in nobody's way.
      have hnew : ∀ (i : Nat) (other : Call),
          (l.calls ++ [({ operation } : Call)])[i]? = some other →
          l.calls[i]? = some other ∨ other.phase = .fresh := by
        intro i other hother
        rw [List.getElem?_append] at hother
        split at hother
        · exact .inl hother
        · right
          obtain ⟨-, heq⟩ := by simpa [List.getElem?_singleton] using hother
          rw [← heq]
      refine ⟨h.lock, ?_, ?_, h.owns, ?_⟩
      · intro i
        rw [h.line]
        constructor
        · rintro ⟨other, hother, hin⟩
          exact ⟨other, by
            rw [List.getElem?_append_left (List.getElem?_eq_some_iff.mp hother).1]
            exact hother, hin⟩
        · rintro ⟨other, hother, hin⟩
          rcases hnew i other hother with hold | hfresh
          · exact ⟨other, hold, hin⟩
          · rw [hfresh] at hin
            cases hin
      · intro i other hother hturn
        rcases hnew i other hother with hold | hfresh
        · exact h.turn i other hold hturn
        · rw [hfresh] at hturn
          cases hturn
      · intro i other hother hphase
        rcases hnew i other hother with hold | hfresh
        · exact h.holds i other hold hphase
        · rw [hfresh] at hphase
          simp [Phase.isTurn, Phase.turnOf?, Phase.startOf?, Phase.stopOf?] at hphase
  | shift k call phase hcall hline hover hphase hheld =>
      -- Whoever leaves a line in which it does not stand leaves it as it was.
      have hk := not_mem_line h hcall hline
      have hleave : l.setPhase k phase = { l with course := l.course }.leave k phase := by
        simp [leave, Lock.leave_of_not_mem hk]
      rw [hleave]
      exact orderly_leave h hcall hphase h.owns (.inl rfl)
  | ask k call phase hcall hline hover hphase hheld =>
      have hk := not_mem_line h hcall hline
      refine orderly_of_setPhase h hcall rfl (Lock.orderly_acquire h.lock hk) ?_ ?_ ?_ h.owns ?_
      · intro i
        have hline : (l.enqueue k phase).lock.line = l.lock.line ++ [k] := Lock.line_acquire h.lock k
        rw [hline]
        by_cases hi : i = k
        · rcases hphase with rfl | ⟨rfl, -⟩ <;> simp [hi, Phase.isInLine]
        · simp [hi]
      · intro i other hne hother hturn
        obtain ⟨hholder, hmatches⟩ := h.turn i other hother hturn
        -- As somebody has a turn, the lock is held and stays with it.
        have hheld : l.lock.isFree = false := by simp [Lock.isFree, hholder]
        exact ⟨(Lock.holder?_acquire_of_held hheld k).trans hholder, hmatches⟩
      · intro hturn
        rcases hphase with rfl | ⟨rfl, -⟩ <;> cases hturn
      · rintro (hqueued | hturn)
        · rcases hphase with hpeeking | ⟨-, hholds⟩
          · rw [hqueued] at hpeeking
            cases hpeeking
          · exact hholds
        · rcases hphase with rfl | ⟨rfl, -⟩ <;> cases hturn
  | quit k call phase hcall hwaits hphase hheld =>
      exact orderly_leave h hcall hphase h.owns (.inl rfl)
  | release => exact ⟨h.lock, h.line, h.turn, h.owns, h.holds⟩

/-! ### Changes that may concern the sessions -/

/-- The call that holds the lock goes on with its turn, and the sessions fit to it. -/
theorem orderly_proceed (h : l.Orderly) (hcall : l.calls[k]? = some call)
    (hholder : l.lock.holder? = some k) (hphase : call.phase = .queued ∨ call.phase.isTurn)
    {t : Course} {next : Next} (hfits : t.MatchesNext next) :
    ({ l with course := t }.proceed k call.operation next).Orderly := by
  cases next with
  | ends outcome => exact orderly_leave h hcall rfl hfits.owns (.inr hholder)
  | waits phase =>
      -- The call keeps the lock, and its new phase belongs to its turn.
      have hmatches := hfits.waits phase rfl
      refine orderly_of_setPhase h hcall rfl h.lock ?_ ?_ ?_ hfits.owns ?_
      · intro i
        by_cases hi : i = k
        · rw [if_pos hi, hi]
          exact iff_of_true (Lock.mem_line_of_holder? hholder) (isInLine_of_isTurn hmatches.turn)
        · rw [if_neg hi]
          exact Iff.rfl
      · intro i other hne hother hturn
        rw [not_isTurn_of_holder? h hholder hne hother] at hturn
        cases hturn
      · intro _
        exact ⟨hholder, hmatches⟩
      · intro _
        exact holdsClient_of_isTurn (h.holds k call hcall hphase) hmatches.turn

theorem orderly_turn (h : l.Orderly) (hm : l.Turn k m) : m.Orderly := by
  cases hm with
  | begins call t next hcall hphase hholder hbegins =>
      exact orderly_proceed h hcall hholder (.inl hphase) (Course.matchesNext_begins h.owns hbegins)
  | starts call g t next hcall hphase hstarts =>
      have hturn := Phase.isTurn_of_startOf? hphase
      obtain ⟨hholder, hmatches⟩ := h.turn k call hcall hturn
      exact orderly_proceed h hcall hholder (.inr hturn)
        (Course.matchesNext_starts (hmatches.starting g hphase) hstarts)
  | stops call g t next hcall hphase hstops =>
      have hturn := Phase.isTurn_of_stopOf? hphase
      obtain ⟨hholder, hmatches⟩ := h.turn k call hcall hturn
      exact orderly_proceed h hcall hholder (.inr hturn)
        (Course.matchesNext_stops (hmatches.stopping g hphase) hstops)

/-- While a session is owned, no call is in its turn. -/
theorem not_isTurn_of_slot (h : l.Orderly) {g : Nat} (hslot : l.course.slot = some g)
    (hcall : l.calls[k]? = some call) : call.phase.isTurn = false := by
  rw [Bool.eq_false_iff]
  intro hturn
  obtain ⟨-, hmatches⟩ := h.turn k call hcall hturn
  have hempty := hmatches.slot
  rw [hslot] at hempty
  cases hempty

theorem orderly_sessionChange (h : l.Orderly) (hm : l.SessionChange m) : m.Orderly := by
  cases hm with
  | turn k hturn => exact orderly_turn h hturn
  | lose g hslot =>
      -- A session is lost only while it is owned, and then nobody has a turn.
      refine ⟨h.lock, h.line, ?_, Course.owns_of_empty rfl, h.holds⟩
      intro i other hother hturn
      rw [not_isTurn_of_slot h hslot hother] at hturn
      cases hturn

/-! ### Steps -/

theorem orderly_dropped (h : l.Orderly) (hm : l.Dropped m) : m.Orderly := by
  obtain ⟨k, call, hcall, hturn, rfl⟩ := hm
  exact orderly_leave h hcall rfl h.owns (.inl rfl)

theorem orderly_tidy (h : l.Orderly) : l.tidy.Orderly := by
  unfold tidy
  split
  · exact h
  · rename_i hheld
    refine ⟨h.lock, h.line, ?_, Course.owns_letGo _, h.holds⟩
    -- A call that has its turn would hold the client.
    intro i other hother hturn
    exact absurd (isHeld_of_holdsClient hother (h.holds i other hother (.inr hturn))) hheld

theorem orderly_callChanges (h : l.Orderly) (hm : Relation.ReflTransGen CallChange l m) :
    m.Orderly := by
  induction hm with
  | refl => exact h
  | tail _ hlast ih => exact orderly_callChange ih hlast

theorem orderly_moves (h : l.Orderly) (hm : l.Moves m) : m.Orderly := by
  obtain ⟨l₁, hchanges, hend⟩ := hm
  have h₁ := orderly_callChanges h hchanges
  rcases hend with rfl | hchange
  · exact h₁
  · exact orderly_sessionChange h₁ hchange

theorem Orderly.step (h : l.Orderly) (hm : l.Step m) : m.Orderly := by
  obtain ⟨l₁, hmoves, rfl⟩ := hm
  exact orderly_tidy (orderly_moves h hmoves)

theorem Orderly.droppingStep (h : l.Orderly) (hm : l.DroppingStep m) : m.Orderly := by
  obtain ⟨l₁, hdropped, rfl⟩ := hm
  exact orderly_tidy (orderly_dropped h hdropped)

end Life
end LanguageClient
