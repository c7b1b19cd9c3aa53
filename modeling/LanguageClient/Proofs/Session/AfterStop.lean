import LanguageClient.Proofs.Session.Origins
import LanguageClient.Proofs.Session.Standing
import Mathlib.Data.List.Infix

/-!
# What a stop leaves behind

A stop that has come to its end leaves nothing that is owned, and nobody who has a turn.  Whether a
server is launched afterwards is up to those who come later or wait in line: a restart among them
brings the client back to life.  Only when nobody holds the client any more, nothing is launched
ever again.

* `Life.HasNoSession` — nothing is owned and nothing is being started.
* `Life.hasNoSession_derives` — that stays so as long as nothing is launched.
* `Life.unheld_step` — a client that nobody holds launches nothing.
* **`Client.nothing_is_owned_after_a_stop`** — what follows a stop, in every order of events.
-/

namespace LanguageClient

namespace Life

variable {l m : Life} {k : Nat} {call : Call}

/-! ### Quiet -/

/-- Nothing is owned and nothing is being started. -/
structure HasNoSession (l : Life) : Prop where
  slot : l.course.slot = none
  start : ∀ n, ¬ l.HasStart n

/-- As long as nothing is launched, quiet stays. -/
theorem hasNoSession_derives (h : l.HasNoSession) (hm : l.Derives m)
    (hsame : m.course.launches = l.course.launches) : m.HasNoSession where
  slot := by
    rw [Option.eq_none_iff_forall_ne_some]
    intro n hslot
    rcases hm.slot n hslot with howned | hstart
    · rw [h.slot] at howned
      cases howned
    · exact h.start n hstart
  start n hstart := by
    rcases hm.start n hstart with hbefore | ⟨hlaunch, -⟩
    · exact h.start n hbefore
    · rw [hsame] at hlaunch
      simp at hlaunch

theorem hasNoSession_of_nobody (hslot : l.course.slot = none)
    (h : ∀ (k : Nat) (call : Call), l.calls[k]? = some call → call.phase.isTurn = false) :
    l.HasNoSession where
  slot := hslot
  start n := by
    rintro ⟨k, call, hcall, hstart⟩
    rw [Phase.startOf?_of_not_isTurn (h k call hcall)] at hstart
    cases hstart

/-! ### A client that nobody holds -/

theorem isHeld_of_callChanges (h : Relation.ReflTransGen CallChange l m) (hm : m.isHeld) :
    l.isHeld := by
  induction h with
  | refl => exact hm
  | tail _ hlast ih => exact ih (isHeld_of_callChange hlast hm)

/-- Whoever has a turn or begins one holds the client. -/
theorem isHeld_of_turn (h : l.Orderly) (hm : l.Turn k m) : l.isHeld := by
  cases hm with
  | begins call t next hcall hphase hholder hbegins =>
      exact isHeld_of_holdsClient hcall (h.holds k call hcall (.inl hphase))
  | starts call g t next hcall hphase hstarts =>
      exact isHeld_of_holdsClient hcall
        (h.holds k call hcall (.inr (Phase.isTurn_of_startOf? hphase)))
  | stops call g t next hcall hphase hstops =>
      exact isHeld_of_holdsClient hcall
        (h.holds k call hcall (.inr (Phase.isTurn_of_stopOf? hphase)))

/-- A client that nobody holds stays so, launches nothing and owns nothing. -/
theorem unheld_step (h : l.Orderly) (hheld : l.isHeld = false) (hm : l.Step m) :
    m.isHeld = false ∧ m.course.launches = l.course.launches ∧ m.course.slot = none := by
  obtain ⟨l₂, ⟨l₁, hchanges, hend⟩, rfl⟩ := hm
  have hcourse := (callChanges_keep hchanges).1
  have hheld₁ : l₁.isHeld = false := by
    rw [Bool.eq_false_iff] at hheld ⊢
    exact fun h₁ => hheld (isHeld_of_callChanges hchanges h₁)
  have hkept : l₂.isHeld = false ∧ l₂.course.launches = l.course.launches := by
    rcases hend with rfl | hchange
    · exact ⟨hheld₁, congrArg Course.launches hcourse⟩
    · cases hchange with
      | turn k hturn =>
          rw [isHeld_of_turn (orderly_callChanges h hchanges) hturn] at hheld₁
          cases hheld₁
      | lose g hslot =>
          have hsame : l₁.course.launches = l.course.launches := congrArg Course.launches hcourse
          exact ⟨hheld₁, hsame⟩
  unfold tidy
  rw [if_neg (by simp [hkept.1])]
  exact ⟨hkept.1, hkept.2, rfl⟩

/-- Whoever drops a turn has held the client. -/
theorem isHeld_of_droppingStep (h : l.Orderly) (hm : l.DroppingStep m) : l.isHeld := by
  obtain ⟨l₁, ⟨k, call, hcall, hturn, -⟩, -⟩ := hm
  exact isHeld_of_holdsClient hcall (h.holds k call hcall (.inr hturn))

end Life

namespace Client

variable {c d : Client} {k : Nat} {call : Call}

/-! ### The end of a stop -/

/-- While a call gets the lock or has it, no other call has a turn. -/
theorem not_isTurn_of_others (h : c.life.Orderly)
    (hlock : c.lock.isFree ∨ c.lock.holder? = some k) {i : Nat} (hi : i ≠ k) {other : Call}
    (hother : c.calls[i]? = some other) : other.phase.isTurn = false := by
  rcases hlock with hfree | hholder
  · exact Life.not_isTurn_of_free h hfree i other hother
  · exact Life.not_isTurn_of_holder? h hholder hi hother

/-- An event that ends a stop leaves nothing that is owned, and nobody with a turn. -/
theorem ended_stop (h : c.life.Orderly) (hf : c.Fitting) (hcall : c.calls[k]? = some call)
    (hop : call.operation = .stop) (hopen : c.outcome? k = none) {event : Event}
    (hended : (c.step event).outcome? k = some .done) :
    (c.step event).slot = none ∧ ∀ (i : Nat) (other : Call),
      (c.step event).calls[i]? = some other → other.phase.isTurn = false := by
  obtain ⟨hstep, lock, t, hlock, hadvances, hlife⟩ :=
    ended_step h hf hcall (by rw [hop]; rfl) hopen hended
  have htidy : (c.step event).life =
      (({ c.life with lock, course := t } : Life).leave k (.finished .done)).tidy := by
    rw [hstep, life_tidy, hlife]
  rw [hop] at hadvances
  have hslot := Course.slot_of_stopped (fun ht => (h.turn k call hcall ht).2) hadvances
  constructor
  · have hafter := congrArg (fun l : Life => l.course.slot) htidy
    refine Eq.trans hafter ?_
    unfold Life.tidy
    split
    · exact hslot
    · rfl
  · intro i other hother
    have hcalls := congrArg Life.calls htidy
    rw [Life.tidy_calls] at hcalls
    have hother' : (c.life.setPhase k (.finished .done)).calls[i]? = some other := by
      rw [← hother]
      exact congrArg (·[i]?) hcalls.symm
    rcases Life.call_of_setPhase (l := c.life) hcall hother' with ⟨-, rfl⟩ | ⟨hi, hother'⟩
    · rfl
    · exact not_isTurn_of_others h hlock hi hother'

/-! ### Runs -/

theorem launches_prefix (h : c.life.Orderly) (event : Event) :
    c.launches <+: (c.step event).launches := by
  have hlaunches : (c.step event).course.launches = c.course.launches ∨
      c.course.Launches (c.step event).course := by
    cases hdrops : c.dropsTurn event with
    | false => exact (Life.step_launches h (life_step h hdrops)).1.imp_right And.left
    | true => exact .inl (Life.droppingStep_launches (life_droppingStep hdrops)).1
  rcases hlaunches with hsame | hlaunch
  · have hsame' : (c.step event).launches = c.launches := hsame
    rw [hsame']
  · exact ⟨_, hlaunch.launches.symm⟩

/-- Launches are only added, and until one is, quiet stays. -/
theorem hasNoSession_run (h : c.life.Orderly) (hq : c.life.HasNoSession) (later : List Event) :
    c.launches <+: (c.run later).launches ∧
      ((c.run later).launches = c.launches → (c.run later).life.HasNoSession) := by
  induction later using List.reverseRecOn with
  | nil => exact ⟨List.prefix_refl _, fun _ => hq⟩
  | append_singleton later event ih =>
      obtain ⟨hgrown, hnoSession⟩ := ih
      have hrun := orderly_run h later
      have hnext := launches_prefix hrun event
      rw [run_append]
      refine ⟨hgrown.trans hnext, ?_⟩
      intro hsame
      -- Nothing was launched before the last event, nor by it.
      have hbefore : (c.run later).launches = c.launches := by
        refine (hgrown.eq_of_length_le ?_).symm
        rw [← hsame]
        exact hnext.length_le
      have hlast : ((c.run later).step event).launches = (c.run later).launches :=
        hsame.trans hbefore.symm
      exact Life.hasNoSession_derives (hnoSession hbefore) (derives_event hrun event) hlast

/-- A client that nobody holds launches nothing ever again and owns nothing. -/
theorem unheld_run (h : c.life.Orderly) (htidy : c.tidy = c) (hheld : c.isHeld = false)
    (later : List Event) :
    (c.run later).isHeld = false ∧ (c.run later).launches = c.launches ∧
      (c.run later).slot = none := by
  induction later using List.reverseRecOn with
  | nil =>
      refine ⟨hheld, rfl, ?_⟩
      rw [run, List.foldl_nil, ← htidy, tidy]
      simp [hheld]
  | append_singleton later event ih =>
      obtain ⟨hheld', hlaunches, -⟩ := ih
      have hrun := orderly_run h later
      have hkeeps : (c.run later).dropsTurn event = false := by
        rw [Bool.eq_false_iff]
        intro hdrops
        rw [isHeld_eq_life, Life.isHeld_of_droppingStep hrun (life_droppingStep hdrops)] at hheld'
        cases hheld'
      obtain ⟨hheld'', hsame, hslot⟩ := Life.unheld_step hrun hheld' (life_step hrun hkeeps)
      rw [run_append]
      have hsame' : ((c.run later).step event).launches = (c.run later).launches := hsame
      exact ⟨hheld'', hsame'.trans hlaunches, hslot⟩

/-- **Nothing is owned after a stop, until a server is launched.**  When an event ends a stop,
afterwards nothing is owned and nobody has a turn.  From then on launches are only added; as long as
none is, nothing is owned.  A server is launched only by the poll of a start, a restart, an
activation or a command that can go on; and once nobody holds the client, nothing is launched ever
again, and nothing is owned. -/
theorem nothing_is_owned_after_a_stop (options : SessionOptions) (processId : Nat)
    (workspace : Workspace) (past : List Event) (event : Event) (k : Nat) (call : Call) :
    let c := (Client.new options processId workspace).run past
    let d := c.step event
    c.calls[k]? = some call → call.operation = .stop → c.outcome? k = none →
      d.outcome? k = some .done →
      d.slot = none ∧
        (∀ (i : Nat) (other : Call), d.calls[i]? = some other → other.phase.isTurn = false) ∧
        (∀ later : List Event, d.launches <+: (d.run later).launches ∧
          ((d.run later).launches = d.launches → (d.run later).slot = none)) ∧
        (∀ (later : List Event) (next : Event), (d.run (later ++ [next])).launches ≠
          (d.run later).launches → ∃ (j : Nat) (other : Call), next = .poll j ∧
            (d.run later).calls[j]? = some other ∧ (d.run later).canGoOn j other.phase ∧
            other.operation.mayLaunch) ∧
        ∀ later more : List Event, (d.run later).isHeld = false →
          (d.run (later ++ more)).launches = (d.run later).launches ∧
            (d.run (later ++ more)).slot = none := by
  intro c d hcall hop hopen hended
  have h : c.life.Orderly := orderly_reached options processId workspace past
  have hf : c.Fitting := fitting_reached options processId workspace past
  have hd : d.life.Orderly := orderly_step h event
  obtain ⟨hslot, hnobody⟩ := ended_stop h hf hcall hop hopen hended
  -- Everything later rests on this: no slot, and no turn that could fill it.
  have hnoSession : d.life.HasNoSession := Life.hasNoSession_of_nobody hslot hnobody
  refine ⟨hslot, hnobody, ?_, ?_, ?_⟩
  · intro later
    obtain ⟨hgrown, hstays⟩ := hasNoSession_run hd hnoSession later
    exact ⟨hgrown, fun hsame => (hstays hsame).slot⟩
  · intro later next hlaunches
    have hfitting : (d.run later).Fitting := fitting_run hd (fitting_step h hf event) later
    rw [run_append] at hlaunches
    exact (launches_step (orderly_run hd later) hfitting next).resolve_left hlaunches
  · intro later more hheld
    rw [run_append]
    have htidy : (d.run later).tidy = d.run later := tidy_run (tidy_step c event) later
    exact (unheld_run (orderly_run hd later) htidy hheld more).2

/-- A client is activated, and a stop of its session waits for the connection, which has ended. -/
def activationAndStop : List Event :=
  [.invoke .activate, .poll 0] ++ handshake 1 0 ++ [.invoke .stop, .poll 1, .connection 1 .write,
    .connection 1 .finish, .connection 1 .write, .connection 1 .finish,
    .connection 1 (.receive (Frame.encode (acknowledgement 2))), .connection 1 .read,
    .connection 1 .handle, .poll 1, .connection 1 .write, .connection 1 .finish,
    .connection 1 .endOfStream, .connection 1 .read, .connection 1 .handle]

/-- The stop of an activated client leaves nothing that is owned. -/
theorem stop_of_an_activated_client :
    let c := (Client.new {} 0 {}).run activationAndStop
    let d := c.step (.poll 1)
    (∃ call : Call, c.calls[1]? = some call ∧ call.operation = .stop) ∧ c.outcome? 1 = none ∧
      d.outcome? 1 = some .done ∧ d.slot = none ∧ ∀ later : List Event,
        (d.run later).launches = d.launches → (d.run later).slot = none := by
  intro c d
  obtain ⟨hstop, hopen, hdone⟩ :
      c.calls[1]?.any (fun call => call.operation.takesTurn && !call.operation.mayLaunch) ∧
        (c.outcome? 1).isNone ∧ (d.outcome? 1).any fun outcome => outcome matches .done := by
    decide +kernel
  obtain ⟨call, hcall, hop⟩ := (Option.any_eq_true _ _).mp hstop
  have hop' : call.operation = .stop := by
    cases hcase : call.operation <;>
      simp_all [Operation.takesTurn, Operation.mayLaunch, Operation.asksTurn]
  obtain ⟨outcome, houtcome, hmatches⟩ := (Option.any_eq_true _ _).mp hdone
  have hended : d.outcome? 1 = some .done := by cases outcome <;> simp_all
  have hopen' : c.outcome? 1 = none := by simpa using hopen
  obtain ⟨hslot, -, hlater, -⟩ := nothing_is_owned_after_a_stop {} 0 {} activationAndStop (.poll 1)
    1 call hcall hop' hopen' hended
  exact ⟨⟨call, hcall, hop'⟩, hopen', hended, hslot, fun later => (hlater later).2⟩

/-- A command that restarts the server after the stop of an activated client launches a server, and
its session is handed out. -/
theorem restart_after_a_stop :
    let d := ((Client.new {} 0 {}).run activationAndStop).step (.poll 1)
    let later : List Event :=
      [.invoke (.command CommandName.restartServer [] true), .poll 2] ++ handshake 2 2
    d.status = ⟨1, .stopped⟩ ∧ d.slot = none ∧ d.launches = [1] ∧
      (d.run later).launches = [1, 2] ∧ (d.run later).session? = some 2 := by
  decide +kernel

end Client
end LanguageClient
