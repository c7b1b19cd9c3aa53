import LanguageClient.Proofs.Client.Conversation
import LanguageClient.Proofs.Session.Chronicle

/-!
# Starts whose first request fails

The first request to a server can end in an error of the server, in an answer that is no acceptable
result, in a time-out or in the end of the connection.  The call that started the session then gives
the start up: it waits for the connection and for the process to end, and reports the failure.

* `Client.failsHandshake` — whether the first request has ended in one of these ways.
* **`Client.nobodyLeft_fails`** — from then on nobody has anything to say to the server.
* `Client.GivesUp` — a call gives a start up.
* `Life.statuses_of_hasChronicle` — what is published of a session that has never been ready.
* **`Client.failed_in_time`** — all that a start that is given up needs to end is time.
-/

namespace LanguageClient

/-! ### Statuses of a session that has never been ready -/

theorem Stage.filter_part (g i : Nat) (stage : Stage) :
    (stage.part g).filter (·.generation = i) = if g = i then stage.part g else [] := by
  cases stage <;> by_cases hg : g = i <;> simp [part, hg]

/-- What is published of one session is its block, or the part of it that belongs to its stage. -/
theorem Course.filter_of_publishedUpTo {s : Course} {fates : List Fate} {stage : Stage}
    (h : s.PublishedUpTo fates stage) (i : Nat) :
    s.published.filter (·.generation = i + 1) =
      (fates[i]?).elim (if fates.length = i then stage.part (i + 1) else [])
        (Fate.block (i + 1)) := by
  rw [h.published, List.filter_append, filter_chronicle, Stage.filter_part]
  cases hfate : fates[i]? with
  | none =>
      rw [Option.elim_none, Option.elim_none, List.nil_append]
      by_cases hi : fates.length = i <;> simp [hi]
  | some fate =>
      obtain ⟨hi, -⟩ := List.getElem?_eq_some_iff.mp hfate
      have hne : fates.length ≠ i := Nat.ne_of_gt hi
      simp [hne]

/-- **A session that has begun and has never been ready has failed, or some call is starting it.** -/
theorem Life.statuses_of_hasChronicle {l : Life} {g : Nat} (h : l.Orderly) (ht : l.HasChronicle)
    (hbegun : l.course.HasBegun g) (hunready : ⟨g, .ready⟩ ∉ l.course.published) :
    l.course.published.filter (·.generation = g) = [⟨g, .starting⟩, ⟨g, .failed⟩] ∨
      l.course.published.filter (·.generation = g) = [⟨g, .starting⟩] ∧
        ∃ (k : Nat) (call : Call), l.calls[k]? = some call ∧ call.phase.startOf? = some g := by
  obtain ⟨hpos, hlatest⟩ := hbegun
  obtain ⟨i, rfl⟩ : ∃ i, g = i + 1 := ⟨g - 1, by omega⟩
  have hnot : ⟨i + 1, .ready⟩ ∉ l.course.published.filter (·.generation = i + 1) :=
    fun hmem => hunready (List.mem_filter.mp hmem).1
  -- Only the block of a failed start tells of no ready session.
  have hblock : ∀ {fates : List Fate} {stage : Stage}, l.course.PublishedUpTo fates stage →
      l.course.published.filter (·.generation = i + 1) = [⟨i + 1, .starting⟩, ⟨i + 1, .failed⟩] ∨
        i = fates.length ∧ stage.begun = 1 ∧
          l.course.published.filter (·.generation = i + 1) = stage.part (i + 1) := by
    intro fates stage hupTo
    have hfilter := Course.filter_of_publishedUpTo hupTo i
    have hgeneration := hupTo.generation
    cases hfate : fates[i]? with
    | some fate =>
        rw [hfate, Option.elim_some] at hfilter
        rw [hfilter] at hnot ⊢
        cases fate with
        | failed => exact .inl rfl
        | lost => simp [Fate.block] at hnot
        | stopped => simp [Fate.block] at hnot
    | none =>
        have hlength := List.getElem?_eq_none_iff.mp hfate
        have hbegun : stage.begun ≤ 1 := by cases stage <;> simp [Stage.begun]
        have hi : fates.length = i := by omega
        rw [hfate, Option.elim_none, if_pos hi] at hfilter
        exact .inr ⟨hi.symm, by omega, hfilter⟩
  obtain ⟨fates, hended | ⟨hstarting, k, call, hcall, hphase⟩ | ⟨hready, -⟩⟩ := ht
  · exact (hblock hended).imp_right fun hlast => by cases hlast.2.1
  · rcases hblock hstarting with hfailed | ⟨hi, -, hfilter⟩
    · exact .inl hfailed
    refine .inr ⟨hfilter, k, call, hcall, ?_⟩
    -- The call that starts a session starts the latest one.
    obtain ⟨g, hg⟩ := Option.isSome_iff_exists.mp hphase
    have hmatches := (h.turn k call hcall (Phase.isTurn_of_startOf? hg)).2.starting g hg
    have hstatus := hmatches.status
    rw [Course.status_of_starting hstarting, Status.mk.injEq] at hstatus
    rw [hg, hi, hstatus.1]
  · rcases hblock hready with hfailed | ⟨-, -, hfilter⟩
    · exact .inl hfailed
    · rw [hfilter] at hnot
      simp [Stage.part] at hnot

namespace Client

variable {c d : Client} {k g : Nat} {call : Call}

/-! ### The first request fails -/

/-- Whether a start cannot go on with what has come of its first request: that has failed, its answer
is no acceptable result, or the server can no longer be told that there is one. -/
def refuses (c : Client) (g : Nat) : Except SessionError Json → Bool
  | .error _ => true
  | .ok result => !InitializeResult.isAccepted result ||
      (c.notify? g ⟨Method.initialized, Handshake.noParams⟩).isNone

/-- Whether a call waits for the answer to the first request of a generation and finds that it cannot
go on with what has come of it. -/
def failsHandshake (c : Client) (g k : Nat) : Bool :=
  c.calls[k]?.any fun call => match call.phase with
    | .initializing n id => n = g && (c.settle? g id).any fun result => result.1.refuses g result.2
    | _ => false

/-- A call gives a start up: it waits for the connection to end, or for the process. -/
def GivesUp (c : Client) (g k : Nat) : Prop :=
  ∃ call : Call, c.calls[k]? = some call ∧
    ((∃ (error : SessionError) (deadline : Nat), call.phase = .abandoning g error deadline) ∨
      ∃ (deadline : Nat) (error : SessionError), call.phase = .reaping g deadline (some error))

theorem exists_of_failsHandshake (h : c.failsHandshake g k) :
    ∃ (call : Call) (id : Nat) (d : Client) (outcome : Except SessionError Json),
      c.calls[k]? = some call ∧ call.phase = .initializing g id ∧
        c.settle? g id = some (d, outcome) ∧ d.refuses g outcome := by
  obtain ⟨call, hcall, h⟩ := (Option.any_eq_true _ _).mp h
  split at h
  · rename_i n id hphase
    rw [Bool.and_eq_true, decide_eq_true_eq] at h
    obtain ⟨rfl, h⟩ := h
    obtain ⟨⟨d, outcome⟩, hsettle, hrefuses⟩ := (Option.any_eq_true _ _).mp h
    exact ⟨call, id, d, outcome, hcall, hphase, hsettle, hrefuses⟩
  · cases h

/-- The call gives the start up. -/
theorem afterHandshake_of_refuses {id : Nat} {outcome : Except SessionError Json}
    (hsettle : c.settle? g id = some (d, outcome)) (h : d.refuses g outcome) :
    ∃ error, c.afterHandshake g id = d.abandonStart g error := by
  unfold afterHandshake
  rw [hsettle]
  cases outcome with
  | error error => exact ⟨error, rfl⟩
  | ok result =>
      dsimp only
      split
      · rename_i haccepted
        have hnone : d.notify? g ⟨Method.initialized, Handshake.noParams⟩ = none := by
          simpa [refuses, haccepted] using h
        rw [hnone]
        exact ⟨.connectionClosed, rfl⟩
      · exact ⟨.invalidMessage, rfl⟩

/-- What the failure does: the call waits for the connection to end, and nothing else happens. -/
theorem poll_of_fails (h : c.failsHandshake g k) : ∃ (error : SessionError) (deadline : Nat),
    c.ReachesPhase k (.abandoning g error deadline) (c.poll k) ∧ (c.poll k).course = c.course ∧
      (c.poll k).mails = c.mails := by
  obtain ⟨call, id, d, outcome, hcall, hphase, hsettle, hrefuses⟩ := exists_of_failsHandshake h
  obtain ⟨error, hgo⟩ := afterHandshake_of_refuses hsettle hrefuses
  have hcan : c.canGoOn k call.phase := by
    rw [hphase, canGoOn, hsettle]
    rfl
  have hpoll : c.poll k = d.setPhase k (.abandoning g error (d.now + d.options.stopGrace)) := by
    rw [poll_eq hcall, if_pos hcan, hphase, goOn, hgo]
    rfl
  have hlife := life_settle? hsettle
  refine ⟨error, d.now + d.options.stopGrace, ⟨attemptsGoOn_poll c k, ?_⟩, ?_, ?_⟩
  · have hcalls : d.life.calls = c.life.calls := congrArg Life.calls hlife
    rw [hpoll]
    exact congrArg (fun calls : List Call => ({ d with calls } : Client).setPhase k
      (.abandoning g error (d.now + d.options.stopGrace)) |>.calls) hcalls
  · rw [hpoll]
    exact congrArg Life.course hlife
  · rw [hpoll]
    exact (mails_of_attempts (c := d) rfl).trans (mails_settle? hsettle)

/-- **When the first request has failed, nobody has anything to say to the server any more**, and
nothing is said while the call takes notice. -/
theorem nobodyLeft_fails (h : c.IsConsistent) {talk : Talk}
    (hagrees : (c.speakers g).AgreesWith talk) (hfails : c.failsHandshake g k) :
    ((c.step (.poll k)).speakers g).NobodyLeft ∧ c.utters g (.poll k) = [] ∧
      talk.isIntroduced = false := by
  obtain ⟨error, deadline, hreaches, hcourse, hmails⟩ := poll_of_fails hfails
  obtain ⟨call, id, d, outcome, hcall, hphase, hsettle, -⟩ := exists_of_failsHandshake hfails
  have hinitializing : c.life.HasPhase (.initializing g id) := ⟨k, call, hcall, hphase⟩
  have htalk : talk.isIntroduced = false := by
    rcases (hagrees.initializing id hinitializing).2 with htalk | ⟨htalk, -⟩ <;> rw [htalk] <;> rfl
  obtain ⟨howned, -, hkept, -⟩ := Speakers.agreesWith_before hagrees htalk
  have hturn : call.phase.isTurn := by
    rw [hphase]
    rfl
  have hholder := (h.life.turn k call hcall hturn).1
  have hothers : ∀ (i : Nat) (other : Call), i ≠ k → c.calls[i]? = some other →
      other.phase.isTurn = false :=
    fun i other hi hother => Life.not_isTurn_of_holder? h.life hholder hi hother
  have hslot : (c.poll k).slot = c.slot := congrArg Course.slot hcourse
  have hover : ((c.poll k).speakers g).NobodyLeft :=
    { begun := by
        have hbegun := begun_speakers (c := c) (d := c.poll k) (g := g)
          (hcourse ▸ Course.leavesSession_refl g _)
        exact hbegun.mpr (isSome_attempt?_of_settle? (by rw [hsettle]; rfl))
      launching := not_hasPhase_reachesPhase hreaches hothers rfl (by simp)
      initializing := fun _ => not_hasPhase_reachesPhase hreaches hothers rfl (by simp)
      owned := fun ho => howned (hslot.symm.trans ho)
      stopping := fun _ => not_hasPhase_reachesPhase hreaches hothers rfl (by simp)
      kept := fun hk => hkept (kept_reachesPhase hreaches (fun ho => hslot.symm.trans ho) nofun hk) }
  refine ⟨Speakers.nobodyLeft_grantsNothing hover (grantsNothing_tidy _ g), ?_, htalk⟩
  have hsame : (c.step (.poll k)).mails = c.mails := (mails_tidy _).trans hmails
  rw [utters, hsame, List.drop_length]
  rfl

/-! ### The start ends -/

/-- When its time is up, a call that has its turn goes on with the next part of it. -/
theorem run_later (part : Client → Client × Next) (hcall : c.calls[k]? = some call)
    {deadline : Nat} (hgo : ∀ d : Client, deadline ≤ d.now →
      d.canGoOn k call.phase ∧ d.goOn k call.operation call.phase = proceed k (part d)) :
    ∃ d : Client, d.published = c.published ∧ d.calls[k]? = some call ∧ deadline ≤ d.now ∧
      c.run [.advance deadline, .poll k] = (proceed k (part d)).tidy := by
  have hnow : (c.step (.advance deadline)).now = c.now + deadline := by
    unfold step act tidy
    dsimp only
    split <;> rfl
  have hcall' : (c.step (.advance deadline)).calls[k]? = some call := by
    rw [step, tidy_calls]
    exact hcall
  have hlater : deadline ≤ (c.step (.advance deadline)).now := by omega
  obtain ⟨hcan, hpart⟩ := hgo _ hlater
  refine ⟨c.step (.advance deadline), ?_, hcall', hlater, ?_⟩
  · rw [published, step, journal_tidy]
    rfl
  · change ((c.step (.advance deadline)).poll k).tidy = _
    rw [poll_eq hcall', if_pos hcan, hpart]

theorem published_tidy (c : Client) : c.tidy.published = c.published := by
  rw [published, journal_tidy, published]

/-- A part of a turn that reports that a start has failed. -/
theorem published_of_failStart {part : Client → Client × Next} (hpart : IsLocal part)
    (hcall : c.calls[k]? = some call) (error : SessionError) (hd : d.course = c.course)
    (hfails : part c = d.failStart g error) :
    (proceed k (part c)).tidy.published = c.published ++ [⟨g, .failed⟩] := by
  have hcourse := course_proceed hpart hcall
  rw [hfails, failStart, course_reportFailure, hd] at hcourse
  rw [published_tidy, hfails]
  exact congrArg Course.published hcourse

/-- A start whose process has had its time is reported as failed. -/
theorem failed_of_reaping (hcall : c.calls[k]? = some call) {deadline : Nat} {error : SessionError}
    (hphase : call.phase = .reaping g deadline (some error)) :
    (c.run [.advance deadline, .poll k]).published = c.published ++ [⟨g, .failed⟩] := by
  have hover : ∀ d : Client, deadline ≤ d.now → d.reapIsOver g deadline := by
    intro d hd
    simp [reapIsOver, hd]
  obtain ⟨d, hpublished, hcall', hlater, hrun⟩ := run_later
    (afterReaping · call.operation g deadline (some error)) hcall fun d hd => by
      rw [hphase]
      exact ⟨hover d hd, rfl⟩
  rw [hrun, ← hpublished]
  refine published_of_failStart (local_afterReaping call.operation g deadline (some error)) hcall'
    error (course_endProcess d g) ?_
  rw [afterReaping, if_pos (hover d hlater)]
  rfl

/-- When the connection is aborted, the call waits for the process, or the start has failed. -/
theorem reap_cases (c : Client) (operation : Operation) (g : Nat) (error : SessionError) :
    (∃ (d : Client) (deadline : Nat), c.reap operation g (some error) =
        (d, .waits (.reaping g deadline (some error))) ∧ d.course = c.course) ∨
      ∃ d : Client, c.reap operation g (some error) = d.failStart g error ∧ d.course = c.course := by
  have hcourse := course_updateConnection c g Connection.abort
  unfold reap
  dsimp only
  split
  · exact .inl ⟨_, _, rfl, hcourse⟩
  · exact .inr ⟨_, rfl, hcourse⟩

/-- A start whose connection has had its time is reported as failed, or waits for its process. -/
theorem failed_of_abandoning (hcall : c.calls[k]? = some call) {deadline : Nat}
    {error : SessionError} (hphase : call.phase = .abandoning g error deadline) :
    let d := c.run [.advance deadline, .poll k]
    d.published = c.published ++ [⟨g, .failed⟩] ∨
      d.published = c.published ∧ ∃ (later : Call) (deadline : Nat), d.calls[k]? = some later ∧
        later.phase = .reaping g deadline (some error) := by
  have hover : ∀ d : Client, deadline ≤ d.now → d.closeIsOver g deadline := by
    intro d hd
    unfold closeIsOver
    cases d.connection? g with
    | none => rfl
    | some connection => simp [Connection.closeIsOver, hd]
  obtain ⟨d, hpublished, hcall', hlater, hrun⟩ := run_later
    (afterAbandoning · call.operation g error deadline) hcall fun d hd => by
      rw [hphase]
      exact ⟨hover d hd, rfl⟩
  have hlocal := local_afterAbandoning call.operation g error deadline
  have hpart : d.afterAbandoning call.operation g error deadline =
      d.reap call.operation g (some error) := by rw [afterAbandoning, if_pos (hover d hlater)]
  dsimp only
  rw [hrun, ← hpublished]
  rcases reap_cases d call.operation g error with
    ⟨e, again, hreap, hcourse⟩ | ⟨e, hreap, hcourse⟩
  · right
    have hlife := life_proceed hlocal hcall'
    rw [hpart, hreap, hcourse] at hlife
    rw [published_tidy, tidy_calls, hpart, hreap]
    exact ⟨congrArg (fun l : Life => l.course.published) hlife, _, again,
      (congrArg (fun l : Life => l.calls[k]?) hlife).trans
        (Life.getElem?_setPhase_self (l := d.life) hcall' _), rfl⟩
  · left
    exact published_of_failStart hlocal hcall' error hcourse (hpart.trans hreap)

/-- **All that a start that is given up needs to end is time.**  Whatever has happened, if from now on
nothing does but that time passes and the call goes on, the session is published as failed. -/
theorem failed_in_time (h : c.GivesUp g k) : ∃ future : List Event,
    (∀ event ∈ future, (∃ span, event = .advance span) ∨ event = .poll k) ∧
      (c.run future).published = c.published ++ [⟨g, .failed⟩] := by
  obtain ⟨call, hcall, ⟨error, deadline, hphase⟩ | ⟨deadline, error, hphase⟩⟩ := h
  · rcases failed_of_abandoning hcall hphase with hfailed | ⟨hsame, later, again, hlater, hreaping⟩
    · exact ⟨_, by simp, hfailed⟩
    · refine ⟨[.advance deadline, .poll k] ++ [.advance again, .poll k], by simp, ?_⟩
      rw [run_append, failed_of_reaping hlater hreaping, hsame]
  · exact ⟨_, by simp, failed_of_reaping hcall hphase⟩

end Client
end LanguageClient
