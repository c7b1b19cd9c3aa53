import LanguageClient.Proofs.Client.Speaking
import LanguageClient.Proofs.Client.Talk
import LanguageClient.Proofs.Session.Endings

/-!
# What a call that goes on says

* `Client.speakers` — who may speak on the connection of a generation.
* `Client.IsConsistent` — what holds of a client after any events and lets nobody speak out of turn.
* `Client.voice`, `Client.utters`, `Client.sent` — what is said in an event and in several.
* `Client.SpeaksAsItself` — a call that goes on is a move for every generation and speaks for itself.
* `Client.speaksAsItself_proceed`, `Client.speaksAsItself_ask`, … — the parts of a call.
* **`Client.speaksAsItself_goOn`** — every call that can go on.
-/

namespace LanguageClient

/-! ### The view -/

/-- Some call is in a phase. -/
def Life.HasPhase (l : Life) (phase : Phase) : Prop :=
  ∃ (k : Nat) (call : Call), l.calls[k]? = some call ∧ call.phase = phase

/-- Who says what a call says. -/
def Call.voice (call : Call) : Voice :=
  match call.operation, call.phase with
  | .relay g _ _, _ => .handle g
  | _, .awaiting _ _ _ => .controller
  | _, _ => .lifeCycle

/-- A call that neither relays nor awaits a reply speaks for the life cycle. -/
theorem Call.voice_eq_lifeCycle {call : Call}
    (hrelay : ∀ g method params, call.operation ≠ .relay g method params)
    (hawaiting : ∀ g n goal, call.phase ≠ .awaiting g n goal) : call.voice = .lifeCycle := by
  unfold voice
  split
  · exact absurd ‹call.operation = _› (hrelay _ _ _)
  · exact absurd ‹call.phase = _› (hawaiting _ _ _)
  · rfl

/-- Any other call that awaits a reply speaks for one who asks the client. -/
theorem Call.voice_awaiting {call : Call}
    (hrelay : ∀ g method params, call.operation ≠ .relay g method params) (g id : Nat)
    (goal : RequestGoal) :
    ({ call with phase := .awaiting g id goal } : Call).voice = .controller := by
  cases hop : call.operation with
  | relay n method params => exact absurd hop (hrelay n method params)
  | _ => simp [voice]

namespace Client

/-- Who may speak on the connection of a generation. -/
def speakers (c : Client) (g : Nat) : Speakers where
  begun := (c.attempt? g).isSome
  launching := c.life.HasPhase (.launching g)
  initializing id := c.life.HasPhase (.initializing g id)
  owned := c.slot = some g
  stopping id := c.life.HasPhase (.stopping g id)
  kept := c.hasSession g
  ready := ⟨g, .ready⟩ ∈ c.published
  answered id := c.Answered g id
  mail := c.mails g

/-- Who says what is said in an event. -/
def voice (c : Client) : Event → Voice
  | .poll k => (c.act (.poll k)).calls[k]?.elim .lifeCycle Call.voice
  | .relayNotification g _ => .handle g
  | _ => .lifeCycle

/-- What an event adds to the queue of the connection of a generation. -/
def utters (c : Client) (g : Nat) (event : Event) : List Said :=
  (((c.step event).mails g).queue.drop (c.mails g).queue.length).map (⟨c.voice event, ·⟩)

/-- What is said to the server of a generation in a sequence of events, the first thing first. -/
def sent (c : Client) (g : Nat) : List Event → List Said
  | [] => []
  | event :: rest => c.utters g event ++ (c.step event).sent g rest

/-- The calls stand as they should, and what is still in being has been launched. -/
structure IsConsistent (c : Client) : Prop where
  life : c.life.Orderly
  fitting : c.Fitting
  ended : ∀ (g : Nat) (a : Attempt), c.attempt? g = some a → a.EndsBeforeClosed
  kept : ∀ g, c.hasSession g → (c.attempt? g).isSome

variable {c d : Client} {k g : Nat} {call : Call} {phase other : Phase}

/-- A call that waits for its turn or has it does not relay. -/
theorem IsConsistent.not_relay (h : c.IsConsistent) (hcall : c.calls[k]? = some call)
    (hturn : call.phase = .queued ∨ call.phase.isTurn) :
    ∀ g method params, call.operation ≠ .relay g method params := by
  intro g method params hop
  have hasks := (h.fitting k call hcall).turn hturn
  rw [hop] at hasks
  cases hasks

theorem hasSession_iff : c.hasSession g ↔
    c.slot = some g ∨ ∃ phase, c.life.HasPhase phase ∧ phase.session? = some g := by
  unfold hasSession Life.HasPhase
  rw [Bool.or_eq_true, decide_eq_true_eq, List.any_eq_true]
  refine or_congr_right ⟨?_, ?_⟩
  · rintro ⟨call, hmem, hsession⟩
    obtain ⟨k, hk⟩ := List.mem_iff_getElem?.mp hmem
    exact ⟨call.phase, ⟨k, call, hk, rfl⟩, by simpa using hsession⟩
  · rintro ⟨phase, ⟨k, call, hk, rfl⟩, hsession⟩
    exact ⟨call, List.mem_of_getElem? hk, by simpa using hsession⟩

theorem IsConsistent.attempt_of_slot (h : c.IsConsistent) (g : Nat) (hslot : c.slot = some g) :
    (c.attempt? g).isSome := h.kept g (hasSession_iff.mpr (.inl hslot))

theorem hasSession_of_phase (hcall : c.calls[k]? = some call) (h : call.phase.session? = some g) :
    c.hasSession g := hasSession_iff.mpr (.inr ⟨call.phase, ⟨k, call, hcall, rfl⟩, h⟩)

theorem isSome_attempt? (c : Client) (g : Nat) : (c.attempt? g).isSome ↔ c.course.HasBegun g := by
  have hgeneration : c.course.generation = c.attempts.length := rfl
  unfold attempt? Course.HasBegun
  rw [hgeneration]
  split
  · rename_i hg
    simp [hg]
  · rw [isSome_getElem?]
    omega

theorem speakers_of_workspaceEffect {f : Client → Client} (hf : WorkspaceEffect f) (c : Client)
    (g : Nat) : (f c).speakers g = c.speakers g := by
  have hattempt : (f c).attempt? g = c.attempt? g := by rw [attempt?, hf.attempts, attempt?]
  simp only [speakers, Answered, life_of_workspaceEffect hf, hf.slot, hf.published, hattempt,
    mails_of_attempts (hf.attempts c), hasSession, hf.calls]

/-! ### Nobody gets the right to speak -/

theorem begun_speakers (hcourse : c.course.LeavesSession g d.course) :
    (d.attempt? g).isSome ↔ (c.attempt? g).isSome := by
  rw [isSome_attempt?, isSome_attempt?]
  exact hcourse.begun

theorem grantsNothing_speakers (hgoOn : c.AttemptsGoOn d)
    (hcourse : c.course.LeavesSession g d.course)
    (hphases : ∀ phase, d.life.HasPhase phase → c.life.HasPhase phase ∨
      phase.speaker? ≠ some g ∧ (phase.session? = some g → c.hasSession g)) :
    (c.speakers g).GrantsNothing (d.speakers g) where
  begun := begun_speakers hcourse
  launching h := (hphases _ h).resolve_right fun hnew => hnew.1 rfl
  initializing id h := (hphases _ h).resolve_right fun hnew => hnew.1 rfl
  owned := hcourse.slot
  stopping id h := (hphases _ h).resolve_right fun hnew => hnew.1 rfl
  kept h := by
    rcases hasSession_iff.mp h with hslot | ⟨phase, hphase, hsession⟩
    · exact hasSession_iff.mpr (.inl (hcourse.slot hslot))
    · rcases hphases phase hphase with hold | ⟨-, hkept⟩
      · exact hasSession_iff.mpr (.inr ⟨phase, hold, hsession⟩)
      · exact hkept hsession
  ready := hcourse.ready
  answered _ := answered_attemptsGoOn hgoOn

/-- A call comes to a phase, and the attempts go on. -/
structure ReachesPhase (c : Client) (k : Nat) (phase : Phase) (d : Client) : Prop where
  carries : c.AttemptsGoOn d
  calls : d.calls = (c.setPhase k phase).calls

theorem hasPhase_reachesPhase (h : c.ReachesPhase k phase d) (hd : d.life.HasPhase other) :
    (∃ (i : Nat) (call : Call), i ≠ k ∧ c.calls[i]? = some call ∧ call.phase = other) ∨
      other = phase := by
  obtain ⟨i, call, hcall, rfl⟩ := hd
  have hcall' : (c.life.setPhase k phase).calls[i]? = some call := by
    have hcalls : d.life.calls = (c.life.setPhase k phase).calls := h.calls
    rwa [hcalls] at hcall
  by_cases hi : i = k
  · subst hi
    rw [Life.getElem?_setPhase, if_pos rfl] at hcall'
    obtain ⟨before, -, rfl⟩ := Option.map_eq_some_iff.mp hcall'
    exact .inr rfl
  · rw [Life.getElem?_setPhase_ne _ (Ne.symm hi)] at hcall'
    exact .inl ⟨i, call, hi, hcall', rfl⟩

theorem grantsNothing_reachesPhase (h : c.ReachesPhase k phase d)
    (hcourse : c.course.LeavesSession g d.course)
    (hspeaker : phase.speaker? ≠ some g) (hsession : phase.session? = some g → c.hasSession g) :
    (c.speakers g).GrantsNothing (d.speakers g) := by
  refine grantsNothing_speakers h.carries hcourse ?_
  intro other hother
  rcases hasPhase_reachesPhase h hother with ⟨i, call, -, hcall, rfl⟩ | rfl
  · exact .inl ⟨i, call, hcall, rfl⟩
  · exact .inr ⟨hspeaker, hsession⟩

/-! ### A call goes on -/

/-- A call that goes on is a move for every generation; what it says it says as itself. -/
def SpeaksAsItself (c : Client) (k : Nat) (d : Client) : Prop :=
  ∀ g, ∃ utterance? : Option Utterance, Speakers.Move g (c.speakers g) (d.speakers g) utterance? ∧
    ∀ u, utterance? = some u → u.voice = d.calls[k]?.elim .lifeCycle Call.voice

theorem speaksAsItself_of_silence (h : ∀ g, Speakers.Move g (c.speakers g) (d.speakers g) none) :
    c.SpeaksAsItself k d :=
  fun g => ⟨none, h g, nofun⟩

/-- A call comes to a phase in which it has nothing to say. -/
theorem speaksAsItself_reachesPhase (h : c.ReachesPhase k phase d)
    (hcourse : ∀ g, c.course.LeavesSession g d.course)
    (hmails : d.mails = c.mails) (hspeaker : phase.speaker? = none)
    (hsession : ∀ g, phase.session? = some g → c.hasSession g) : c.SpeaksAsItself k d := by
  refine speaksAsItself_of_silence fun g => .rests ?_ ?_
  · exact grantsNothing_reachesPhase h (hcourse g) (by simp [hspeaker]) (hsession g)
  · change (c.mails g).AcceptsNothing (d.mails g)
    rw [hmails]
    exact Mail.acceptsNothing_refl _

theorem speaksAsItself_after {f : Client → Client} (hf : WorkspaceEffect f)
    (h : (f c).SpeaksAsItself k d) : c.SpeaksAsItself k d := by
  intro g
  obtain ⟨utterance?, hmove, hvoice⟩ := h g
  rw [speakers_of_workspaceEffect hf] at hmove
  exact ⟨utterance?, hmove, hvoice⟩

/-- A call that comes to a phase is the call that it was. -/
theorem self_reachesPhase (h : c.ReachesPhase k phase d) (hcall : c.calls[k]? = some call) :
    d.calls[k]? = some { call with phase } := by
  rw [h.calls]
  exact Life.getElem?_setPhase_self (l := c.life) hcall _

/-- A call that neither relays nor comes to await a reply speaks for the life cycle. -/
theorem voice_reachesPhase (h : c.ReachesPhase k phase d) (hcall : c.calls[k]? = some call)
    (hrelay : ∀ g method params, call.operation ≠ .relay g method params)
    (hawaiting : ∀ g n goal, phase ≠ .awaiting g n goal) :
    d.calls[k]?.elim .lifeCycle Call.voice = .lifeCycle := by
  have hown : ({ call with phase } : Call).voice = .lifeCycle :=
    Call.voice_eq_lifeCycle hrelay hawaiting
  rw [self_reachesPhase h hcall, Option.elim_some, hown]

/-- One generation hears something, and the others do not notice. -/
theorem speaksAsItself_to {n : Nat} {u : Utterance}
    (hmove : Speakers.Move n (c.speakers n) (d.speakers n) (some u))
    (hvoice : u.voice = d.calls[k]?.elim .lifeCycle Call.voice)
    (hrest : ∀ g, g ≠ n → Speakers.Move g (c.speakers g) (d.speakers g) none) :
    c.SpeaksAsItself k d := by
  intro g
  by_cases hg : g = n
  · subst hg
    refine ⟨some u, hmove, ?_⟩
    rintro _ ⟨⟩
    exact hvoice
  · exact ⟨none, hrest g hg, nofun⟩

/-! ### Turns -/

section Turns

variable {e : Client} (h : c.ReachesPhase k phase e)
include h

/-- While one call has its turn, no phase of a turn is left behind by another. -/
theorem not_hasPhase_reachesPhase
    (hothers : ∀ (i : Nat) (other : Call), i ≠ k → c.calls[i]? = some other →
    other.phase.isTurn = false) (hturn : other.isTurn) (hne : other ≠ phase) :
    ¬ e.life.HasPhase other := by
  intro hother
  rcases hasPhase_reachesPhase h hother with ⟨i, call, hi, hcall, rfl⟩ | heq
  · rw [hothers i call hi hcall] at hturn
    cases hturn
  · exact hne heq

theorem kept_reachesPhase (hslot : e.slot = some g → c.slot = some g)
    (hsession : phase.session? = some g → c.hasSession g) (hkept : e.hasSession g) :
    c.hasSession g := by
  rcases hasSession_iff.mp hkept with howned | ⟨other, hother, hs⟩
  · exact hasSession_iff.mpr (.inl (hslot howned))
  · rcases hasPhase_reachesPhase h hother with ⟨i, call, -, hcall, rfl⟩ | rfl
    · exact hasSession_of_phase hcall hs
    · exact hsession hs

theorem hasPhase_of_ne (hne : other ≠ phase) (hother : e.life.HasPhase other) :
    c.life.HasPhase other := by
  rcases hasPhase_reachesPhase h hother with ⟨i, call, -, hcall, rfl⟩ | heq
  · exact ⟨i, call, hcall, rfl⟩
  · exact absurd heq hne

/-- A turn that concerns another generation. -/
theorem move_elsewhere (hcourse : c.course.LeavesSession g e.course)
    (hspeaker : phase.speaker? ≠ some g)
    (hsession : phase.session? ≠ some g) (hmail : e.mails g = c.mails g) :
    Speakers.Move g (c.speakers g) (e.speakers g) none := by
  refine .rests (grantsNothing_reachesPhase h hcourse hspeaker fun hs => absurd hs hsession) ?_
  change (c.mails g).AcceptsNothing (e.mails g)
  rw [hmail]
  exact Mail.acceptsNothing_refl _

/-- The server has been launched. -/
theorem move_asks {n : Nat} {params : Json} (hphase : phase = .initializing g n)
    (hid : n = (c.mails g).nextId)
    (hothers : ∀ (i : Nat) (other : Call), i ≠ k → c.calls[i]? = some other →
      other.phase.isTurn = false) (hbefore : c.life.HasPhase (.launching g))
    (hcourse : e.course = c.course) (hhands : c.HandsIn g (.opening params) e) :
    Speakers.Move g (c.speakers g) (e.speakers g) (some ⟨.lifeCycle, .opening params⟩) := by
  subst hphase
  have hleaves : c.course.LeavesSession g e.course := hcourse ▸ Course.leavesSession_refl g _
  refine .asks params hbefore (not_hasPhase_reachesPhase h hothers rfl (by simp)) ?_ ?_ hhands.self
  · intro m hm
    rcases hasPhase_reachesPhase h hm with ⟨i, call, hi, hcall, hturn⟩ | heq
    · have hnot := hothers i call hi hcall
      rw [hturn] at hnot
      cases hnot
    · injection heq with _ heq
      exact heq.trans hid
  · exact
      { begun := begun_speakers hleaves
        launching := hasPhase_of_ne h (by simp)
        initializing := fun _ => id
        owned := hleaves.slot
        stopping := fun _ => hasPhase_of_ne h (by simp)
        kept := kept_reachesPhase h hleaves.slot nofun
        ready := hleaves.ready
        answered := fun _ => answered_attemptsGoOn h.carries }

/-- The first request has been answered. -/
theorem move_greets {n : Nat} (hphase : phase.isOver)
    (hothers : ∀ (i : Nat) (other : Call), i ≠ k → c.calls[i]? = some other →
      other.phase.isTurn = false) (hbefore : c.life.HasPhase (.initializing g n))
    (hopen : (c.mails g).isOpen) (hanswered : e.Answered g n)
    (hcourse : e.course = c.course.ready g) (hhands : c.HandsIn g .initialized e) :
    Speakers.Move g (c.speakers g) (e.speakers g) (some ⟨.lifeCycle, .initialized⟩) := by
  have hne : ∀ other : Phase, other.isTurn → other ≠ phase := by
    rintro other hturn rfl
    rw [Phase.not_isTurn_of_isOver hphase] at hturn
    cases hturn
  refine .greets n hopen hbefore
    (fun _ => not_hasPhase_reachesPhase h hothers rfl (hne _ rfl)) hanswered
    ?_ hhands.self
  exact
    { begun := by
        change (e.attempt? g).isSome ↔ (c.attempt? g).isSome
        rw [isSome_attempt?, isSome_attempt?, hcourse]
        exact .rfl
      launching := hasPhase_of_ne h (hne _ rfl)
      initializing := fun _ => hasPhase_of_ne h (hne _ rfl)
      owned := id
      stopping := fun _ => hasPhase_of_ne h (hne _ rfl)
      kept := id
      ready := id
      answered := fun _ => answered_attemptsGoOn h.carries }

/-- The session is taken away. -/
theorem move_takes {n : Nat} (hphase : phase = .stopping g n) (hslot : c.slot = some g)
    (hcourse : e.course = c.course.letGo) (hhands : c.HandsIn g .shutdown e) :
    Speakers.Move g (c.speakers g) (e.speakers g) (some ⟨.lifeCycle, .shutdown⟩) := by
  subst hphase
  have hleaves : c.course.LeavesSession g e.course := hcourse ▸ Course.leavesSession_letGo g _
  have hempty : e.slot = none := congrArg Course.slot hcourse
  refine .takes hslot (by simp [speakers, hempty]) ?_ hhands.self
  exact
    { begun := begun_speakers hleaves
      launching := hasPhase_of_ne h (by simp)
      initializing := fun _ => hasPhase_of_ne h (by simp)
      owned := hleaves.slot
      stopping := fun _ => id
      kept := kept_reachesPhase h hleaves.slot fun _ => hasSession_iff.mpr (.inl hslot)
      ready := hleaves.ready
      answered := fun _ => answered_attemptsGoOn h.carries }

/-- The last request has been acknowledged. -/
theorem move_exits {n deadline : Nat} (hphase : phase = .closing g deadline)
    (hothers : ∀ (i : Nat) (other : Call), i ≠ k → c.calls[i]? = some other →
      other.phase.isTurn = false) (hbefore : c.life.HasPhase (.stopping g n))
    (hopen : (c.mails g).isOpen) (hcourse : e.course = c.course) (hhands : c.HandsIn g .exit e) :
    Speakers.Move g (c.speakers g) (e.speakers g) (some ⟨.lifeCycle, .exit⟩) := by
  subst hphase
  refine .exits n hopen hbefore (fun _ => not_hasPhase_reachesPhase h hothers rfl (by simp)) ?_
    hhands.self
  refine grantsNothing_reachesPhase h (hcourse ▸ Course.leavesSession_refl g _)
    (by simp [Phase.speaker?]) fun _ => ?_
  exact hasSession_iff.mpr (.inr ⟨_, hbefore, rfl⟩)

/-- The start of the next generation begins. -/
theorem move_begins {s : Course} (hphase : phase = .launching (s.generation + 1))
    (hleaves : c.course.LeavesSession (s.generation + 1) s) (hcourse : e.course = s.launch)
    (hmails : e.mails = c.mails) :
    Speakers.Move (s.generation + 1) (c.speakers (s.generation + 1))
      (e.speakers (s.generation + 1)) none := by
  subst hphase
  have hslot : e.slot = s.slot := congrArg Course.slot hcourse
  have hpublished : e.published = s.launch.published := congrArg Course.published hcourse
  have hready : ⟨s.generation + 1, .ready⟩ ∈ e.published →
      ⟨s.generation + 1, .ready⟩ ∈ s.published := by
    rw [hpublished]
    exact (Course.leavesSession_publish _ s _ (by simp)).ready
  refine .begins ?_ ?_ ?_ (congrFun hmails _)
  · change ¬ (c.attempt? _).isSome
    rw [isSome_attempt?, ← hleaves.begun]
    exact fun hbegun => Nat.not_succ_le_self _ hbegun.2
  · change (e.attempt? _).isSome
    rw [isSome_attempt?, hcourse]
    exact ⟨Nat.succ_pos _, Nat.le_refl _⟩
  · exact
      { begun := .rfl
        launching := id
        initializing := fun _ => hasPhase_of_ne h (by simp)
        owned := fun ho => hleaves.slot (hslot.symm.trans ho)
        stopping := fun _ => hasPhase_of_ne h (by simp)
        kept := kept_reachesPhase h (fun ho => hleaves.slot (hslot.symm.trans ho)) nofun
        ready := hleaves.ready ∘ hready
        answered := fun _ => answered_attemptsGoOn h.carries }

end Turns

/-- A message that is handed in to one server is no move for any other generation, when the turn
concerns none of these. -/
theorem speaksAsItself_handsIn {e : Client} {n : Nat} {speech : Speech} {u : Utterance}
    (h : c.ReachesPhase k phase e) (hmove : Speakers.Move n (c.speakers n) (e.speakers n) (some u))
    (hvoice : u.voice = e.calls[k]?.elim .lifeCycle Call.voice) (hhands : c.HandsIn n speech e)
    (hleaves : ∀ {g}, g ≠ n → c.course.LeavesSession g e.course)
    (hphase : ∀ g, phase.speaker? = some g ∨ phase.session? = some g → g = n) :
    c.SpeaksAsItself k e :=
  speaksAsItself_to hmove hvoice fun g hg =>
    move_elsewhere h (hleaves hg) (fun hs => hg (hphase g (.inl hs)))
      (fun hs => hg (hphase g (.inr hs))) (hhands.others g hg)

/-- A part of a turn that says nothing is silent for every generation.  If it begins the start of the
next one, that generation begins with it. -/
theorem speaksAsItself_silent {e : Client} {result : Client × Next}
    (hsilent : c.Silent call.phase.session? result) (hcall : c.calls[k]? = some call)
    (h : c.ReachesPhase k (result.2.phase call.operation) e) (hcourse : e.course = result.1.course)
    (hmails : e.mails = result.1.mails) : c.SpeaksAsItself k e := by
  cases hsilent with
  | rests hmails' hcourse' hnext =>
      rename_i d next
      obtain ⟨hspeaker, hkept⟩ : (next.phase call.operation).speaker? = none ∧
          ∀ g, (next.phase call.operation).session? = some g → c.hasSession g := by
        cases next with
        | ends outcome => exact ⟨rfl, nofun⟩
        | waits phase =>
            obtain ⟨hnone, hkept⟩ := hnext phase rfl
            exact ⟨hnone, fun g hg => hasSession_of_phase hcall (hkept g hg)⟩
      exact speaksAsItself_reachesPhase h (fun g => hcourse ▸ hcourse' g) (hmails.trans hmails')
        hspeaker hkept
  | launches s hmails' hleaves hcourse' =>
      have hlaunch := hcourse.trans hcourse'
      refine speaksAsItself_of_silence fun g => ?_
      by_cases hg : g = s.generation + 1
      · subst hg
        exact move_begins h rfl (hleaves _) hlaunch (hmails.trans hmails')
      · refine move_elsewhere h ?_ ?_ nofun (congrFun (hmails.trans hmails') g)
        · rw [hlaunch]
          exact (hleaves g).trans (Course.leavesSession_launch hg)
        · exact fun heq => hg (Option.some.inj heq).symm

/-- What a part of a turn does to the speakers of every generation. -/
theorem speaksAsItself_speaks {e : Client} {result : Client × Next}
    (hspeaks : c.Speaks call.phase result) (hcall : c.calls[k]? = some call)
    (hrelay : ∀ g method params, call.operation ≠ .relay g method params)
    (hothers : ∀ (i : Nat) (other : Call), i ≠ k → c.calls[i]? = some other →
      other.phase.isTurn = false)
    (h : c.ReachesPhase k (result.2.phase call.operation) e) (hcourse : e.course = result.1.course)
    (hmails : e.mails = result.1.mails) (hanswered : ∀ g n, result.1.Answered g n → e.Answered g n) :
    c.SpeaksAsItself k e := by
  have hphase : c.life.HasPhase call.phase := ⟨k, call, hcall, rfl⟩
  have hvoice := voice_reachesPhase h hcall hrelay
  cases hspeaks with
  | silent hsilent => exact speaksAsItself_silent hsilent hcall h hcourse hmails
  | asks hlaunching hcourse' hhands =>
      have hhands' := handsIn_of_mails hhands hmails
      have hsame := hcourse.trans hcourse'
      refine speaksAsItself_handsIn h (move_asks h rfl rfl hothers (hlaunching ▸ hphase) hsame hhands')
        (hvoice nofun).symm hhands' (fun _ => hsame ▸ Course.leavesSession_refl _ _) ?_
      rintro g (hg | hg) <;> cases hg
      rfl
  | greets hinitializing hopen hanswered' hcourse' hhands =>
      rename_i d n id
      have hhands' := handsIn_of_mails hhands hmails
      have hready := hcourse.trans hcourse'
      refine speaksAsItself_handsIn h (move_greets h rfl hothers (hinitializing ▸ hphase) hopen
        (hanswered n id hanswered') hready hhands') (hvoice nofun).symm hhands'
        (fun hg => hready ▸ Course.leavesSession_ready (Ne.symm hg) _) ?_
      rintro g (hg | hg) <;> cases hg
  | takes hslot hcourse' hhands =>
      have hhands' := handsIn_of_mails hhands hmails
      have hletGo := hcourse.trans hcourse'
      refine speaksAsItself_handsIn h (move_takes h rfl hslot hletGo hhands') (hvoice nofun).symm
        hhands' (fun _ => hletGo ▸ Course.leavesSession_letGo _ _) ?_
      rintro g (hg | hg) <;> cases hg <;> rfl
  | exits hstopping hopen hcourse' hhands =>
      have hhands' := handsIn_of_mails hhands hmails
      have hsame := hcourse.trans hcourse'
      refine speaksAsItself_handsIn h
        (move_exits h rfl hothers (hstopping ▸ hphase) hopen hsame hhands') (hvoice nofun).symm
        hhands' (fun _ => hsame ▸ Course.leavesSession_refl _ _) ?_
      rintro g (hg | hg) <;> cases hg
      rfl

/-- The end of a part of a turn leaves the sessions as the part leaves them. -/
theorem course_proceed {part : Client → Client × Next} (hpart : IsLocal part)
    (hcall : c.calls[k]? = some call) : (proceed k (part c)).course = (part c).1.course :=
  (congrArg Life.course (life_proceed hpart hcall)).trans (Life.course_proceed _ _ _ _ _)

/-- **A call that has its turn goes on with it**, and nobody else has one. -/
theorem speaksAsItself_proceed {part : Client → Client × Next} (hpart : IsLocal part)
    (hcall : c.calls[k]? = some call) (hgoOn : c.AttemptsGoOn (part c).1)
    (hrelay : ∀ g method params, call.operation ≠ .relay g method params)
    (hothers : ∀ (i : Nat) (other : Call), i ≠ k → c.calls[i]? = some other →
      other.phase.isTurn = false)
    (h : c.Speaks call.phase (part c)) : c.SpeaksAsItself k (proceed k (part c)) := by
  have hlife := life_proceed hpart hcall
  have hattempts := attempts_proceed k (part c)
  refine speaksAsItself_speaks h hcall hrelay hothers ⟨attemptsGoOn_proceed k hgoOn, ?_⟩
    (course_proceed hpart hcall)
    (mails_of_attempts hattempts) fun g n =>
      answered_attemptsGoOn (attemptsGoOn_of_attempts hattempts)
  refine (congrArg Life.calls hlife).trans ?_
  cases (part c).2 <;> rfl

/-! ### Requests -/

/-- A call comes to a phase in which it keeps no session, and no attempt takes notice. -/
theorem speaksAsItself_setPhase (hcalls : d.calls = (c.setPhase k phase).calls)
    (hcourse : d.course = c.course)
    (hattempts : d.attempts = c.attempts) (hspeaker : phase.speaker? = none)
    (hsession : phase.session? = none) : c.SpeaksAsItself k d := by
  refine speaksAsItself_reachesPhase ⟨attemptsGoOn_of_attempts hattempts, hcalls⟩ ?_
    (mails_of_attempts hattempts)
    hspeaker ?_
  · intro g
    rw [hcourse]
    exact Course.leavesSession_refl g _
  · intro g hg
    rw [hsession] at hg
    cases hg

theorem speaksAsItself_finish (h : ∃ outcome, d.life = c.life.setPhase k (.finished outcome))
    (hattempts : d.attempts = c.attempts) : c.SpeaksAsItself k d := by
  obtain ⟨outcome, hlife⟩ := h
  exact speaksAsItself_setPhase (congrArg Life.calls hlife) (congrArg Life.course hlife)
    hattempts rfl rfl

theorem speaksAsItself_finishCommand (c : Client) (k : Nat) (result : Except CommandError Unit) :
    c.SpeaksAsItself k (c.finishCommand k result) :=
  speaksAsItself_finish ⟨_, life_finishCommand c k result⟩ (attempts_finishCommand c k result)

theorem speaksAsItself_useReply (c : Client) (k : Nat) (reply : Except SessionError Json)
    (goal : RequestGoal) : c.SpeaksAsItself k (c.useReply k reply goal) :=
  speaksAsItself_finish (life_useReply c k reply goal) (attempts_useReply c k reply goal)

/-- A call sends a request by a session that is in being: by that of its own generation if it relays,
else by the one that the client owns. -/
theorem speaksAsItself_ask (hcall : c.calls[k]? = some call) (hkept : c.hasSession g)
    (hattempt : (c.attempt? g).isSome) (method : String) (params : Json) (goal : RequestGoal)
    (hwho : (∃ method params, call.operation = .relay g method params) ∨
      (∀ n method params, call.operation ≠ .relay n method params) ∧ c.slot = some g) :
    c.SpeaksAsItself k (c.ask k g method params goal) := by
  obtain ⟨hhands, -⟩ := handsIn_send hattempt method params c.options.requestTimeout
  have hhands : c.HandsIn g (.request method params) (c.ask k g method params goal) :=
    handsIn_of_mails hhands (mails_of_attempts rfl)
  have hgoOn := attemptsGoOn_ask c k g method params goal
  obtain ⟨id, hlife⟩ := life_ask c k g method params goal
  generalize c.ask k g method params goal = d at hhands hgoOn hlife
  have hreaches : c.ReachesPhase k (.awaiting g id goal) d := ⟨hgoOn, congrArg Life.calls hlife⟩
  have hcourse : d.course = c.course := congrArg Life.course hlife
  have hself := self_reachesPhase hreaches hcall
  have hleaves : ∀ n, c.course.LeavesSession n d.course :=
    fun n => hcourse ▸ Course.leavesSession_refl n _
  have hgrants := grantsNothing_reachesPhase hreaches (hleaves g) nofun fun _ => hkept
  have hrest : ∀ n, n ≠ g → Speakers.Move n (c.speakers n) (d.speakers n) none := fun n hn =>
    move_elsewhere hreaches (hleaves n) nofun (fun heq => hn (Option.some.inj heq).symm)
      (hhands.others n hn)
  rcases hwho with ⟨m, p, hop⟩ | ⟨hrelay, hslot⟩
  · refine speaksAsItself_to (.relayed (.request method params) hkept hgrants hhands.self) ?_ hrest
    rw [hself, Option.elim_some]
    simp [Call.voice, hop]
  · refine speaksAsItself_to (.asked (.request method params) hslot hgrants hhands.self) ?_ hrest
    rw [hself, Option.elim_some]
    exact (Call.voice_awaiting hrelay g id goal).symm

/-- A call that asks the client for something of its session does not relay. -/
theorem speaksAsItself_askSession (hcall : c.calls[k]? = some call)
    (hrelay : ∀ g method params, call.operation ≠ .relay g method params)
    (hslot : ∀ g, c.slot = some g → (c.attempt? g).isSome) (method : String) (params : Json)
    (goal : RequestGoal) : c.SpeaksAsItself k (c.askSession k method params goal) := by
  unfold askSession
  split
  · rename_i g hsession
    have howned : c.slot = some g := by
      unfold session? at hsession
      split at hsession
      · exact hsession
      · cases hsession
    exact speaksAsItself_ask hcall (hasSession_iff.mpr (.inl howned)) (hslot g howned)
      method params goal
      (.inr ⟨hrelay, howned⟩)
  · exact speaksAsItself_useReply c k _ goal

theorem speaksAsItself_look (c : Client) (k : Nat) : c.SpeaksAsItself k (c.look k) := by
  unfold look
  split
  · exact speaksAsItself_setPhase rfl rfl rfl rfl rfl
  · exact speaksAsItself_setPhase rfl rfl rfl rfl rfl
  · exact speaksAsItself_setPhase rfl rfl rfl rfl rfl
  · split
    · exact speaksAsItself_setPhase rfl rfl rfl rfl rfl
    · exact speaksAsItself_setPhase rfl rfl rfl rfl rfl

/-- A call that waited for the lock to look again gives it up before it looks. -/
theorem speaksAsItself_lookAgain (c : Client) (k : Nat) :
    c.SpeaksAsItself k (({ c with lock := c.lock.leave k } : Client).look k) :=
  speaksAsItself_look { c with lock := c.lock.leave k } k

theorem speaksAsItself_askTurn (hcall : c.calls[k]? = some call)
    (hrelay : ∀ g method params, call.operation ≠ .relay g method params)
    (hslot : ∀ g, c.slot = some g → (c.attempt? g).isSome) (h : c.life.Orderly)
    (operation : Operation) : c.SpeaksAsItself k (c.askTurn k operation) := by
  unfold askTurn
  dsimp only
  split
  · rename_i hfree
    exact speaksAsItself_proceed (c := { c with lock := c.lock.acquire k })
      (local_beginTurn operation) hcall
      (attemptsGoOn_beginTurn _ operation) hrelay
      (fun i other _ hother => Life.not_isTurn_of_free h hfree i other hother)
      (speaks_beginTurn (c := { c with lock := c.lock.acquire k }) hslot call.phase operation)
  · exact speaksAsItself_setPhase rfl rfl rfl rfl rfl

theorem speaksAsItself_runAbout (c : Client) (k : Nat) (id : String) (args : List Json)
    (hint : String) {run : String → Client} (hrun : ∀ subject, c.SpeaksAsItself k (run subject)) :
    c.SpeaksAsItself k (c.runAbout k id args hint run) := by
  unfold runAbout
  split
  · exact speaksAsItself_after (workspaceEffect_say _) (speaksAsItself_finishCommand _ k _)
  · split
    · exact hrun _
    · exact speaksAsItself_finishCommand c k _

theorem speaksAsItself_runCommand (hcall : c.calls[k]? = some call)
    (hrelay : ∀ g method params, call.operation ≠ .relay g method params)
    (hslot : ∀ g, c.slot = some g → (c.attempt? g).isSome) (h : c.life.Orderly) (id : String)
    (args : List Json) (action : CommandAction) :
    c.SpeaksAsItself k (c.runCommand k id args action) := by
  cases action with
  | openSnippetFolder =>
      simp only [runCommand]
      split
      · exact speaksAsItself_finishCommand c k _
      · exact speaksAsItself_after (workspaceEffect_say _) (speaksAsItself_finishCommand _ k _)
  | restartServer =>
      simp only [runCommand]
      split
      · have heffect := workspaceEffect_beginProgress k restartTitle
        exact speaksAsItself_after heffect (speaksAsItself_askTurn (by rwa [heffect.calls]) hrelay
          (fun g => by rw [heffect.slot, attempt?, heffect.attempts]; exact hslot g)
          (by rwa [life_of_workspaceEffect heffect]) .restart)
      · exact speaksAsItself_finishCommand c k _
  | showOutput =>
      exact speaksAsItself_after (workspaceEffect_say _) (speaksAsItself_finishCommand _ k _)
  | showVirtualFile =>
      exact speaksAsItself_runAbout c k id args _ fun _ =>
        speaksAsItself_askSession hcall hrelay hslot _ _ _
  | showDoctor =>
      exact speaksAsItself_runAbout c k id args _ fun _ =>
        speaksAsItself_askSession hcall hrelay hslot _ _ _

/-- A call begins. -/
theorem speaksAsItself_beginCall (h : c.IsConsistent) (hcall : c.calls[k]? = some call) :
    c.SpeaksAsItself k (c.beginCall k call.operation) := by
  have hslot := h.attempt_of_slot
  cases hop : call.operation with
  | start => exact speaksAsItself_askTurn hcall (by simp [hop]) hslot h.life .start
  | stop => exact speaksAsItself_askTurn hcall (by simp [hop]) hslot h.life .stop
  | restart => exact speaksAsItself_askTurn hcall (by simp [hop]) hslot h.life .restart
  | activate =>
      have heffect := workspaceEffect_prepare k
      have hcall' := congrArg (·[k]?) (heffect.calls c)
      rw [hcall] at hcall'
      refine speaksAsItself_after heffect
        (speaksAsItself_askTurn hcall' (by simp [hop]) ?_ ?_ .activate)
      · exact fun g => by rw [heffect.slot, attempt?, heffect.attempts]; exact hslot g
      · rw [life_of_workspaceEffect heffect]
        exact h.life
  | ready => exact speaksAsItself_look c k
  | request method params shape => exact speaksAsItself_askSession hcall (by simp [hop]) hslot _ _ _
  | relay g method params =>
      simp only [beginCall]
      split
      · rename_i hkept
        exact speaksAsItself_ask hcall hkept (h.kept g hkept) _ _ _ (.inl ⟨method, params, hop⟩)
      · exact speaksAsItself_finish ⟨_, life_finish c k _⟩ rfl
  | showVirtualFile source => exact speaksAsItself_askSession hcall (by simp [hop]) hslot _ _ _
  | command id args reported =>
      simp only [beginCall]
      split
      · exact speaksAsItself_runCommand hcall (by simp [hop]) hslot h.life id args _
      · exact speaksAsItself_finishCommand c k _

/-- A call whose reply has come ends with it. -/
theorem speaksAsItself_afterReply {id : Nat}
    (hsettle : (c.settle? g id).isSome) (goal : RequestGoal) :
    c.SpeaksAsItself k (c.afterReply k g id goal) := by
  obtain ⟨⟨d, reply⟩, hsettle⟩ := Option.isSome_iff_exists.mp hsettle
  have hreply : c.afterReply k g id goal = d.useReply k reply goal := by rw [afterReply, hsettle]
  have hattempts := attempts_useReply d k reply goal
  obtain ⟨outcome, hlife⟩ := life_useReply d k reply goal
  rw [life_settle? hsettle] at hlife
  have hcourse : (d.useReply k reply goal).course = c.course := congrArg Life.course hlife
  rw [hreply]
  exact speaksAsItself_reachesPhase
    ⟨(attemptsGoOn_settle? hsettle).trans (attemptsGoOn_of_attempts hattempts),
      congrArg Life.calls hlife⟩ (fun g => hcourse ▸ Course.leavesSession_refl g _)
    ((mails_of_attempts hattempts).trans (mails_settle? hsettle)) rfl fun g hg => by cases hg

/-- The call that has its turn goes on with a part of it. -/
theorem speaksAsItself_part (h : c.IsConsistent) (hcall : c.calls[k]? = some call)
    (hturn : call.phase.isTurn)
    {part : Client → Client × Next} (hpart : IsLocal part) (hgoOn : c.AttemptsGoOn (part c).1)
    (hspeaks : c.Speaks call.phase (part c)) : c.SpeaksAsItself k (proceed k (part c)) := by
  have hholder := (h.life.turn k call hcall hturn).1
  exact speaksAsItself_proceed hpart hcall hgoOn (h.not_relay hcall (.inr hturn))
    (fun i other hi hother => Life.not_isTurn_of_holder? h.life hholder hi hother) hspeaks

/-- **A call that can go on is a move for every generation.** -/
theorem speaksAsItself_goOn (h : c.IsConsistent) (hcall : c.calls[k]? = some call)
    (hcan : c.canGoOn k call.phase) : c.SpeaksAsItself k (c.goOn k call.operation call.phase) := by
  have hturn : ∀ {phase : Phase}, call.phase = phase → phase.isTurn → call.phase.isTurn :=
    fun hphase ht => hphase ▸ ht
  cases hphase : call.phase with
  | fresh => exact speaksAsItself_beginCall h hcall
  | queued =>
      have hholder : c.lock.holder? = some k := by simpa [hphase, canGoOn] using hcan
      exact speaksAsItself_proceed (local_beginTurn call.operation) hcall
        (attemptsGoOn_beginTurn c call.operation) (h.not_relay hcall (.inl hphase))
        (fun i other hi hother => Life.not_isTurn_of_holder? h.life hholder hi hother)
        (speaks_beginTurn h.attempt_of_slot call.phase call.operation)
  | launching g =>
      obtain ⟨hlaunch, hattempt⟩ : (c.attempt? g).map Attempt.launch ≠ some .awaited ∧
          (c.attempt? g).isSome := by
        rw [hphase, canGoOn] at hcan
        cases hattempt : c.attempt? g with
        | none => simp [hattempt] at hcan
        | some a =>
            refine ⟨fun hawaited => ?_, rfl⟩
            simp [hattempt, Option.some.inj hawaited] at hcan
      exact speaksAsItself_part h hcall (hturn hphase rfl) (local_afterLaunch g)
        (attemptsGoOn_afterLaunch c g)
        (hphase ▸ speaks_afterLaunch hlaunch hattempt)
  | initializing g id =>
      exact speaksAsItself_part h hcall (hturn hphase rfl) (local_afterHandshake g id)
        (attemptsGoOn_afterHandshake c g id)
        (hphase ▸ speaks_afterHandshake (h.ended g) (by simpa [hphase, canGoOn] using hcan))
  | abandoning g error deadline =>
      exact speaksAsItself_part h hcall (hturn hphase rfl)
        (local_afterAbandoning call.operation g error deadline)
        (attemptsGoOn_afterAbandoning c call.operation g error deadline)
        (.silent (silent_afterAbandoning c _ call.operation g error deadline))
  | stopping g id =>
      exact speaksAsItself_part h hcall (hturn hphase rfl) (local_afterShutdown g id)
        (attemptsGoOn_afterShutdown c g id)
        (hphase ▸ speaks_afterShutdown (by simpa [hphase, canGoOn] using hcan))
  | closing g deadline =>
      exact speaksAsItself_part h hcall (hturn hphase rfl)
        (local_afterClosing call.operation g deadline)
        (attemptsGoOn_afterClosing c call.operation g deadline)
        (.silent (hphase ▸ silent_afterClosing c call.operation g deadline))
  | reaping g deadline error? =>
      exact speaksAsItself_part h hcall (hturn hphase (Phase.isTurn_reaping g deadline error?))
        (local_afterReaping call.operation g deadline error?)
        (attemptsGoOn_afterReaping c call.operation g deadline error?)
        (.silent (hphase ▸ silent_afterReaping c call.operation g deadline error?))
  | watching seen => exact speaksAsItself_look c k
  | peeking => exact speaksAsItself_lookAgain c k
  | awaiting g id goal =>
      exact speaksAsItself_afterReply (by simpa [hphase, canGoOn] using hcan) goal
  | finished outcome => rw [hphase, canGoOn] at hcan; cases hcan
  | dropped => rw [hphase, canGoOn] at hcan; cases hcan

end Client
end LanguageClient
