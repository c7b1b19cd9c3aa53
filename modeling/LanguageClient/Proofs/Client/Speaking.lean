import LanguageClient.Proofs.Client.Mails
import LanguageClient.Proofs.Session.Ownership

/-!
# What the parts of a turn say

A turn says four things: the first request of a session, the notification that follows its answer,
the request of a stop, and the notification that follows that answer.  All the other parts of a turn
say nothing; at most they begin the start of the next generation.

* `Phase.speaker?` — the server to which a call is about to say something.
* `Course.LeavesSession` — a session neither begins nor comes to be owned or ready.
* `Client.Silent`, `Client.Speaks` — what a part of a turn says, and what comes next.
* **`Client.speaks_beginTurn`**, **`Client.speaks_afterLaunch`**, **`Client.speaks_afterHandshake`**,
  **`Client.speaks_afterShutdown`**, … — every part of a turn.
-/

namespace LanguageClient

/-- The generation to whose server a call is about to say something. -/
def Phase.speaker? : Phase → Option Nat
  | launching g => some g
  | initializing g _ => some g
  | stopping g _ => some g
  | _ => none

/-! ### What leaves a session alone -/

namespace Course

/-- Whether the start of a generation has begun. -/
def HasBegun (s : Course) (g : Nat) : Prop := 0 < g ∧ g ≤ s.generation

/-- The session of a generation neither begins nor comes to be owned or ready. -/
structure LeavesSession (g : Nat) (s t : Course) : Prop where
  begun : t.HasBegun g ↔ s.HasBegun g
  slot : t.slot = some g → s.slot = some g
  ready : ⟨g, .ready⟩ ∈ t.published → ⟨g, .ready⟩ ∈ s.published

variable {s t u : Course} {g : Nat}

theorem leavesSession_refl (g : Nat) (s : Course) : s.LeavesSession g s := ⟨.rfl, id, id⟩

theorem LeavesSession.trans (h : s.LeavesSession g t) (h' : t.LeavesSession g u) :
    s.LeavesSession g u :=
  ⟨h'.begun.trans h.begun, h.slot ∘ h'.slot, h.ready ∘ h'.ready⟩

theorem leavesSession_publish (g : Nat) (s : Course) (n : Nat) {state : SessionState}
    (hstate : state ≠ .ready) : s.LeavesSession g (s.publish n state) where
  begun := .rfl
  slot := id
  ready h := by
    rcases List.mem_append.mp h with hold | hnew
    · exact hold
    · rw [List.mem_singleton, Status.mk.injEq] at hnew
      exact absurd hnew.2.symm hstate

theorem leavesSession_letGo (g : Nat) (s : Course) : s.LeavesSession g s.letGo := ⟨.rfl, nofun, id⟩

/-- A session that becomes ready is the only one that does. -/
theorem leavesSession_ready {n : Nat} (hne : n ≠ g) (s : Course) : s.LeavesSession g (s.ready n) where
  begun := .rfl
  slot h := absurd (Option.some.inj h) hne
  ready h := by
    rcases List.mem_append.mp h with hold | hnew
    · exact hold
    · rw [List.mem_singleton, Status.mk.injEq] at hnew
      exact absurd hnew.1.symm hne

/-- A launch is the beginning of the next generation, and of no other. -/
theorem leavesSession_launch (hne : g ≠ s.generation + 1) : s.LeavesSession g s.launch where
  begun := by
    have hlaunch : s.launch.generation = s.generation + 1 := rfl
    unfold HasBegun
    rw [hlaunch]
    omega
  slot := id
  ready := (leavesSession_publish g s (s.generation + 1) (by simp)).ready

end Course

namespace Client

variable {c d : Client} {g : Nat}

/-! ### Parts that say nothing -/

/-- A part of a turn says nothing: the call waits for nothing that it could say afterwards and keeps
no session but the one that it kept; or the start of the next generation begins. -/
inductive Silent (c : Client) (kept? : Option Nat) : Client × Next → Prop
  | rests {d : Client} {next : Next} (hmails : d.mails = c.mails)
      (hcourse : ∀ g, c.course.LeavesSession g d.course)
      (hnext : ∀ phase, next = .waits phase → phase.speaker? = none ∧
        ∀ g, phase.session? = some g → kept? = some g) : Silent c kept? (d, next)
  | launches {d : Client} (s : Course) (hmails : d.mails = c.mails)
      (hleaves : ∀ g, c.course.LeavesSession g s) (hcourse : d.course = s.launch) :
      Silent c kept? (d, .waits (.launching (s.generation + 1)))

/-- What comes before a silent part belongs to it. -/
theorem Silent.after {kept? : Option Nat} {result : Client × Next} (hmails : d.mails = c.mails)
    (hcourse : ∀ g, c.course.LeavesSession g d.course) (h : d.Silent kept? result) :
    c.Silent kept? result := by
  cases h with
  | rests hmails' hcourse' hnext =>
      exact .rests (hmails'.trans hmails) (fun g => (hcourse g).trans (hcourse' g)) hnext
  | launches s hmails' hleaves hcourse' =>
      exact .launches s (hmails'.trans hmails) (fun g => (hcourse g).trans (hleaves g)) hcourse'

theorem silent_startLocked (c : Client) (kept? : Option Nat) : c.Silent kept? c.startLocked := by
  have hopens := opens_startLocked c
  have hmails := mails_startLocked c
  generalize c.startLocked = result at hopens hmails
  obtain ⟨d, next⟩ := result
  dsimp only at hopens hmails
  generalize hcourse : d.course = t at hopens
  cases hopens with
  | reuse g h => exact .rests hmails (fun g => hcourse ▸ Course.leavesSession_refl g _) (by simp)
  | launch h => exact .launches c.course hmails (fun g => Course.leavesSession_refl g _) hcourse

theorem silent_afterStop (c : Client) (kept? : Option Nat) (operation : Operation) :
    c.Silent kept? (c.afterStop operation) := by
  unfold afterStop
  split
  · exact .rests rfl (fun g => Course.leavesSession_refl g _) (by simp)
  · exact silent_startLocked c kept?

theorem silent_failStart (c : Client) (kept? : Option Nat) (g : Nat) (error : SessionError) :
    c.Silent kept? (c.failStart g error) := by
  refine .rests (mails_of_attempts rfl) ?_ (by simp)
  intro n
  rw [course_reportFailure]
  exact Course.leavesSession_publish n _ g (by simp)

theorem silent_abandonStart (c : Client) (kept? : Option Nat) (g : Nat) (error : SessionError) :
    c.Silent kept? (c.abandonStart g error) := by
  refine .rests rfl (fun n => Course.leavesSession_refl n _) ?_
  intro phase hphase
  cases hphase
  exact ⟨rfl, nofun⟩

theorem silent_afterClose (c : Client) (kept? : Option Nat) (operation : Operation) (g : Nat)
    (error? : Option SessionError) : c.Silent kept? (c.afterClose operation g error?) := by
  cases error? with
  | some error => exact silent_failStart c kept? g error
  | none =>
      have hmails : ((c.setPump g .ended).publish g .stopped).mails = c.mails :=
        (mails_of_attempts rfl).trans (mails_setPump c g .ended)
      refine .after hmails ?_ (silent_afterStop _ kept? operation)
      intro n
      rw [course_publish, course_setPump]
      exact Course.leavesSession_publish n _ g (by simp)

theorem silent_reap (c : Client) {kept? : Option Nat} (operation : Operation) (g : Nat)
    {error? : Option SessionError} (hkept : error? = none → kept? = some g) :
    c.Silent kept? (c.reap operation g error?) := by
  have hcourse : ∀ n, c.course.LeavesSession n (c.updateConnection g Connection.abort).course := by
    intro n
    rw [course_updateConnection]
    exact Course.leavesSession_refl n _
  refine .after (mails_abort c g) hcourse ?_
  unfold reap
  dsimp only
  split
  · refine .rests rfl (fun n => Course.leavesSession_refl n _) ?_
    intro phase hphase
    cases hphase
    refine ⟨rfl, ?_⟩
    intro n hn
    cases error? with
    | some error => cases hn
    | none => exact (hkept rfl).trans hn
  · exact silent_afterClose _ kept? operation g error?

theorem silent_afterAbandoning (c : Client) (kept? : Option Nat) (operation : Operation) (g : Nat)
    (error : SessionError) (deadline : Nat) :
    c.Silent kept? (c.afterAbandoning operation g error deadline) := by
  unfold afterAbandoning
  split
  · exact silent_reap c operation g (by simp)
  · refine .rests rfl (fun n => Course.leavesSession_refl n _) ?_
    intro phase hphase
    cases hphase
    exact ⟨rfl, nofun⟩

theorem silent_afterClosing (c : Client) (operation : Operation) (g deadline : Nat) :
    c.Silent (some g) (c.afterClosing operation g deadline) := by
  unfold afterClosing
  split
  · exact silent_reap c operation g fun _ => rfl
  · refine .rests rfl (fun n => Course.leavesSession_refl n _) ?_
    intro phase hphase
    cases hphase
    exact ⟨rfl, fun _ => id⟩

theorem silent_afterReaping (c : Client) (operation : Operation) (g deadline : Nat)
    (error? : Option SessionError) : c.Silent (Phase.reaping g deadline error?).session?
      (c.afterReaping operation g deadline error?) := by
  unfold afterReaping
  split
  · have hcourse : ∀ n, c.course.LeavesSession n (c.endProcess g).course := by
      intro n
      rw [course_endProcess]
      exact Course.leavesSession_refl n _
    exact .after (mails_endProcess c g) hcourse (silent_afterClose _ _ operation g error?)
  · refine .rests rfl (fun n => Course.leavesSession_refl n _) ?_
    intro phase hphase
    cases hphase
    exact ⟨rfl, fun _ => id⟩

/-! ### Parts that say something -/

/-- What a part of a turn says in a phase of its call, and what comes next. -/
inductive Speaks (c : Client) (phase : Phase) : Client × Next → Prop
  | silent {result : Client × Next} (h : c.Silent phase.session? result) : Speaks c phase result
  | asks {d : Client} {g : Nat} {params : Json} (hphase : phase = .launching g)
      (hcourse : d.course = c.course) (h : c.HandsIn g (.opening params) d) :
      Speaks c phase (d, .waits (.initializing g (c.mails g).nextId))
  | greets {d : Client} {g id : Nat} (hphase : phase = .initializing g id)
      (hopen : (c.mails g).isOpen) (hanswered : d.Answered g id)
      (hcourse : d.course = c.course.ready g) (h : c.HandsIn g .initialized d) :
      Speaks c phase (d, .ends (.session g))
  | takes {d : Client} {g : Nat} (hslot : c.slot = some g) (hcourse : d.course = c.course.letGo)
      (h : c.HandsIn g .shutdown d) : Speaks c phase (d, .waits (.stopping g (c.mails g).nextId))
  | exits {d : Client} {g id deadline : Nat} (hphase : phase = .stopping g id)
      (hopen : (c.mails g).isOpen) (hcourse : d.course = c.course) (h : c.HandsIn g .exit d) :
      Speaks c phase (d, .waits (.closing g deadline))

theorem speaks_stopLocked (hslot : ∀ g, c.slot = some g → (c.attempt? g).isSome) (phase : Phase)
    (operation : Operation) : c.Speaks phase (c.stopLocked operation) := by
  unfold stopLocked
  split
  · exact .silent (silent_afterStop c _ operation)
  · rename_i g hg
    have hattempt : (({ c with slot := none } : Client).attempt? g).isSome := hslot g hg
    obtain ⟨hhands, hid⟩ := handsIn_send hattempt Method.shutdown .null c.options.stopGrace
    dsimp only
    rw [hid]
    refine .takes hg ?_ (handsIn_after (d := { c with slot := none }) (mails_of_attempts rfl) hhands)
    rw [course_send]
    rfl

/-- The beginning of a turn asks the server of the session that is taken away to come to an end. -/
theorem speaks_beginTurn (hslot : ∀ g, c.slot = some g → (c.attempt? g).isSome) (phase : Phase)
    (operation : Operation) : c.Speaks phase (c.beginTurn operation) := by
  unfold beginTurn
  split
  · exact .silent (silent_startLocked c _)
  · exact .silent (silent_startLocked c _)
  · exact speaks_stopLocked hslot phase operation

/-- A start makes its request when the server has been launched. -/
theorem speaks_afterLaunch (hlaunch : (c.attempt? g).map Attempt.launch ≠ some .awaited)
    (hattempt : (c.attempt? g).isSome) : c.Speaks (.launching g) (c.afterLaunch g) := by
  unfold afterLaunch
  split
  · exact .silent (silent_failStart c _ g _)
  · unfold beginHandshake
    split
    · exact .silent (silent_failStart c _ g _)
    · rename_i connection htake
      obtain ⟨k, hk, htaken⟩ := Option.bind_eq_some_iff.mp htake
      obtain ⟨-, hconnection⟩ := Connection.take?_eq_some_iff.mp htaken
      have hmail : connection.mail = k.mail := by
        rw [hconnection]
        rfl
      have hmails := mails_updateConnection hk hmail
      have hattempt' : ((c.updateConnection g fun _ => connection).attempt? g).isSome := by
        rw [updateConnection, attempt?_updateAttempt, if_pos rfl, Option.isSome_map]
        exact hattempt
      have hcourse := course_updateConnection c g fun _ => connection
      generalize (c.updateConnection g fun _ => connection) = d at hmails hattempt' hcourse ⊢
      obtain ⟨hhands, hid⟩ := handsIn_send hattempt' Method.initializeServer
        (Handshake.initializeParams d.processId d.options.initializationOptions)
        d.options.requestTimeout
      dsimp only
      rw [hid, hmails]
      exact .asks rfl ((course_send d g _ _ _).trans hcourse) (handsIn_after hmails hhands)
  · rename_i hfailed hconnected
    obtain ⟨a, ha⟩ := Option.isSome_iff_exists.mp hattempt
    rw [ha, Option.map_some] at hlaunch hfailed hconnected
    cases hwhat : a.launch with
    | awaited => exact absurd (congrArg some hwhat) hlaunch
    | failed error => exact absurd (congrArg some hwhat) (hfailed error)
    | connected => exact absurd (congrArg some hwhat) hconnected

/-- The session of a connection that is not flagged closed is installed. -/
theorem install_of_not_closed (h : c.isClosed g = false) :
    (c.install g).1.mails = c.mails ∧ (c.install g).2 = .ends (.session g) := by
  have hwaiting : (c.setPump g .waiting).isClosed g = false := by
    unfold isClosed connection? setPump
    rw [attempt?_updateAttempt, if_pos rfl]
    unfold isClosed connection? at h
    cases hattempt : c.attempt? g <;> simp_all
  unfold isClosed at hwaiting
  unfold install
  dsimp only
  rw [if_neg (by simp [hwaiting])]
  refine ⟨(mails_setPump _ g .armed).trans ?_, rfl⟩
  refine (mails_of_attempts ((workspaceEffect_runHooks g).attempts _)).trans ?_
  exact (mails_of_attempts rfl).trans (mails_setPump c g .waiting)

/-- What is open when something is handed in is not flagged closed. -/
theorem not_isClosed_of_open (hgoOn : c.AttemptsGoOn d)
    (hclosed : ∀ a, c.attempt? g = some a → a.EndsBeforeClosed) (hattempt : (c.attempt? g).isSome)
    (hopen : (d.mails g).isOpen) : d.isClosed g = false := by
  obtain ⟨a, ha⟩ := Option.isSome_iff_exists.mp hattempt
  obtain ⟨b, hb, hgoes⟩ := hgoOn.goesOn g a ha
  have hended := Attempt.goesOn_keeps (P := Attempt.EndsBeforeClosed)
    (fun _ _ => Attempt.endsBeforeClosed_move) hgoes (hclosed a ha)
  have hk : d.connection? g = some b.connection := by rw [connection?, hb, Option.map_some]
  rw [mails_of_connection? hk] at hopen
  rw [isClosed, hk, Option.any_some, Bool.eq_false_iff]
  intro hflagged
  have hnot : b.connection.mail.isOpen = false := hended hflagged
  rw [hopen] at hnot
  cases hnot

theorem isSome_attempt?_of_settle? {id : Nat} (h : (c.settle? g id).isSome) :
    (c.attempt? g).isSome := by
  obtain ⟨⟨d, outcome⟩, hsettle⟩ := Option.isSome_iff_exists.mp h
  obtain ⟨before, -, hbefore, -⟩ := settle?_eq_some_iff.mp hsettle
  obtain ⟨a, ha, -⟩ := Option.map_eq_some_iff.mp hbefore
  rw [ha, Option.isSome_some]

/-- A start whose request has an acceptable answer tells the server so. -/
theorem speaks_afterHandshake (hclosed : ∀ a, c.attempt? g = some a → a.EndsBeforeClosed)
    {id : Nat} (hsettle : (c.settle? g id).isSome) :
    c.Speaks (.initializing g id) (c.afterHandshake g id) := by
  have hattempt := isSome_attempt?_of_settle? hsettle
  obtain ⟨⟨d, outcome⟩, hsettle⟩ := Option.isSome_iff_exists.mp hsettle
  have hmails := mails_settle? hsettle
  have hcourse := course_settle? hsettle
  have hsilent : ∀ error, c.Speaks (.initializing g id) (d.abandonStart g error) := fun error =>
    .silent (.after hmails (fun n => hcourse ▸ Course.leavesSession_refl n _)
      (silent_abandonStart d _ g error))
  unfold afterHandshake
  rw [hsettle]
  cases outcome with
  | error error => exact hsilent error
  | ok result =>
      dsimp only
      split
      · rename_i haccepted
        split
        · rename_i e hnotify
          obtain ⟨hopen, hhands⟩ := handsIn_notify? hnotify
          have hgoOn := (attemptsGoOn_settle? hsettle).trans (attemptsGoOn_notify? hnotify)
          have hopen' : (e.mails g).isOpen := by rw [hhands.self, Mail.isOpen_hand, hopen]
          have hflag := not_isClosed_of_open hgoOn hclosed hattempt hopen'
          obtain ⟨hinstalled, hnext⟩ := install_of_not_closed hflag
          -- The session becomes ready, since that is how its start ends.
          have hstarts := starts_install e g
          have hanswered := answered_attemptsGoOn ((attemptsGoOn_notify? hnotify).trans
            (attemptsGoOn_install e g)) (answered_settle? hsettle haccepted)
          generalize e.install g = result at hinstalled hnext hstarts hanswered
          obtain ⟨f, next⟩ := result
          obtain rfl : next = .ends (.session g) := hnext
          dsimp only at hinstalled hstarts hanswered
          rw [course_notify? hnotify, hcourse] at hstarts
          generalize hready : f.course = t at hstarts
          cases hstarts with
          | ready =>
              rw [hmails] at hopen
              exact .greets rfl hopen hanswered hready
                (handsIn_of_mails (handsIn_after hmails hhands) hinstalled)
        · exact hsilent _
      · exact hsilent _

/-- A stop whose request has been acknowledged tells the server to exit. -/
theorem speaks_afterShutdown {n : Nat} (hsettle : (c.settle? g n).isSome) :
    c.Speaks (.stopping g n) (c.afterShutdown g n) := by
  obtain ⟨⟨d, outcome⟩, hsettle⟩ := Option.isSome_iff_exists.mp hsettle
  have hmails := mails_settle? hsettle
  have hcourse := course_settle? hsettle
  have hsilent : ∀ deadline, c.Speaks (.stopping g n) (d, .waits (.closing g deadline)) := by
    intro deadline
    refine .silent (.rests hmails (fun n => hcourse ▸ Course.leavesSession_refl n _) ?_)
    intro phase hphase
    cases hphase
    exact ⟨rfl, fun _ => id⟩
  unfold afterShutdown
  rw [hsettle]
  cases outcome with
  | error error => exact hsilent _
  | ok result =>
      dsimp only
      cases hnotify : d.notify? g ⟨Method.exit, .null⟩ with
      | none => exact hsilent _
      | some e =>
          obtain ⟨hopen, hhands⟩ := handsIn_notify? hnotify
          rw [hmails] at hopen
          exact .exits rfl hopen ((course_notify? hnotify).trans hcourse)
            (handsIn_after hmails hhands)

end Client
end LanguageClient
