import LanguageClient.Proofs.Session.Unqueued

/-!
# A call that still waits can be polled later

After a poll the call still waits, and the view has not changed; or the call has gone on, and it has
done in the view what it does when it is polled there for the first time.

* `Client.ViewAfter` — a client after a poll, and the view after the same poll.
* `Client.viewAfter_askTurn`, `Client.viewAfter_look`, `Client.viewAfter_askSession`, … — the parts
  of a call.
* **`Client.viewAfter_poll`** — every poll.
-/

namespace LanguageClient
namespace Client

/-- Whether a call waits without having done anything. -/
def isPatient (c : Client) (k : Nat) : Bool := c.calls[k]?.any fun call => call.phase.isPatient

/-- After call `k` has moved on, all calls are plain; the view is as before if the call still waits,
and else it is the given client. -/
structure ViewAfter (c : Client) (k : Nat) (d v : Client) : Prop where
  plain : d.Plain
  waits : d.isPatient k → d.unqueued = c.unqueued
  goes : d.isPatient k = false → d.unqueued = v

variable {c d v : Client} {k : Nat} {call : Call}

/-! ### Plain calls -/

theorem plain_setPhase (hp : c.Plain) (hcall : c.calls[k]? = some call) {phase : Phase}
    (hplain : ({ call with phase } : Call).IsPlain)
    (hcalls : d.calls = (c.setPhase k phase).calls) : d.Plain := by
  intro i other hother
  rw [hcalls] at hother
  by_cases hi : k = i
  · subst hi
    obtain rfl : { call with phase } = other := by simpa [setPhase, hcall] using hother
    exact hplain
  · exact hp i other (by simpa [setPhase, hi] using hother)

theorem isPatient_setPhase (hcall : c.calls[k]? = some call) {phase : Phase}
    (hcalls : d.calls = (c.setPhase k phase).calls) : d.isPatient k = phase.isPatient := by
  simp [isPatient, hcalls, setPhase, hcall]

theorem isPlain_of_finished (h : call.IsPlain) (outcome : Outcome) :
    ({ call with phase := .finished outcome } : Call).IsPlain where
  plain := h.plain
  turn hphase := by
    rcases hphase with hphase | hphase <;> cases hphase
  ready hphase := by
    rcases hphase with hphase | ⟨seen, hphase⟩ <;> cases hphase

theorem isPlain_of_turn (h : call.IsPlain) (hop : call.operation.takesTurn) {phase : Phase}
    (hphase : phase.isTurn) : ({ call with phase } : Call).IsPlain where
  plain := h.plain
  turn _ := hop
  ready hready := by
    rcases hready with rfl | ⟨seen, rfl⟩ <;> cases hphase

theorem isPlain_of_awaiting (h : call.IsPlain) (g id : Nat) (goal : RequestGoal) :
    ({ call with phase := .awaiting g id goal } : Call).IsPlain where
  plain := h.plain
  turn hphase := by
    rcases hphase with hphase | hphase <;> cases hphase
  ready hphase := by
    rcases hphase with hphase | ⟨seen, hphase⟩ <;> cases hphase

/-- A call comes to a phase in which it has done something. -/
theorem viewAfter_goes (hp : c.Plain) (hcall : c.calls[k]? = some call) {phase : Phase}
    (hplain : ({ call with phase } : Call).IsPlain)
    (hcalls : d.calls = (c.setPhase k phase).calls) (hphase : phase.isPatient = false)
    (hview : d.unqueued = v) : c.ViewAfter k d v where
  plain := plain_setPhase hp hcall hplain hcalls
  waits hwaits := by
    rw [isPatient_setPhase hcall hcalls, hphase] at hwaits
    cases hwaits
  goes _ := hview

/-- A call still waits. -/
theorem viewAfter_waits (hp : c.Plain) (hcall : c.calls[k]? = some call) {phase : Phase}
    (hplain : ({ call with phase } : Call).IsPlain)
    (hcalls : d.calls = (c.setPhase k phase).calls) (hphase : phase.isPatient)
    (hview : d.unqueued = c.unqueued) : c.ViewAfter k d v where
  plain := plain_setPhase hp hcall hplain hcalls
  waits _ := hview
  goes hgoes := by
    rw [isPatient_setPhase hcall hcalls, hphase] at hgoes
    cases hgoes

/-! ### Turns -/

/-- A call that holds the lock goes on with its turn. -/
theorem viewAfter_proceed {part : Client → Client × Next} (hpart : IsLocal part) (hp : c.Plain)
    {b : Client} (hcalls : b.calls = c.calls) (hcall : c.calls[k]? = some call)
    (hop : call.operation.takesTurn) (hholder : b.lock.holder? = some k)
    (hothers : ∀ (i : Nat) (other : Call), i ≠ k → b.calls[i]? = some other →
      other.phase.isTurn = false)
    (hnext : ∀ phase, (part b).2 = .waits phase → phase.isTurn) :
    c.ViewAfter k (proceed k (part b)) (proceed k (part (b.unqueuedFor k))) := by
  have hcall' : b.calls[k]? = some call := by rw [hcalls, hcall]
  have hview := unqueued_proceed hpart hcall' hop hholder hothers hnext
  have hplain := hp k call hcall
  have hcalls' := hpart.calls b
  cases hpair : part b with
  | mk d next =>
      rw [hpair] at hcalls' hview hnext
      dsimp only at hcalls'
      cases next with
      | waits phase =>
          have hturn := hnext phase rfl
          have hphase : phase.isPatient = false := by
            rw [Bool.eq_false_iff]
            intro hpatient
            rw [Phase.not_isTurn_of_isPatient hpatient] at hturn
            cases hturn
          refine viewAfter_goes hp hcall (isPlain_of_turn hplain hop hturn) ?_ hphase hview
          simp [proceed, setPhase, hcalls', hcalls]
      | ends outcome =>
          refine viewAfter_goes hp hcall (isPlain_of_finished hplain outcome) ?_ rfl hview
          have hself : d.calls[k]? = some call := by rw [hcalls', hcall']
          simp only [proceed, conclude_of_takesTurn hself hop]
          simp [finish, setPhase, hcalls', hcalls]

/-- What comes next in a turn belongs to the turn. -/
theorem isTurn_of_matchesNext {t : Course} {next : Next} (h : t.MatchesNext next) {phase : Phase}
    (hnext : next = .waits phase) : phase.isTurn := (h.waits phase hnext).turn

/-- While no call has its turn, a turn begins in the view as soon as it is asked for. -/
theorem askTurn_unqueued
    (hnobody : ∀ (i : Nat) (other : Call), c.calls[i]? = some other → other.phase.isTurn = false)
    (operation : Operation) :
    c.unqueued.askTurn k operation = proceed k ((c.unqueuedFor k).beginTurn operation) := by
  have hholder : c.turnHolder? = none := turnHolder?_of_nobody hnobody
  have hfree : c.unqueued.lock.isFree := by simp [unqueued, hholder, Lock.isFree]
  have hacquire : ({ c.unqueued with lock := c.unqueued.lock.acquire k } : Client) =
      c.unqueuedFor k := by
    simp [unqueued, unqueuedFor, hholder, Lock.acquire, Lock.isFree]
  rw [askTurn_of_free hfree, hacquire]

/-- A call begins its turn, while no other has one. -/
theorem viewAfter_beginTurn (h : c.life.Orderly) (hp : c.Plain) {lock : Lock}
    (hcall : c.calls[k]? = some call) (hop : call.operation.takesTurn)
    (hholder : lock.holder? = some k)
    (hnobody : ∀ (i : Nat) (other : Call), c.calls[i]? = some other →
      other.phase.isTurn = false) :
    c.ViewAfter k (proceed k (({ c with lock } : Client).beginTurn call.operation))
      (c.unqueued.askTurn k call.operation) := by
  rw [askTurn_unqueued hnobody]
  refine viewAfter_proceed (local_beginTurn call.operation) hp (b := { c with lock }) rfl hcall hop
    hholder (fun i other _ hother => hnobody i other hother) ?_
  intro phase hnext
  have hbegins := begins_beginTurn { c with lock } call.operation
  exact isTurn_of_matchesNext (Course.matchesNext_begins h.owns hbegins) hnext

/-- A call that has not begun asks for a turn. -/
theorem viewAfter_askTurn (h : c.life.Orderly) (hp : c.Plain) (hcall : c.calls[k]? = some call)
    (hphase : call.phase = .fresh) (hop : call.operation.takesTurn) :
    c.ViewAfter k (c.askTurn k call.operation) (c.unqueued.askTurn k call.operation) := by
  have hplain := hp k call hcall
  cases hfree : c.lock.isFree with
  | false =>
      rw [askTurn_of_held hfree]
      have hqueued : ({ call with phase := .queued } : Call).IsPlain :=
        ⟨hplain.plain, fun _ => hop, by simp⟩
      refine viewAfter_waits hp hcall hqueued rfl rfl ?_
      exact unqueued_enqueue hfree hcall (by rw [hphase]; rfl) rfl
  | true =>
      -- The lock is free, so nobody has a turn, and it is free in the view.
      have hnobody := Life.not_isTurn_of_free h hfree
      rw [askTurn_of_free hfree]
      exact viewAfter_beginTurn h hp hcall hop (Lock.holder?_acquire_of_free hfree k) hnobody

/-! ### Looking for a session -/

/-- A call that has not begun, or has done nothing but wait, looks for a session. -/
theorem viewAfter_look (hp : c.Plain) {b : Client} (hcalls : b.calls = c.calls)
    (hview : b.unqueued = c.unqueued) (hcall : c.calls[k]? = some call)
    (hphase : call.phase.unqueued = .fresh) (hop : call.operation = .ready) :
    c.ViewAfter k (b.look k) (c.unqueued.look k) := by
  have hplain := hp k call hcall
  have hcall' : b.calls[k]? = some call := by rw [hcalls, hcall]
  have hout : call.phase.isTurn = false := by
    rw [← Phase.isTurn_unqueued, hphase]
    rfl
  have hpatient : ∀ phase : Phase, phase.isPatient → phase ≠ .queued →
      ({ call with phase } : Call).IsPlain := by
    intro phase hphase hqueued
    refine ⟨hplain.plain, ?_, fun _ => hop⟩
    rintro (hphase' | hturn)
    · exact absurd hphase' hqueued
    · rw [Phase.not_isTurn_of_isPatient hphase] at hturn
      cases hturn
  have hfinish : ∀ outcome, c.ViewAfter k (b.finish k outcome) (c.unqueued.finish k outcome) := by
    intro outcome
    refine viewAfter_goes hp hcall (isPlain_of_finished hplain outcome) ?_ rfl ?_
    · simp [finish, setPhase, hcalls]
    · rw [← hview]
      exact unqueued_setPhase hcall' hout rfl
  have hwaits : ∀ seen v, c.ViewAfter k (b.setPhase k (.watching seen)) v := by
    intro seen v
    refine viewAfter_waits hp hcall (hpatient (.watching seen) rfl (by simp)) ?_ rfl ?_
    · simp [setPhase, hcalls]
    · rw [← hview]
      exact unqueued_setPhase_of_patient hcall' hphase rfl
  -- Status, slot and journal are the same in the view.
  have hstatus : c.unqueued.status = b.status := by rw [← hview]; rfl
  have hsession : c.unqueued.session? = b.session? := by rw [← hview]; rfl
  unfold look
  rw [hstatus, hsession]
  split
  · exact hfinish _
  · exact hwaits _ _
  · exact hwaits _ _
  · split
    · rename_i hfree
      have hfree' : c.unqueued.lock.isFree := by
        rw [← hview]
        exact isFree_unqueued hfree
      rw [if_pos hfree']
      exact hfinish _
    · rename_i hheld
      have hheld' : b.lock.isFree = false := by simpa using hheld
      refine viewAfter_waits hp hcall (hpatient .peeking rfl (by simp)) ?_ rfl ?_
      · simp [setPhase, hcalls]
      · rw [← hview]
        exact unqueued_enqueue hheld' hcall' hphase rfl

/-! ### Requests -/

theorem isBeside_send (g : Nat) (method : String) (params : Json) (span : Nat) :
    IsBeside fun c => (c.send g method params span).1 := by
  intro c b
  dsimp only
  rw [send_amid]

/-- A call outside its turn goes on after an effect that takes no notice of lock and calls. -/
theorem viewAfter_beside (hp : c.Plain) {f : Client → Client} (hf : IsBeside f)
    (hcall : c.calls[k]? = some call) (hout : call.phase.isTurn = false) {phase : Phase}
    (hplain : ({ call with phase } : Call).IsPlain) (hpatient : phase.isPatient = false)
    (hafter : phase.isTurn = false) :
    c.ViewAfter k ((f c).setPhase k phase) ((f c.unqueued).setPhase k phase) := by
  have hcalls : (f c).calls = c.calls := by
    rw [eq_amid_of_beside hf c]
    rfl
  refine viewAfter_goes hp hcall hplain ?_ hpatient ?_
  · simp [setPhase, hcalls]
  · have hview := unqueued_setPhase (c := f c) (by rw [hcalls]; exact hcall) hout hafter
    have hphase : phase.unqueued = phase := by simp [Phase.unqueued, hpatient]
    rw [hview, hphase, unqueued_of_beside hf]

theorem viewAfter_ask (hp : c.Plain) (hcall : c.calls[k]? = some call)
    (hout : call.phase.isTurn = false) (g : Nat) (method : String) (params : Json)
    (goal : RequestGoal) :
    c.ViewAfter k (c.ask k g method params goal) (c.unqueued.ask k g method params goal) := by
  have hsend : c.unqueued.send g method params c.unqueued.options.requestTimeout =
      ((c.send g method params c.options.requestTimeout).1.amid c.unqueued,
        (c.send g method params c.options.requestTimeout).2) :=
    send_amid c c.unqueued g method params _
  unfold ask
  rw [hsend]
  dsimp only
  have hafter := viewAfter_beside hp (isBeside_send g method params c.options.requestTimeout) hcall
    hout (isPlain_of_awaiting (hp k call hcall) g
      (c.send g method params c.options.requestTimeout).2 goal) rfl rfl
  have hview : (c.unqueued.send g method params c.options.requestTimeout).1 =
      (c.send g method params c.options.requestTimeout).1.amid c.unqueued := by
    exact congrArg Prod.fst hsend
  rwa [hview] at hafter

theorem viewAfter_finish (hp : c.Plain) {f : Client → Client} (hf : IsBeside f)
    (hcall : c.calls[k]? = some call) (hout : call.phase.isTurn = false) (outcome : Outcome) :
    c.ViewAfter k ((f c).finish k outcome) ((f c.unqueued).finish k outcome) :=
  viewAfter_beside hp hf hcall hout (isPlain_of_finished (hp k call hcall) outcome) rfl rfl

theorem operation?_of_plain (hp : c.Plain) (id : String) (args : List Json) (reported : Bool) :
    c.operation? k ≠ some (.command id args reported) := by
  intro hop
  obtain ⟨call, hcall, hop⟩ := Option.map_eq_some_iff.mp hop
  have hplain := (hp k call hcall).plain
  rw [hop] at hplain
  cases hplain

theorem finishCommand_of_plain (hp : c.Plain) (result : Except CommandError Unit) :
    c.finishCommand k result = c.finish k (.command result) := by
  unfold finishCommand
  dsimp only
  split
  · rename_i hop
    exact absurd hop (operation?_of_plain hp _ _ _)
  · rfl

theorem plain_of_calls (hp : c.Plain) (hcalls : d.calls = c.calls) : d.Plain := by
  intro i other hother
  exact hp i other (by rw [← hcalls]; exact hother)

theorem plain_of_beside (hp : c.Plain) {f : Client → Client} (hf : IsBeside f) : (f c).Plain := by
  refine plain_of_calls hp ?_
  rw [eq_amid_of_beside hf c]
  rfl

theorem plain_unqueued (hp : c.Plain) : c.unqueued.Plain := by
  intro i other hother
  rw [getElem?_unqueued] at hother
  obtain ⟨call, hcall, rfl⟩ := Option.map_eq_some_iff.mp hother
  have hplain := hp i call hcall
  refine ⟨hplain.plain, ?_, ?_⟩
  · intro hphase
    refine hplain.turn (.inr ?_)
    rcases hphase with hqueued | hturn
    · -- No call of the view is queued.
      cases hphase : call.phase <;> simp [Call.unqueued, Phase.unqueued, Phase.isPatient, hphase]
        at hqueued
    · rwa [← Phase.isTurn_unqueued]
  · rintro (hphase' | ⟨seen, hphase'⟩) <;>
      cases hphase : call.phase <;> simp [Call.unqueued, Phase.unqueued, Phase.isPatient, hphase]
        at hphase'

theorem isBeside_id : IsBeside fun c => c := fun _ _ => rfl

theorem IsBeside.comp {f g : Client → Client} (hg : IsBeside g) (hf : IsBeside f) :
    IsBeside fun c => g (f c) := by
  intro c b
  dsimp only
  rw [hf, hg]

theorem workspaceEffect_showFile (source : String) (reply : Except SessionError Json) :
    WorkspaceEffect fun c => (c.showFile source reply).1 := by
  unfold showFile
  split
  · exact WorkspaceEffect.id
  · split
    · exact WorkspaceEffect.id
    · exact WorkspaceEffect.id
    · rename_i info _
      dsimp only
      cases info.content? with
      | some content => exact (workspaceEffect_say _).comp (workspaceEffect_setFile _ _ _)
      | none => exact workspaceEffect_say _

theorem showFile_snd (source : String) (reply : Except SessionError Json) (c d : Client) :
    (c.showFile source reply).2 = (d.showFile source reply).2 := by
  unfold showFile
  split
  · rfl
  · split <;> rfl

theorem concludeShow_of_plain (hp : c.Plain) (source : String)
    (result : Except SessionError (Option String)) :
    c.concludeShow k source result = c.finish k (match result with
      | .ok uri? => .shown uri?
      | .error e => .failed e) := by
  unfold concludeShow
  split
  · rename_i hop
    exact absurd hop (operation?_of_plain hp _ _ _)
  · cases result <;> rfl

theorem concludeDoctor_of_plain (hp : c.Plain) (reply : Except SessionError Json) :
    c.concludeDoctor k reply = match reply with
      | .error e => c.finish k (.failed e)
      | .ok value =>
          (c.say (.showUntitled (Doctor.report value) "json")).finish k (.command (.ok ())) := by
  unfold concludeDoctor
  split
  · rename_i hop
    exact absurd hop (operation?_of_plain hp _ _ _)
  · rfl
  · exact finishCommand_of_plain (plain_of_beside hp
      (isBeside_of_workspaceEffect (workspaceEffect_say _))) _

/-- What is done with a reply depends on the reply alone, and ends the call. -/
theorem useReply_of_plain (k : Nat) (reply : Except SessionError Json) (goal : RequestGoal) :
    ∃ (f : Client → Client) (outcome : Outcome), IsBeside f ∧
      ∀ c : Client, c.Plain → c.useReply k reply goal = (f c).finish k outcome := by
  cases goal with
  | relay => cases reply <;> exact ⟨_, _, isBeside_id, fun _ _ => rfl⟩
  | read shape =>
      cases reply with
      | error e => exact ⟨_, _, isBeside_id, fun _ _ => rfl⟩
      | ok value =>
          dsimp only [useReply]
          cases shape.read? value <;> exact ⟨_, _, isBeside_id, fun _ _ => rfl⟩
  | virtualFile source =>
      have hbeside := isBeside_of_workspaceEffect (workspaceEffect_showFile source reply)
      refine ⟨_, match ((Client.new {} 0 {}).showFile source reply).2 with
        | .ok uri? => .shown uri?
        | .error e => .failed e, hbeside, ?_⟩
      intro c hp
      simp only [useReply]
      rw [concludeShow_of_plain (plain_of_beside hp hbeside), showFile_snd source reply c]
  | doctor =>
      cases reply with
      | error e => exact ⟨_, _, isBeside_id, fun _ hp => concludeDoctor_of_plain hp _⟩
      | ok value =>
          exact ⟨_, _, isBeside_of_workspaceEffect (workspaceEffect_say _), fun _ hp =>
            concludeDoctor_of_plain hp _⟩

theorem viewAfter_useReply (hp : c.Plain) {s : Client → Client} (hs : IsBeside s)
    (hcall : c.calls[k]? = some call) (hout : call.phase.isTurn = false)
    (reply : Except SessionError Json) (goal : RequestGoal) :
    c.ViewAfter k ((s c).useReply k reply goal) ((s c.unqueued).useReply k reply goal) := by
  obtain ⟨f, outcome, hf, huse⟩ := useReply_of_plain k reply goal
  have hplain := plain_of_beside hp hs
  have hplain' := plain_of_beside (plain_unqueued hp) hs
  rw [huse (s c) hplain, huse (s c.unqueued) hplain']
  exact viewAfter_finish hp (hf.comp hs) hcall hout outcome

theorem viewAfter_askSession (hp : c.Plain) (hcall : c.calls[k]? = some call)
    (hout : call.phase.isTurn = false) (method : String) (params : Json) (goal : RequestGoal) :
    c.ViewAfter k (c.askSession k method params goal)
      (c.unqueued.askSession k method params goal) := by
  have hsession : c.unqueued.session? = c.session? := rfl
  unfold askSession
  rw [hsession]
  split
  · exact viewAfter_ask hp hcall hout _ _ _ _
  · exact viewAfter_useReply hp isBeside_id hcall hout _ _

/-- The effect of taking the outcome of a request. -/
theorem isBeside_settle (g id : Nat) :
    IsBeside fun c => ((c.settle? g id).map Prod.fst).getD c := by
  intro c b
  dsimp only
  rw [settle?_amid]
  cases c.settle? g id <;> rfl

theorem viewAfter_afterReply (hp : c.Plain) (hcall : c.calls[k]? = some call)
    (hphase : call.phase.isTurn = false) (g id : Nat) (goal : RequestGoal)
    (hcan : (c.settle? g id).isSome) :
    c.ViewAfter k (c.afterReply k g id goal) (c.unqueued.afterReply k g id goal) := by
  obtain ⟨⟨d, reply⟩, hsettle⟩ := Option.isSome_iff_exists.mp hcan
  have hview : c.unqueued.settle? g id = some (d.amid c.unqueued, reply) := by
    have h := settle?_amid c c.unqueued g id
    rw [hsettle] at h
    exact h
  have hafter := viewAfter_useReply hp (isBeside_settle g id) hcall hphase reply goal
  simp only [hsettle, hview, Option.map_some, Option.getD_some] at hafter
  unfold afterReply
  rw [hsettle, hview]
  exact hafter

/-! ### Polls -/

/-- A call begins alike in the view. -/
theorem viewAfter_beginCall (h : c.life.Orderly) (hp : c.Plain) (hcall : c.calls[k]? = some call)
    (hphase : call.phase = .fresh) :
    c.ViewAfter k (c.beginCall k call.operation) (c.unqueued.beginCall k call.operation) := by
  have hplain := (hp k call hcall).plain
  have hout : call.phase.isTurn = false := by rw [hphase]; rfl
  cases hop : call.operation with
  | start =>
      have hask := viewAfter_askTurn h hp hcall hphase (by rw [hop]; rfl)
      rwa [hop] at hask
  | stop =>
      have hask := viewAfter_askTurn h hp hcall hphase (by rw [hop]; rfl)
      rwa [hop] at hask
  | restart =>
      have hask := viewAfter_askTurn h hp hcall hphase (by rw [hop]; rfl)
      rwa [hop] at hask
  | activate => rw [hop] at hplain; cases hplain
  | command id args reported => rw [hop] at hplain; cases hplain
  | ready => exact viewAfter_look hp rfl rfl hcall (by rw [hphase]; rfl) hop
  | request method params shape => exact viewAfter_askSession hp hcall hout _ _ _
  | showVirtualFile source => exact viewAfter_askSession hp hcall hout _ _ _
  | relay g method params =>
      have hhas : c.unqueued.hasSession g = c.hasSession g := by
        simp only [hasSession, unqueued, List.any_map]
        congr 1
        congr 1
        funext other
        simp [Call.unqueued]
      simp only [beginCall, hhas]
      split
      · exact viewAfter_ask hp hcall hout _ _ _ _
      · exact viewAfter_finish hp isBeside_id hcall hout _

/-- Whether a call can go on does not depend on who waits. -/
theorem canGoOn_unqueued (c : Client) (k : Nat) {phase : Phase} (h : phase.isPatient = false) :
    c.unqueued.canGoOn k phase = c.canGoOn k phase := by
  have hsettle : ∀ g id, (c.unqueued.settle? g id).isSome = (c.settle? g id).isSome := by
    intro g id
    have hview : c.unqueued.settle? g id =
        (c.settle? g id).map fun r => (r.1.amid c.unqueued, r.2) := settle?_amid c c.unqueued g id
    rw [hview, Option.isSome_map]
  cases phase with
  | queued => cases h
  | watching seen => cases h
  | peeking => cases h
  | initializing g id => exact hsettle g id
  | stopping g id => exact hsettle g id
  | awaiting g id goal => exact hsettle g id
  | _ => rfl

theorem poll_eq (hcall : c.calls[k]? = some call) :
    c.poll k = if c.canGoOn k call.phase then c.goOn k call.operation call.phase else c := by
  unfold poll
  rw [hcall]

theorem poll_unqueued (hcall : c.calls[k]? = some call) :
    c.unqueued.poll k = if c.unqueued.canGoOn k call.phase.unqueued then
      c.unqueued.goOn k call.operation call.phase.unqueued else c.unqueued := by
  have hview : c.unqueued.calls[k]? = some call.unqueued := by
    rw [getElem?_unqueued, hcall]
    rfl
  rw [poll_eq hview]
  rfl

/-- A call that has its turn goes on alike in the view. -/
theorem viewAfter_part (h : c.life.Orderly) (hp : c.Plain) (hcall : c.calls[k]? = some call)
    (hturn : call.phase.isTurn) {part : Client → Client × Next}
    (hpart : IsPart part call.operation call.phase) :
    c.ViewAfter k (proceed k (part c)) (proceed k (part c.unqueued)) := by
  have hholder : c.lock.holder? = some k := (h.turn k call hcall hturn).1
  have hview := unqueued_of_turn hcall hholder hturn
  rw [hview]
  refine viewAfter_proceed hpart.isLocal hp rfl hcall ((hp k call hcall).turn (.inr hturn)) hholder
    ?_ ?_
  · intro i other hne hother
    exact Life.not_isTurn_of_holder? h hholder hne hother
  · intro phase hnext
    exact isTurn_of_matchesNext (matchesNext_part h hcall hturn hpart) hnext

theorem viewAfter_goOn (h : c.life.Orderly) (hp : c.Plain) (hcall : c.calls[k]? = some call)
    (hcan : c.canGoOn k call.phase) :
    c.ViewAfter k (c.goOn k call.operation call.phase)
      (c.unqueued.goOn k call.operation call.phase.unqueued) := by
  have hplain := hp k call hcall
  by_cases hturn : call.phase.isTurn
  · obtain ⟨part, hpart, hgo⟩ := exists_isPart k call.operation hturn
    rw [Phase.unqueued_of_isTurn hturn, hgo, hgo]
    exact viewAfter_part h hp hcall hturn hpart
  cases hphase : call.phase with
  | fresh => exact viewAfter_beginCall h hp hcall hphase
  | queued =>
      have hop := hplain.turn (.inl hphase)
      have hholder : c.lock.holder? = some k := by simpa [hphase, canGoOn] using hcan
      have hnobody := Life.not_isTurn_of_waiting h hholder hcall (by rw [hphase]; rfl)
      have hbegin := viewAfter_beginTurn h hp hcall hop hholder hnobody
      rw [← beginCall_of_takesTurn hop] at hbegin
      exact hbegin
  | watching seen =>
      have hop := hplain.ready (.inr ⟨seen, hphase⟩)
      have hlook := viewAfter_look hp rfl rfl hcall (by rw [hphase]; rfl) hop
      simpa only [goOn, Phase.unqueued, Phase.isPatient, if_true, hop, beginCall] using hlook
  | peeking =>
      -- In the view the call had no place in line that it could leave.
      have hop := hplain.ready (.inl hphase)
      have hleave := unqueued_leave h hcall (by rw [hphase]; rfl)
      have hlook := viewAfter_look hp (b := { c with lock := c.lock.leave k }) rfl hleave hcall
        (by rw [hphase]; rfl) hop
      simpa only [goOn, Phase.unqueued, Phase.isPatient, if_true, hop, beginCall] using hlook
  | awaiting g id goal =>
      exact viewAfter_afterReply hp hcall (by rw [hphase]; rfl) g id goal (by
        simpa [hphase, canGoOn] using hcan)
  | finished outcome => simp [hphase, canGoOn] at hcan
  | dropped => simp [hphase, canGoOn] at hcan
  | reaping g deadline error? =>
      exact absurd (by rw [hphase]; exact Phase.isTurn_reaping g deadline error?) hturn
  | _ => exact absurd (by rw [hphase]; rfl) hturn

/-- Nothing happens. -/
theorem viewAfter_same (hp : c.Plain) (hview : c.isPatient k = false → v = c.unqueued) :
    c.ViewAfter k c v := ⟨hp, fun _ => rfl, fun hgoes => (hview hgoes).symm⟩

/-- **Every poll is followed by the view**, or the call still waits and the view is as before. -/
theorem viewAfter_poll (h : c.life.Orderly) (hp : c.Plain) (k : Nat) :
    c.ViewAfter k (c.poll k) (c.unqueued.poll k) := by
  cases hcall : c.calls[k]? with
  | none =>
      have hsame : c.poll k = c := by simp [poll, hcall]
      have hview : c.unqueued.poll k = c.unqueued := by
        have hnone : c.unqueued.calls[k]? = none := by
          rw [getElem?_unqueued, hcall]
          rfl
        simp [poll, hnone]
      rw [hsame, hview]
      exact viewAfter_same hp fun _ => rfl
  | some call =>
      rw [poll_eq hcall, poll_unqueued hcall]
      cases hcan : c.canGoOn k call.phase with
      | false =>
          rw [if_neg (by simp)]
          -- The call stays where it is; unless it only waits, it does so in the view too.
          refine viewAfter_same hp ?_
          intro hgoes
          have hpatient : call.phase.isPatient = false := by simpa [isPatient, hcall] using hgoes
          have hphase : call.phase.unqueued = call.phase := by simp [Phase.unqueued, hpatient]
          rw [hphase, canGoOn_unqueued c k hpatient, hcan, if_neg (by simp)]
      | true =>
          -- A call that has done nothing but wait has not begun in the view, and can go on there.
          have hcan' : c.unqueued.canGoOn k call.phase.unqueued := by
            cases hpatient : call.phase.isPatient with
            | true =>
                have hfresh : call.phase.unqueued = .fresh := by simp [Phase.unqueued, hpatient]
                rw [hfresh]
                rfl
            | false =>
                have hphase : call.phase.unqueued = call.phase := by simp [Phase.unqueued, hpatient]
                rw [hphase, canGoOn_unqueued c k hpatient, hcan]
          rw [if_pos rfl, if_pos hcan']
          exact viewAfter_goOn h hp hcall hcan

end Client
end LanguageClient
