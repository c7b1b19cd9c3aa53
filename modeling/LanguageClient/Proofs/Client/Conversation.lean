import LanguageClient.Proofs.Client.SpeakersStep
import Mathlib.Data.List.Induction

/-!
# What is said in a run

Every event is a move for every generation, so the talk with every server keeps to its order.
What is said is what the connection takes into its queue, and the server reads the first part of it.

* `Client.acceptsNothing_act` — an event in which no call goes on and nobody sends a notification.
* **`Client.speakers_step`** — every event is a move for every generation, and what it says is read
  off the queue.
* `Client.sent_append` — what is said in one run after another.
* **`Client.agreesWith_reached`** — after any events, the talk with every server has kept to its
  order, and nobody may speak out of turn.
* **`Client.matchesPosts_reached`**, `Client.Delivers` — the mail of every connection carries what was
  said, and nothing else but answers; so the server gets a beginning of that.
* **`Client.nobodyLeft_reached`**, **`Client.ended_reached`** — when nobody has anything to say any
  more, or the connection has ended, nothing is said.
-/

namespace LanguageClient
namespace Client

variable {c d : Client} {k g : Nat} {call : Call} {event : Event}

/-! ### Events in which no call goes on -/

/-- An event other than a poll lets no call come to a phase in which it has something to say. -/
theorem hasPhase_act (hpoll : ∀ k, event ≠ .poll k) {phase : Phase}
    (h : (c.act event).life.HasPhase phase) :
    c.life.HasPhase phase ∨ phase.speaker? = none ∧ phase.session? = none := by
  obtain ⟨i, call, hcall, rfl⟩ := id h
  have hcall' : (c.act event).calls[i]? = some call := hcall
  rcases calls_act c hpoll with hcalls | ⟨operation, -, hcalls⟩ | ⟨k, other, -, hcalls⟩
  · rw [hcalls] at hcall'
    exact .inl ⟨i, call, hcall', rfl⟩
  · rw [hcalls, List.getElem?_append] at hcall'
    split at hcall'
    · exact .inl ⟨i, call, hcall', rfl⟩
    · obtain ⟨-, rfl⟩ := by simpa [List.getElem?_singleton] using hcall'
      exact .inr ⟨rfl, rfl⟩
  · rcases hasPhase_reachesPhase ⟨attemptsGoOn_act c event, hcalls⟩
      h with ⟨j, other, -, hj, hphase⟩ | hphase
    · exact .inl ⟨j, other, hj, hphase⟩
    · rw [hphase]
      exact .inr ⟨rfl, rfl⟩

theorem leavesSession_pump (c : Client) (n g : Nat) : c.course.LeavesSession g (c.pump n).course := by
  rcases course_pump c n with hcourse | ⟨-, hcourse⟩
  · rw [hcourse]
    exact Course.leavesSession_refl g _
  · -- A session that is lost is owned no longer.
    rw [hcourse]
    exact (Course.leavesSession_letGo g _).trans (Course.leavesSession_publish g _ n (by simp))

theorem leavesSession_act (hpoll : ∀ k, event ≠ .poll k) (g : Nat) :
    c.course.LeavesSession g (c.act event).course := by
  -- Most events leave the life, and with it the course, as it is.
  have hlife : ∀ d : Client, d.life = c.life → c.course.LeavesSession g d.course := by
    intro d hd
    have hcourse : d.course = c.course := congrArg Life.course hd
    rw [hcourse]
    exact Course.leavesSession_refl g _
  cases event with
  | advance span => exact Course.leavesSession_refl g _
  | invoke operation =>
      rw [act, invoke]
      split <;> exact Course.leavesSession_refl g _
  | poll k => exact absurd rfl (hpoll k)
  | cancel k =>
      rcases cancel_cases c k with ⟨hsame, -⟩ | ⟨call, -, hcall, hover, -⟩
      · exact hlife _ (congrArg life hsame)
      · have hcourse : (c.act (.cancel k)).course = c.course :=
          congrArg Life.course (life_cancel hcall hover)
        rw [hcourse]
        exact Course.leavesSession_refl g _
  | launchFailed g error => exact hlife _ (life_updateAttempt c g _)
  | launchSucceeded g taken process => exact hlife _ (life_updateAttempt c g _)
  | processEnded g => exact hlife _ (life_updateAttempt c g _)
  | connection g action => exact hlife _ (life_moveConnection c g action)
  | complaint line => exact hlife _ (life_of_workspaceEffect (workspaceEffect_say _) c)
  | pump n => exact leavesSession_pump c n g
  | onReady hook => exact hlife _ (life_of_workspaceEffect (workspaceEffect_onReady hook) c)
  | relayNotification g message => exact hlife _ (life_act_relayNotification c g message)
  | release => exact Course.leavesSession_refl g _

theorem mails_pump (c : Client) (n : Nat) : (c.pump n).mails = c.mails := by
  have hchange := pumpChange_pump c n
  generalize c.pump n = d at hchange ⊢
  cases hchange with
  | rests => rfl
  | @delivers a message rest hattempt harmed hwaiting =>
      refine (mails_of_attempts ((workspaceEffect_deliver message).attempts _)).trans ?_
      exact mails_updateAttempt c n fun _ => rfl
  | loses => exact (mails_of_attempts rfl).trans (mails_setPump c n .ended)
  | ends => exact mails_setPump c n .ended

theorem mails_cancel (c : Client) (k : Nat) : (c.cancel k).mails = c.mails := by
  have hgone : ∀ d : Client,
      (({ d with lock := d.lock.leave k }.endProgress k).setPhase k .dropped).mails = d.mails :=
    fun d => mails_of_attempts ((workspaceEffect_endProgress k).attempts _)
  rcases cancel_cases c k with ⟨hsame, -⟩ | ⟨call, d, -, -, rfl | ⟨g, id, rfl⟩, hcancel⟩
  · rw [hsame]
  · rw [hcancel]
    exact hgone _
  · rw [hcancel]
    exact (hgone _).trans (mails_forget c g id)

/-- An event in which no call goes on and nobody sends a notification hands nothing in. -/
theorem acceptsNothing_act (hpoll : ∀ k, event ≠ .poll k)
    (hrelay : ∀ n message, event ≠ .relayNotification n message) (g : Nat) :
    (c.mails g).AcceptsNothing ((c.act event).mails g) := by
  have hsame : ∀ d : Client, d.mails = c.mails → (c.mails g).AcceptsNothing (d.mails g) := by
    intro d hd
    rw [hd]
    exact Mail.acceptsNothing_refl _
  cases event with
  | advance span => exact hsame _ rfl
  | invoke operation =>
      refine hsame _ (mails_of_attempts ?_)
      rw [act, invoke]
      split <;> rfl
  | poll k => exact absurd rfl (hpoll k)
  | cancel k => exact hsame _ (mails_cancel c k)
  | launchFailed n error => exact hsame _ (mails_setLaunch c n _ _ _)
  | launchSucceeded n taken process => exact hsame _ (mails_setLaunch c n _ _ _)
  | processEnded n => exact hsame _ (mails_endProcess c n)
  | connection n action => exact acceptsNothing_moveConnection c n action g
  | complaint line => exact hsame _ (mails_of_attempts ((workspaceEffect_say _).attempts c))
  | pump n => exact hsame _ (mails_pump c n)
  | onReady hook => exact hsame _ (mails_of_attempts ((workspaceEffect_onReady hook).attempts c))
  | relayNotification n message => exact absurd rfl (hrelay n message)
  | release => exact hsame _ rfl

/-! ### Every event -/

theorem grantsNothing_act (hpoll : ∀ k, event ≠ .poll k) (g : Nat) :
    (c.speakers g).GrantsNothing ((c.act event).speakers g) := by
  refine grantsNothing_speakers (attemptsGoOn_act c event) (leavesSession_act hpoll g) ?_
  intro phase hphase
  rcases hasPhase_act hpoll hphase with hold | ⟨hspeaker, hsession⟩
  · exact .inl hold
  · exact .inr ⟨by simp [hspeaker], by simp [hsession]⟩

/-- Nobody says anything, and nobody may speak who could not before. -/
theorem move_idle (c : Client) (g : Nat) : Speakers.Move g (c.speakers g)
    (c.speakers g) none :=
  .rests (Speakers.grantsNothing_refl _) (Mail.acceptsNothing_refl _)

/-- Somebody sends a notification by a session that is in being. -/
theorem move_relayNotification (c : Client) (n : Nat) (message : Notification) (g : Nat) :
    ∃ utterance? : Option Utterance,
      Speakers.Move g (c.speakers g) ((c.act (.relayNotification n message)).speakers g) utterance? ∧
        ∀ u, utterance? = some u → u.voice = .handle n := by
  have hnot : ∀ k, Event.relayNotification n message ≠ .poll k := by
    intro k hk
    cases hk
  have hgrants := grantsNothing_act (c := c) hnot g
  rcases relayNotification_cases c n message with hsame | ⟨hkept, hnotify⟩
  · rw [hsame]
    exact ⟨none, move_idle c g, fun u hu => by cases hu⟩
  · generalize c.act (.relayNotification n message) = d at hgrants hnotify ⊢
    obtain ⟨-, hhands⟩ := handsIn_notify? hnotify
    by_cases hg : g = n
    · subst hg
      exact ⟨_, .relayed (.notify message) hkept hgrants hhands.self, by rintro _ ⟨⟩; rfl⟩
    · refine ⟨none, .rests hgrants ?_, fun u hu => by cases hu⟩
      change (c.mails g).AcceptsNothing (d.mails g)
      rw [hhands.others g hg]
      exact Mail.acceptsNothing_refl _

/-- A poll is idle, or a call that can go on does so. -/
theorem speaksAsItself_poll (h : c.IsConsistent) (k : Nat) : c.SpeaksAsItself k (c.poll k) := by
  have hidle : c.SpeaksAsItself k c := speaksAsItself_of_silence (move_idle c)
  cases hcall : c.calls[k]? with
  | none =>
      have hsame : c.poll k = c := by simp [poll, hcall]
      rwa [hsame]
  | some call =>
      rw [poll_eq hcall]
      split
      · rename_i hcan
        exact speaksAsItself_goOn h hcall hcan
      · exact hidle

theorem speakers_act (h : c.IsConsistent) (event : Event) (g : Nat) :
    ∃ utterance? : Option Utterance,
    Speakers.Move g (c.speakers g) ((c.act event).speakers g) utterance? ∧
      ∀ u, utterance? = some u → u.voice = c.voice event := by
  by_cases hpoll : ∃ k, event = .poll k
  · obtain ⟨k, rfl⟩ := hpoll
    exact speaksAsItself_poll h k g
  by_cases hrelay : ∃ n message, event = .relayNotification n message
  · obtain ⟨n, message, rfl⟩ := hrelay
    exact move_relayNotification c n message g
  have hnot : ∀ k, event ≠ .poll k := fun k hk => hpoll ⟨k, hk⟩
  exact ⟨none, .rests (grantsNothing_act hnot g)
    (acceptsNothing_act hnot (fun n message hn => hrelay ⟨n, message, hn⟩) g), nofun⟩

/-- What nobody keeps goes away, and nobody gets the right to speak by that. -/
theorem grantsNothing_tidy (c : Client) (g : Nat) :
    (c.speakers g).GrantsNothing (c.tidy.speakers g) := by
  have hcourse : c.course.LeavesSession g c.tidy.course := by
    have hlife : c.tidy.course = c.life.tidy.course := congrArg Life.course (life_tidy c)
    rw [hlife]
    unfold Life.tidy
    split
    · exact Course.leavesSession_refl g _
    · exact Course.leavesSession_letGo g _
  refine grantsNothing_speakers (attemptsGoOn_tidy c) hcourse ?_
  rintro phase ⟨i, call, hcall, hphase⟩
  have hcall' : c.tidy.calls[i]? = some call := hcall
  rw [tidy_calls] at hcall'
  exact .inl ⟨i, call, hcall', hphase⟩

/-- **Every event is a move for every generation**, and what it says is read off the queue. -/
theorem speakers_step (h : c.IsConsistent) (event : Event) (g : Nat) :
    ∃ utterance? : Option Utterance,
    Speakers.Move g (c.speakers g) ((c.step event).speakers g) utterance? ∧
      c.utters g event = (c.mails g).said utterance? := by
  obtain ⟨utterance?, hmove, hvoice⟩ := speakers_act h event g
  have hstep := hmove.grantsNothing (grantsNothing_tidy _ g) (congrFun (mails_tidy _) g)
  refine ⟨utterance?, hstep, ?_⟩
  have hqueue : ((c.step event).mails g).queue.drop (c.mails g).queue.length =
      ((c.mails g).said utterance?).map Said.message := Speakers.queue_move hstep
  rw [utters, hqueue]
  cases utterance? with
  | none => rfl
  | some u =>
      have hu := hvoice u rfl
      cases hhanded : (c.mails g).handed? u.speech <;> simp [Mail.said, hhanded, hu]

/-! ### Runs -/

theorem sent_append (c : Client) (g : Nat) (past future : List Event) :
    c.sent g (past ++ future) = c.sent g past ++ (c.run past).sent g future := by
  induction past generalizing c with
  | nil => rfl
  | cons event rest ih =>
      have hrun : c.run (event :: rest) = (c.step event).run rest := rfl
      rw [List.cons_append, sent, sent, ih, List.append_assoc, hrun]

/-- The server of a generation gets a beginning of what is said to it, in order, and besides only
answers. -/
def Delivers (c : Client) (events : List Event) (g : Nat) : Prop :=
  ∃ out : List Outgoing, ((c.run events).mails g).written = out.map Outgoing.toJson ∧
    out.filter Outgoing.isCall <+: (c.sent g events).map Said.message

section Reached

variable (options : SessionOptions) (processId : Nat) (workspace : Workspace)

theorem isConsistent_of_agreesWith (events : List Event)
    (h : ∀ g, ∃ talk,
      (((Client.new options processId workspace).run events).speakers g).AgreesWith talk) :
    ((Client.new options processId workspace).run events).IsConsistent where
  life := orderly_reached options processId workspace events
  fitting := fitting_reached options processId workspace events
  ended _ _ ha := not_isOpen_of_closed options processId workspace events ha
  kept g hkept := by
    obtain ⟨talk, hagrees⟩ := h g
    exact (Speakers.agreesWith_after hagrees (hagrees.kept hkept)).1

theorem agreesWith_new (g : Nat) :
    ((Client.new options processId workspace).speakers g).AgreesWith .silent := by
  have hnobody : ∀ phase, ¬ (Client.new options processId workspace).life.HasPhase phase := by
    rintro phase ⟨i, call, hcall, -⟩
    simp [life, Client.new] at hcall
  refine Speakers.agreesWith_empty (hnobody _) (fun _ => hnobody _) ?_ (fun _ => hnobody _) ?_ ?_ ?_
  · simp [speakers, Client.new]
  · simp [speakers, hasSession, Client.new]
  · simp [speakers, published, Client.new]
  · simp [speakers, mails, connection?, attempt?, Client.new]

/-- **After any events, the talk with every server has kept to its order**, and nobody may
speak out of turn. -/
theorem agreesWith_reached (events : List Event) (g : Nat) : ∃ talk : Talk,
    Talk.AllowsAll g .silent ((Client.new options processId workspace).sent g events) talk ∧
      (((Client.new options processId workspace).run events).speakers g).AgreesWith talk := by
  induction events using List.reverseRecOn generalizing g with
  | nil => exact ⟨.silent, .nil _, agreesWith_new options processId workspace g⟩
  | append_singleton past event ih =>
      have hconsistent := isConsistent_of_agreesWith options processId workspace past fun g =>
        (ih g).imp fun _ => And.right
      obtain ⟨talk, hallows, hagrees⟩ := ih g
      obtain ⟨utterance?, hmove, hutters⟩ := speakers_step hconsistent event g
      obtain ⟨last, hmore, hlast⟩ := Speakers.agreesWith_move hagrees hmove
      refine ⟨last, ?_, ?_⟩
      · rw [sent_append, sent, sent, List.append_nil, hutters]
        exact Talk.allowsAll_append hallows hmore
      · rw [run_append]
        exact hlast

theorem isConsistent_reached (events : List Event) :
    ((Client.new options processId workspace).run events).IsConsistent :=
  isConsistent_of_agreesWith options processId workspace events fun g =>
    (agreesWith_reached options processId workspace events g).imp fun _ => And.right

/-- **The mail of every connection carries what was said**, and nothing else but answers. -/
theorem matchesPosts_reached (events : List Event) (g : Nat) :
    ∃ (out : List Outgoing) (posts : List Post),
    (((Client.new options processId workspace).run events).mails g).MatchesPosts out posts ∧
      posts.filterMap Post.accepted? =
        ((Client.new options processId workspace).sent g events).map Said.message := by
  induction events using List.reverseRecOn with
  | nil =>
      refine ⟨[], [], ?_, rfl⟩
      have hmail : ((Client.new options processId workspace).run []).mails g = {} := by
        simp [mails, connection?, attempt?, Client.new, run]
      rw [hmail]
      exact Mail.matchesPosts_empty
  | append_singleton past event ih =>
      obtain ⟨out, posts, hposts, haccepted⟩ := ih
      obtain ⟨utterance?, hmove, hutters⟩ :=
        speakers_step (isConsistent_reached options processId workspace past) event g
      obtain ⟨post?, hmail, hpost⟩ := Speakers.mail_move hmove
      obtain ⟨more, hmore⟩ := Mail.matchesPosts_move hposts hmail
      refine ⟨out ++ more, posts ++ post?.toList, ?_, ?_⟩
      · rw [run_append]
        exact hmore
      · rw [List.filterMap_append, haccepted, sent_append, List.map_append, sent, sent,
          List.append_nil, hutters]
        refine congrArg _ (Eq.trans ?_ hpost)
        cases post? with
        | none => rfl
        | some post => cases hp : post.accepted? <;> simp [hp]

theorem delivers_reached (events : List Event) (g : Nat) :
    (Client.new options processId workspace).Delivers events g := by
  obtain ⟨out, posts, hposts, haccepted⟩ := matchesPosts_reached options processId workspace events g
  exact ⟨out, hposts.written, haccepted ▸ hposts.inOrder⟩

/-- When no move takes anything in any more, nothing is said, whatever happens afterwards. -/
theorem silent_reached {P : Speakers → Prop} {g : Nat}
    (hmove : ∀ (f f' : Speakers) (utterance? : Option Utterance), P f →
      Speakers.Move g f f' utterance? →
      f.mail.said utterance? = [] ∧ P f')
    (past future : List Event)
    (h : P (((Client.new options processId workspace).run past).speakers g)) :
    (Client.new options processId workspace).sent g (past ++ future) =
        (Client.new options processId workspace).sent g past ∧
      P (((Client.new options processId workspace).run (past ++ future)).speakers g) := by
  induction future using List.reverseRecOn with
  | nil =>
      rw [List.append_nil]
      exact ⟨rfl, h⟩
  | append_singleton future event ih =>
      obtain ⟨hsent, hbefore⟩ := ih
      obtain ⟨utterance?, hmoved, hutters⟩ :=
        speakers_step (isConsistent_reached options processId workspace (past ++ future)) event g
      obtain ⟨hsaid, hafter⟩ := hmove _ _ _ hbefore hmoved
      rw [← List.append_assoc]
      constructor
      · rw [sent_append, sent, sent, List.append_nil, hutters, hsent]
        exact hsaid ▸ List.append_nil _
      · rw [run_append]
        exact hafter

/-- **When nobody has anything to say to a server any more, nothing is said to it.** -/
theorem nobodyLeft_reached (past future : List Event) (g : Nat)
    (h : (((Client.new options processId workspace).run past).speakers g).NobodyLeft) :
    (Client.new options processId workspace).sent g (past ++ future) =
        (Client.new options processId workspace).sent g past ∧
      (((Client.new options processId workspace).run (past ++ future)).speakers g).NobodyLeft :=
  silent_reached options processId workspace (P := Speakers.NobodyLeft)
    (fun _ _ _ h hmove => Speakers.nobodyLeft_move h hmove) past future h

/-- **When a connection has ended, nothing is said on it.** -/
theorem ended_reached (past future : List Event) (g : Nat)
    (h : (((Client.new options processId workspace).run past).mails g).isOpen = false) :
    (Client.new options processId workspace).sent g (past ++ future) =
      (Client.new options processId workspace).sent g past :=
  (silent_reached options processId workspace (P := fun f => f.mail.isOpen = false)
    (fun _ _ _ h hmove => Speakers.ended_move h hmove) past future h).1

end Reached

end Client
end LanguageClient
