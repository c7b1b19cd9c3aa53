import LanguageClient.Proofs.Client.Speakers

/-!
# What is said to a server

The messages that are handed in for the server of a generation follow an order: the first request,
then nothing until its answer has been accepted, then the notification that tells so, then whatever
the owner of the session and those who hold on to it say, and at the end the last request and the
last notification of a stop.  The order follows from who may speak.

* `Talk`, `Talk.Allows`, `Talk.AllowsAll` — how far a talk has come, and what may be said next.
* **`Talk.opening_of_allowsAll`**, **`Talk.ending_of_allowsAll`** — how a talk begins and how it ends.
* `Speakers.AgreesWith` — who may speak at which point of the talk.
* **`Speakers.agreesWith_move`** — every move says what may be said next.
* **`Speakers.nobodyLeft_move`**, **`Speakers.ended_move`** — when nobody has anything
  to say any more, or the connection has ended, that stays so.
-/

namespace LanguageClient

/-! ### Messages of the life cycle -/

namespace Said

/-- The first request to a server. -/
def opening (params : Json) : Said := ⟨.lifeCycle, .request 1 Method.initializeServer params⟩

/-- The notification that follows its answer. -/
def initialized : Said :=
  ⟨.lifeCycle, .notification ⟨Method.initialized, Handshake.noParams⟩⟩

/-- The request of a stop. -/
def shutdown (id : Nat) : Said := ⟨.lifeCycle, .request id Method.shutdown .null⟩

/-- The notification that follows its answer. -/
def exit : Said := ⟨.lifeCycle, .notification ⟨Method.exit, .null⟩⟩

end Said

/-! ### The order of a talk -/

/-- How far the talk with a server has come, by what was said. -/
inductive Talk where
  /-- Nothing has been said. -/
  | silent
  /-- The first request has been made. -/
  | asked
  /-- The server knows that the session is initialized. -/
  | talking
  /-- The server has been asked to come to an end. -/
  | stopping
  /-- The server has been told to exit. -/
  | leaving
  deriving DecidableEq, Repr

namespace Talk

/-- Whether the server has been told that the session is initialized. -/
def isIntroduced : Talk → Bool
  | silent => false
  | asked => false
  | _ => true

/-- What may be said next to the server of a generation. -/
inductive Allows (g : Nat) : Talk → Said → Talk → Prop
  | opening (params : Json) : Allows g silent (.opening params) asked
  | initialized : Allows g asked .initialized talking
  | inquiry (message : Outgoing) : Allows g talking ⟨.controller, message⟩ talking
  | relayed (talk : Talk) (message : Outgoing) (h : talk.isIntroduced) :
      Allows g talk ⟨.handle g, message⟩ talk
  | shutdown (id : Nat) : Allows g talking (.shutdown id) stopping
  | exit : Allows g stopping .exit leaving

/-- A talk goes from one point to another while some messages are said. -/
inductive AllowsAll (g : Nat) : Talk → List Said → Talk → Prop
  | nil (talk : Talk) : AllowsAll g talk [] talk
  | cons {talk next last : Talk} {said : Said} {rest : List Said} (h : Allows g talk said next)
      (hrest : AllowsAll g next rest last) : AllowsAll g talk (said :: rest) last

variable {g id : Nat} {talk next last : Talk} {said : Said} {before after rest : List Said}

theorem allowsAll_single (h : Allows g talk said next) :
    AllowsAll g talk [said] next := .cons h (.nil next)

theorem allowsAll_append (h : AllowsAll g talk before next) (h' : AllowsAll g next after last) :
    AllowsAll g talk (before ++ after) last := by
  induction h with
  | nil => exact h'
  | cons hallows hrest ih => exact .cons hallows (ih h')

theorem allowsAll_of_append (h : AllowsAll g talk (before ++ after) last) :
    ∃ next, AllowsAll g talk before next ∧ AllowsAll g next after last := by
  induction before generalizing talk with
  | nil => exact ⟨talk, .nil talk, h⟩
  | cons said rest ih =>
      cases h with
      | cons hallows hrest =>
          obtain ⟨next, hbefore, hafter⟩ := ih hrest
          exact ⟨next, .cons hallows hbefore, hafter⟩

/-! ### The beginning of a talk -/

theorem isIntroduced_of_allows (h : Allows g talk said next) (htalk : talk.isIntroduced) :
    next.isIntroduced := by
  cases h with
  | opening => cases htalk
  | relayed _ _ h => exact h
  | _ => rfl

theorem isIntroduced_of_allowsAll (h : AllowsAll g talk rest last) (htalk : talk.isIntroduced) :
    last.isIntroduced := by
  induction h with
  | nil => exact htalk
  | cons hallows hrest ih => exact ih (isIntroduced_of_allows hallows htalk)

/-- **A talk begins with the first request and the notification that follows its answer.** -/
theorem opening_of_allowsAll (h : AllowsAll g silent rest last) :
    rest = [] ∧ last = silent ∨
      ∃ params : Json, rest = [.opening params] ∧ last = asked ∨
        ∃ more : List Said, rest = .opening params :: .initialized :: more ∧
          last.isIntroduced := by
  cases h with
  | nil => exact .inl ⟨rfl, rfl⟩
  | cons hfirst hrest =>
      cases hfirst with
      | relayed _ _ h => cases h
      | opening params =>
          refine .inr ⟨params, ?_⟩
          cases hrest with
          | nil => exact .inl ⟨rfl, rfl⟩
          | cons hsecond hmore =>
              cases hsecond with
              | relayed _ _ h => cases h
              | initialized => exact .inr ⟨_, rfl, isIntroduced_of_allowsAll hmore rfl⟩

/-- Whoever says something by a session says it to the server of that session. -/
theorem handle_of_allowsAll (h : AllowsAll g talk rest last) {n : Nat} (hsaid : said ∈ rest)
    (hvoice : said.voice = .handle n) : n = g := by
  induction h with
  | nil => cases hsaid
  | cons hallows hrest ih =>
      rcases List.mem_cons.mp hsaid with rfl | hrest
      · cases hallows with
        | relayed _ _ _ => exact (Voice.handle.inj hvoice).symm
        | _ => cases hvoice
      · exact ih hrest

/-! ### The end of a talk -/

theorem handles_of_leaving (h : AllowsAll g leaving rest last) : ∀ s ∈ rest, s.voice = .handle g := by
  generalize hfrom : leaving = talk at h
  induction h with
  | nil => simp
  | cons hallows hrest ih =>
      subst hfrom
      cases hallows with
      | relayed _ _ _ =>
          intro s hs
          rcases List.mem_cons.mp hs with rfl | hs
          · rfl
          · exact ih rfl s hs

/-- After the request of a stop, those who hold on to the session talk on, and at most once the server
is told to exit. -/
theorem ending_of_stopping (h : AllowsAll g stopping rest last) :
    (∀ s ∈ rest, s.voice = .handle g ∨ s = .exit) ∧
      (rest.filter fun s => s.voice = .lifeCycle).length ≤ 1 := by
  generalize hfrom : stopping = talk at h
  induction h with
  | nil => simp
  | cons hallows hrest ih =>
      subst hfrom
      cases hallows with
      | relayed _ message _ =>
          obtain ⟨hmore, hcount⟩ := ih rfl
          exact ⟨List.forall_mem_cons.mpr ⟨.inl rfl, hmore⟩, by simpa using hcount⟩
      | exit =>
          have hmore := handles_of_leaving hrest
          refine ⟨List.forall_mem_cons.mpr ⟨.inr rfl, fun s hs => .inl (hmore s hs)⟩, ?_⟩
          rw [List.filter_cons_of_pos rfl, List.filter_eq_nil_iff.mpr]
          · exact Nat.le_refl 1
          · intro s hs
            simp [hmore s hs]

/-- **After the request of a stop, the talk comes to its end.** -/
theorem ending_of_allowsAll (h : AllowsAll g silent (before ++ .shutdown id :: after) last) :
    (∀ s ∈ after, s.voice = .handle g ∨ s = .exit) ∧
      (after.filter fun s => s.voice = .lifeCycle).length ≤ 1 := by
  obtain ⟨next, -, hend⟩ := allowsAll_of_append h
  generalize hshutdown : Said.shutdown id = s at hend
  cases hend with
  | cons hallows hrest =>
      cases hallows with
      | opening params =>
          injection hshutdown with _ hmessage
          injection hmessage with _ hmethod
          exact absurd hmethod (by decide)
      | shutdown id => exact ending_of_stopping hrest
      | _ => cases hshutdown

end Talk

/-! ### Who may speak at which point -/

namespace Speakers

variable {f f' : Speakers} {g : Nat} {talk : Talk} {utterance? : Option Utterance}

/-- Nobody may speak but those whose turn it is at a point of the talk. -/
structure AgreesWith (f : Speakers) (talk : Talk) : Prop where
  unbegun : ¬ f.begun → talk = .silent ∧ f.mail.nextId = 1
  launching : f.launching → f.begun ∧ talk = .silent ∧ f.mail.nextId = 1
  initializing : ∀ id, f.initializing id →
    id = 1 ∧ (talk = .asked ∨ talk = .silent ∧ f.mail.isOpen = false)
  owned : f.owned → talk = .talking
  stopping : ∀ id, f.stopping id →
    talk = .stopping ∨ talk = .talking ∧ f.mail.isOpen = false
  kept : f.kept → talk.isIntroduced
  ready : f.ready → talk.isIntroduced
  answered : talk.isIntroduced → f.answered 1

/-- At the beginning nobody may speak. -/
theorem agreesWith_empty (hlaunching : ¬ f.launching) (hinitializing : ∀ id, ¬ f.initializing id)
    (howned : ¬ f.owned) (hstopping : ∀ id, ¬ f.stopping id) (hkept : ¬ f.kept) (hready : ¬ f.ready)
    (hmail : f.mail.nextId = 1) : f.AgreesWith .silent where
  unbegun _ := ⟨rfl, hmail⟩
  launching h := absurd h hlaunching
  initializing id h := absurd h (hinitializing id)
  owned h := absurd h howned
  stopping id h := absurd h (hstopping id)
  kept h := absurd h hkept
  ready h := absurd h hready
  answered h := by cases h

/-- While nobody gets the right to speak, the talk stays where it is. -/
theorem agreesWith_grantsNothing (h : f.AgreesWith talk) (hn : f.GrantsNothing f')
    (hnext : talk = .silent → f'.mail.nextId = f.mail.nextId)
    (hended : f.mail.isOpen = false → f'.mail.isOpen = false) : f'.AgreesWith talk where
  unbegun hnew := by
    obtain ⟨htalk, hid⟩ := h.unbegun (mt hn.begun.mpr hnew)
    exact ⟨htalk, (hnext htalk).trans hid⟩
  launching hl := by
    obtain ⟨hbegun, htalk, hid⟩ := h.launching (hn.launching hl)
    exact ⟨hn.begun.mpr hbegun, htalk, (hnext htalk).trans hid⟩
  initializing id hi := by
    obtain ⟨hid, htalk⟩ := h.initializing id (hn.initializing id hi)
    exact ⟨hid, htalk.imp_right fun hsilent => ⟨hsilent.1, hended hsilent.2⟩⟩
  owned ho := h.owned (hn.owned ho)
  stopping id hs := (h.stopping id (hn.stopping id hs)).imp_right fun ht => ⟨ht.1, hended ht.2⟩
  kept hk := h.kept (hn.kept hk)
  ready hr := h.ready (hn.ready hr)
  answered ht := hn.answered 1 (h.answered ht)

/-- Before the session is introduced, nobody talks by it. -/
theorem agreesWith_before (h : f.AgreesWith talk) (htalk : talk.isIntroduced = false) :
    ¬ f.owned ∧ (∀ id, ¬ f.stopping id) ∧ ¬ f.kept ∧ ¬ f.ready := by
  refine ⟨?_, ?_, ?_, ?_⟩
  · intro howned
    rw [h.owned howned] at htalk
    cases htalk
  · intro id hstopping
    rcases h.stopping id hstopping with hs | ⟨hs, -⟩ <;> rw [hs] at htalk <;> cases htalk
  · intro hkept
    rw [h.kept hkept] at htalk
    cases htalk
  · intro hready
    rw [h.ready hready] at htalk
    cases htalk

/-- Whatever has been said, it was said after the start began. -/
theorem begun_of_agreesWith (h : f.AgreesWith talk) (htalk : talk ≠ .silent) : f.begun :=
  Classical.byContradiction fun hnew => htalk (h.unbegun hnew).1

/-- After the session is introduced, nobody introduces it. -/
theorem agreesWith_after (h : f.AgreesWith talk) (htalk : talk.isIntroduced) :
    f.begun ∧ ¬ f.launching ∧ ∀ id, ¬ f.initializing id := by
  refine ⟨begun_of_agreesWith h ?_, ?_, ?_⟩
  · rintro rfl
    cases htalk
  · intro hlaunching
    rw [(h.launching hlaunching).2.1] at htalk
    cases htalk
  · intro id hinitializing
    rcases (h.initializing id hinitializing).2 with ht | ⟨ht, -⟩ <;> rw [ht] at htalk <;> cases htalk

/-! ### Every move says what may be said -/

theorem said_of_open {m : Mail} (h : m.isOpen) (voice : Voice) (speech : Speech) :
    m.said (some ⟨voice, speech⟩) = [⟨voice, m.outgoing speech⟩] := by
  simp [Mail.said, Mail.handed?, h]

theorem said_of_ended {m : Mail} (h : m.isOpen = false) (u : Utterance) : m.said (some u) = [] := by
  simp [Mail.said, Mail.handed?, h]

theorem agreesWith_asks (hh : f.AgreesWith talk) {params : Json} (hbefore : f.launching)
    (hafter : ¬ f'.launching) (hid : ∀ id, f'.initializing id → id = f.mail.nextId)
    (h : f.GrantsNothing { f' with initializing := f.initializing })
    (hmail : f'.mail = f.mail.hand (.opening params)) :
    ∃ last, Talk.AllowsAll g talk (f.mail.said (some ⟨.lifeCycle, .opening params⟩)) last ∧
      f'.AgreesWith last := by
  obtain ⟨hbegun, rfl, hnext⟩ := hh.launching hbefore
  obtain ⟨howned, hstopping, hkept, hready⟩ := agreesWith_before hh rfl
  have hthen : ∀ last : Talk, last.isIntroduced = false →
      (last = .asked ∨ last = .silent ∧ f'.mail.isOpen = false) → f'.AgreesWith last := by
    intro last hlast htalk
    exact
      { unbegun := fun hnew => absurd (h.begun.mpr hbegun) hnew
        launching := fun hl => absurd hl hafter
        initializing := fun id hi => ⟨(hid id hi).trans hnext, htalk⟩
        owned := fun ho => absurd (h.owned ho) howned
        stopping := fun id hs => absurd (h.stopping id hs) (hstopping id)
        kept := fun hk => absurd (h.kept hk) hkept
        ready := fun hr => absurd (h.ready hr) hready
        answered := fun ha => by rw [hlast] at ha; cases ha }
  cases hopen : f.mail.isOpen with
  | true =>
      refine ⟨.asked, ?_, hthen .asked rfl (.inl rfl)⟩
      rw [said_of_open hopen, Speech.opening, Mail.outgoing, hnext]
      exact Talk.allowsAll_single (.opening params)
  | false =>
      refine ⟨.silent, ?_, hthen .silent rfl (.inr ⟨rfl, by rw [hmail, Mail.isOpen_hand, hopen]⟩)⟩
      rw [said_of_ended hopen]
      exact .nil _

theorem agreesWith_greets (hh : f.AgreesWith talk) {id : Nat} (hopen : f.mail.isOpen)
    (hbefore : f.initializing id) (hafter : ∀ id, ¬ f'.initializing id)
    (hanswered : f'.answered id)
    (h : f.GrantsNothing { f' with owned := f.owned, kept := f.kept, ready := f.ready }) :
    ∃ last, Talk.AllowsAll g talk (f.mail.said (some ⟨.lifeCycle, .initialized⟩)) last ∧
      f'.AgreesWith last := by
  obtain ⟨rfl, rfl | ⟨rfl, hended⟩⟩ := hh.initializing id hbefore
  · have hbegun := begun_of_agreesWith hh (by simp)
    refine ⟨.talking, ?_, ?_⟩
    · rw [said_of_open hopen]
      exact Talk.allowsAll_single .initialized
    · exact
        { unbegun := fun hnew => absurd (h.begun.mpr hbegun) hnew
          launching := fun hl => by cases (hh.launching (h.launching hl)).2.1
          initializing := fun id hi => absurd hi (hafter id)
          owned := fun _ => rfl
          stopping := fun id hs => absurd (h.stopping id hs) ((agreesWith_before hh rfl).2.1 id)
          kept := fun _ => rfl
          ready := fun _ => rfl
          answered := fun _ => hanswered }
  · rw [hopen] at hended
    cases hended

theorem agreesWith_takes (hh : f.AgreesWith talk) (hbefore : f.owned) (hafter : ¬ f'.owned)
    (h : f.GrantsNothing { f' with stopping := f.stopping })
    (hmail : f'.mail = f.mail.hand .shutdown) :
    ∃ last, Talk.AllowsAll g talk (f.mail.said (some ⟨.lifeCycle, .shutdown⟩)) last ∧
      f'.AgreesWith last := by
  have htalk := hh.owned hbefore
  subst htalk
  obtain ⟨hbegun, hlaunching, hinitializing⟩ := agreesWith_after hh rfl
  have hthen : ∀ last : Talk, last.isIntroduced →
      (last = .stopping ∨ last = .talking ∧ f'.mail.isOpen = false) → f'.AgreesWith last := by
    intro last hlast htalk
    exact
      { unbegun := fun hnew => absurd (h.begun.mpr hbegun) hnew
        launching := fun hl => absurd (h.launching hl) hlaunching
        initializing := fun id hi => absurd (h.initializing id hi) (hinitializing id)
        owned := fun ho => absurd ho hafter
        stopping := fun _ _ => htalk
        kept := fun _ => hlast
        ready := fun _ => hlast
        answered := fun _ => h.answered 1 (hh.answered rfl) }
  cases hopen : f.mail.isOpen with
  | true =>
      refine ⟨.stopping, ?_, hthen .stopping rfl (.inl rfl)⟩
      rw [said_of_open hopen]
      exact Talk.allowsAll_single (.shutdown f.mail.nextId)
  | false =>
      refine ⟨.talking, ?_, hthen .talking rfl (.inr ⟨rfl, by rw [hmail, Mail.isOpen_hand, hopen]⟩)⟩
      rw [said_of_ended hopen]
      exact .nil _

theorem agreesWith_exits (hh : f.AgreesWith talk) {id : Nat} (hopen : f.mail.isOpen)
    (hbefore : f.stopping id) (hafter : ∀ id, ¬ f'.stopping id) (h : f.GrantsNothing f') :
    ∃ last, Talk.AllowsAll g talk (f.mail.said (some ⟨.lifeCycle, .exit⟩)) last ∧
      f'.AgreesWith last := by
  rcases hh.stopping id hbefore with rfl | ⟨rfl, hended⟩
  · obtain ⟨hbegun, hlaunching, hinitializing⟩ := agreesWith_after hh rfl
    refine ⟨.leaving, ?_, ?_⟩
    · rw [said_of_open hopen]
      exact Talk.allowsAll_single .exit
    · exact
        { unbegun := fun hnew => absurd (h.begun.mpr hbegun) hnew
          launching := fun hl => absurd (h.launching hl) hlaunching
          initializing := fun id hi => absurd (h.initializing id hi) (hinitializing id)
          owned := fun ho => by cases hh.owned (h.owned ho)
          stopping := fun id hs => absurd hs (hafter id)
          kept := fun _ => rfl
          ready := fun _ => rfl
          answered := fun _ => h.answered 1 (hh.answered rfl) }
  · rw [hopen] at hended
    cases hended

/-- Somebody talks by a session that is introduced, and the talk stays where it is. -/
theorem agreesWith_inquiry (hh : f.AgreesWith talk) (htalk : talk.isIntroduced) {voice : Voice}
    {speech : Speech} (hallows : ∀ message, Talk.Allows g talk ⟨voice, message⟩ talk)
    (h : f.GrantsNothing f') (hmail : f'.mail = f.mail.hand speech) :
    ∃ last, Talk.AllowsAll g talk (f.mail.said (some ⟨voice, speech⟩)) last ∧ f'.AgreesWith last := by
  refine ⟨talk, ?_, agreesWith_grantsNothing hh h ?_ ?_⟩
  · cases hopen : f.mail.isOpen with
    | true =>
        rw [said_of_open hopen]
        exact Talk.allowsAll_single (hallows _)
    | false =>
        rw [said_of_ended hopen]
        exact .nil _
  · rintro rfl
    cases htalk
  · intro hended
    rw [hmail, Mail.isOpen_hand, hended]

/-- **Every move says what may be said next.** -/
theorem agreesWith_move (hh : f.AgreesWith talk) (hm : Move g f f' utterance?) :
    ∃ last, Talk.AllowsAll g talk (f.mail.said utterance?) last ∧ f'.AgreesWith last := by
  cases hm with
  | rests h hmail =>
      obtain ⟨post?, hmove, haccepted, hnext⟩ := id hmail
      exact ⟨talk, .nil talk,
        agreesWith_grantsNothing hh h (fun _ => hnext) (Mail.shrinks_of_acceptsNothing hmail).2⟩
  | begins hnew hbegun h hmail =>
      -- Nothing has been said before the start begins, and nothing is said while it does.
      obtain ⟨rfl, hnext⟩ := hh.unbegun hnew
      obtain ⟨howned, hstopping, hkept, hready⟩ := agreesWith_before hh rfl
      refine ⟨.silent, .nil _, ?_⟩
      exact
        { unbegun := fun hnot => absurd hbegun hnot
          launching := fun _ => ⟨hbegun, rfl, hmail ▸ hnext⟩
          initializing := fun id hi => hmail ▸ hh.initializing id (h.initializing id hi)
          owned := fun ho => absurd (h.owned ho) howned
          stopping := fun id hs => absurd (h.stopping id hs) (hstopping id)
          kept := fun hk => absurd (h.kept hk) hkept
          ready := fun hr => absurd (h.ready hr) hready
          answered := fun ha => by cases ha }
  | asks params hbefore hafter hid h hmail => exact agreesWith_asks hh hbefore hafter hid h hmail
  | greets id hopen hbefore hafter hanswered h hmail =>
      exact agreesWith_greets hh hopen hbefore hafter hanswered h
  | takes hbefore hafter h hmail => exact agreesWith_takes hh hbefore hafter h hmail
  | exits id hopen hbefore hafter h hmail => exact agreesWith_exits hh hopen hbefore hafter h
  | asked speech howned h hmail =>
      have htalk := hh.owned howned
      subst htalk
      exact agreesWith_inquiry hh rfl .inquiry h hmail
  | relayed speech hkept h hmail =>
      have htalk := hh.kept hkept
      exact agreesWith_inquiry hh htalk (fun message => .relayed talk message htalk) h hmail

/-! ### When nobody has anything to say any more -/

/-- The start has begun, and nobody may speak now or ever after. -/
structure NobodyLeft (f : Speakers) : Prop where
  begun : f.begun
  launching : ¬ f.launching
  initializing : ∀ id, ¬ f.initializing id
  owned : ¬ f.owned
  stopping : ∀ id, ¬ f.stopping id
  kept : ¬ f.kept

theorem nobodyLeft_grantsNothing (h : f.NobodyLeft) (hn : f.GrantsNothing f') : f'.NobodyLeft where
  begun := hn.begun.mpr h.begun
  launching := mt hn.launching h.launching
  initializing id := mt (hn.initializing id) (h.initializing id)
  owned := mt hn.owned h.owned
  stopping id := mt (hn.stopping id) (h.stopping id)
  kept := mt hn.kept h.kept

/-- **When nobody is left who may speak, that stays so**, and nothing is said. -/
theorem nobodyLeft_move (h : f.NobodyLeft) (hm : Move g f f' utterance?) :
    f.mail.said utterance? = [] ∧ f'.NobodyLeft := by
  cases hm with
  | rests hn hmail => exact ⟨rfl, nobodyLeft_grantsNothing h hn⟩
  | begins hnew hbegun hn hmail => exact absurd h.begun hnew
  | asks params hbefore hafter hid hn hmail => exact absurd hbefore h.launching
  | greets id hopen hbefore hafter hanswered hn hmail => exact absurd hbefore (h.initializing id)
  | takes hbefore hafter hn hmail => exact absurd hbefore h.owned
  | exits id hopen hbefore hafter hn hmail => exact absurd hbefore (h.stopping id)
  | asked speech howned hn hmail => exact absurd howned h.owned
  | relayed speech hkept hn hmail => exact absurd hkept h.kept

/-- **When the connection has ended, it stays so**, and whatever is said is not taken in. -/
theorem ended_move (h : f.mail.isOpen = false) (hm : Move g f f' utterance?) :
    f.mail.said utterance? = [] ∧ f'.mail.isOpen = false := by
  rcases mail_cases hm with ⟨rfl, hrests⟩ | ⟨u, rfl, hmail⟩
  · exact ⟨rfl, (Mail.shrinks_of_acceptsNothing hrests).2 h⟩
  · exact ⟨said_of_ended h u, by rw [hmail, Mail.isOpen_hand, h]⟩

end Speakers
end LanguageClient
