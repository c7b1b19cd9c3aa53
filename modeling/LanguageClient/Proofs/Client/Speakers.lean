import LanguageClient.Proofs.Connection.Writing
import LanguageClient.Session.Handshake

/-!
# Who may speak

On the connection of a generation different parties say something at different times: the call that
starts the session, the client that owns it, those who hold on to it, and the call that stops it.
Who they are at a moment are the `Speakers` of the generation, and every event is one of a few
moves of them, in which at most one of them hands in at most one message.

* `Speech`, `Mail.hand`, `Mail.AcceptsNothing` — something is handed in, or nothing is.
* `Voice`, `Utterance`, `Said` — who says what, and what of it goes to the queue.
* `Speakers` — the view; `Speakers.Move` — what an event can do to them.
* **`Speakers.mail_move`** — a move takes into the mail what is said in it, and nothing else.
-/

namespace LanguageClient

/-! ### What is handed in -/

/-- Something that somebody hands in on a connection. -/
inductive Speech where
  | request (method : String) (params : Json)
  | notify (message : Notification)

namespace Mail

variable {m n : Mail}

/-- Something is handed in; a notification that comes too late leaves no trace. -/
def hand (m : Mail) : Speech → Mail
  | .request method params => m.request method params
  | .notify message => if m.isOpen then m.notify message else m

/-- The message that comes of something that is handed in. -/
def outgoing (m : Mail) : Speech → Outgoing
  | .request method params => .request m.nextId method params
  | .notify message => .notification message

/-- What goes to the queue when something is handed in. -/
def handed? (m : Mail) (speech : Speech) : Option Outgoing :=
  if m.isOpen then some (m.outgoing speech) else none

theorem hand_of_ended (m : Mail) (message : Notification) (h : m.isOpen = false) :
    m.hand (.notify message) = m := by simp [hand, h]

theorem hand_of_open (m : Mail) (message : Notification) (h : m.isOpen) :
    m.hand (.notify message) = m.notify message := by simp [hand, h]

@[simp] theorem isOpen_hand (m : Mail) (speech : Speech) : (m.hand speech).isOpen = m.isOpen := by
  cases speech with
  | request method params => rfl
  | notify message => cases hopen : m.isOpen <;> simp [hand, hopen, Mail.notify]

/-- Handing something in is a move of the mail. -/
theorem move_hand (m : Mail) (speech : Speech) : ∃ post? : Option Post,
    m.Move post? (m.hand speech) ∧ post?.bind Post.accepted? = m.handed? speech := by
  unfold handed?
  cases hopen : m.isOpen with
  | true =>
      refine ⟨some (.accepted (m.outgoing speech)), ?_, rfl⟩
      cases speech with
      | request method params => exact .request m method params hopen
      | notify message =>
          rw [hand_of_open m message hopen]
          exact .notify m message hopen
  | false =>
      refine ⟨none, ?_, rfl⟩
      cases speech with
      | request method params => exact .refuse m method params hopen
      | notify message =>
          rw [hand_of_ended m message hopen]
          exact .idle m

theorem queue_hand (m : Mail) (speech : Speech) :
    (m.hand speech).queue = m.queue ++ (m.handed? speech).toList := by
  cases speech <;> cases hopen : m.isOpen <;>
    simp [hand, handed?, outgoing, Mail.request, Mail.notify, hopen]

/-- A move of the mail that takes nothing into the queue and gives no number away. -/
def AcceptsNothing (m n : Mail) : Prop :=
  ∃ post? : Option Post, m.Move post? n ∧ post?.bind Post.accepted? = none ∧ n.nextId = m.nextId

theorem acceptsNothing_refl (m : Mail) : m.AcceptsNothing m := ⟨none, .idle m, rfl, rfl⟩

/-- The queue only gets shorter, and what has ended does not begin again. -/
theorem shrinks_of_acceptsNothing (h : m.AcceptsNothing n) :
    n.queue.length ≤ m.queue.length ∧ (m.isOpen = false → n.isOpen = false) := by
  obtain ⟨post?, hmove, haccepted, hnext⟩ := h
  cases hmove with
  | idle => exact ⟨Nat.le_refl _, id⟩
  | request method params hopen => cases haccepted
  | refuse method params hended => exact absurd hnext (Nat.succ_ne_self _)
  | notify message hopen => cases haccepted
  | begin message rest hopen hfree hfirst => exact ⟨by simp [hfirst], id⟩
  | wrote message hopen hwriting => exact ⟨Nat.le_refl _, id⟩
  | reply request hopen hfree => exact ⟨Nat.le_refl _, id⟩
  | close hopen => exact ⟨Nat.zero_le _, fun _ => rfl⟩

end Mail

/-! ### Who says what -/

/-- Who hands a message in. -/
inductive Voice where
  /-- A call that starts or stops a session. -/
  | lifeCycle
  /-- A caller who asks the client for something of its session. -/
  | controller
  /-- Somebody who holds on to the session of a generation. -/
  | handle (generation : Nat)
  deriving DecidableEq, Repr

/-- Something that somebody says. -/
structure Utterance where
  voice : Voice
  speech : Speech

/-- A message that has gone to the queue, with the one who handed it in. -/
structure Said where
  voice : Voice
  message : Outgoing

/-- What of an utterance goes to the queue. -/
def Mail.said (m : Mail) (utterance? : Option Utterance) : List Said :=
  (utterance?.bind fun u => (m.handed? u.speech).map (⟨u.voice, ·⟩)).toList

namespace Speech

/-- The first request of a session. -/
def opening (params : Json) : Speech := .request Method.initializeServer params

/-- The notification after it. -/
def initialized : Speech := .notify ⟨Method.initialized, Handshake.noParams⟩

/-- The request that asks the server to come to an end. -/
def shutdown : Speech := .request Method.shutdown .null

/-- The last notification. -/
def exit : Speech := .notify ⟨Method.exit, .null⟩

end Speech

/-! ### The speakers -/

/-- Who can say something on the connection of a generation, and what has become of the session. -/
structure Speakers where
  /-- The start has begun. -/
  begun : Prop
  /-- A call waits for the server to be launched. -/
  launching : Prop
  /-- A call waits for the answer to the first request, which has a number. -/
  initializing (id : Nat) : Prop
  /-- The client owns the session. -/
  owned : Prop
  /-- A call waits for the answer to the last request, which has a number. -/
  stopping (id : Nat) : Prop
  /-- The session is in being. -/
  kept : Prop
  /-- The session has been published as ready. -/
  ready : Prop
  /-- The request of a number has been answered by an acceptable result, which its caller has. -/
  answered (id : Nat) : Prop
  mail : Mail

namespace Speakers

variable {f f' f'' : Speakers} {g : Nat} {utterance? : Option Utterance}

/-- Nobody may speak who could not before, and no answer is taken back. -/
structure GrantsNothing (f f' : Speakers) : Prop where
  begun : f'.begun ↔ f.begun
  launching : f'.launching → f.launching
  initializing : ∀ id, f'.initializing id → f.initializing id
  owned : f'.owned → f.owned
  stopping : ∀ id, f'.stopping id → f.stopping id
  kept : f'.kept → f.kept
  ready : f'.ready → f.ready
  answered : ∀ id, f.answered id → f'.answered id

/-- What an event can do to the speakers of a generation, and what is said in it. -/
inductive Move (g : Nat) (f f' : Speakers) : Option Utterance → Prop
  /-- Nothing is said. -/
  | rests (h : f.GrantsNothing f') (hmail : f.mail.AcceptsNothing f'.mail) : Move g f f' none
  /-- The start begins. -/
  | begins (hnew : ¬ f.begun) (hbegun : f'.begun)
      (h : f.GrantsNothing { f' with begun := f.begun, launching := f.launching })
      (hmail : f'.mail = f.mail) : Move g f f' none
  /-- The server has been launched, and the start makes its request. -/
  | asks (params : Json) (hbefore : f.launching) (hafter : ¬ f'.launching)
      (hid : ∀ id, f'.initializing id → id = f.mail.nextId)
      (h : f.GrantsNothing { f' with initializing := f.initializing })
      (hmail : f'.mail = f.mail.hand (.opening params)) :
      Move g f f' (some ⟨.lifeCycle, .opening params⟩)
  /-- The request has been answered, and the session becomes ready. -/
  | greets (id : Nat) (hopen : f.mail.isOpen) (hbefore : f.initializing id)
      (hafter : ∀ id, ¬ f'.initializing id) (hanswered : f'.answered id)
      (h : f.GrantsNothing { f' with owned := f.owned, kept := f.kept, ready := f.ready })
      (hmail : f'.mail = f.mail.hand .initialized) : Move g f f' (some ⟨.lifeCycle, .initialized⟩)
  /-- The session is taken away, and the server is asked to come to an end. -/
  | takes (hbefore : f.owned) (hafter : ¬ f'.owned)
      (h : f.GrantsNothing { f' with stopping := f.stopping })
      (hmail : f'.mail = f.mail.hand .shutdown) : Move g f f' (some ⟨.lifeCycle, .shutdown⟩)
  /-- The server has acknowledged that. -/
  | exits (id : Nat) (hopen : f.mail.isOpen) (hbefore : f.stopping id)
      (hafter : ∀ id, ¬ f'.stopping id) (h : f.GrantsNothing f')
      (hmail : f'.mail = f.mail.hand .exit) :
      Move g f f' (some ⟨.lifeCycle, .exit⟩)
  /-- A caller asks the client for something of the session that it owns. -/
  | asked (speech : Speech) (howned : f.owned) (h : f.GrantsNothing f')
      (hmail : f'.mail = f.mail.hand speech) : Move g f f' (some ⟨.controller, speech⟩)
  /-- Somebody who holds on to the session says something. -/
  | relayed (speech : Speech) (hkept : f.kept) (h : f.GrantsNothing f')
      (hmail : f'.mail = f.mail.hand speech) : Move g f f' (some ⟨.handle g, speech⟩)

theorem grantsNothing_refl (f : Speakers) : f.GrantsNothing f :=
  ⟨.rfl, id, fun _ => id, id, fun _ => id, id, id, fun _ => id⟩

theorem GrantsNothing.trans (h : f.GrantsNothing f') (h' : f'.GrantsNothing f'') :
    f.GrantsNothing f'' where
  begun := h'.begun.trans h.begun
  launching := h.launching ∘ h'.launching
  initializing id := h.initializing id ∘ h'.initializing id
  owned := h.owned ∘ h'.owned
  stopping id := h.stopping id ∘ h'.stopping id
  kept := h.kept ∘ h'.kept
  ready := h.ready ∘ h'.ready
  answered id := h'.answered id ∘ h.answered id

/-- What grants nobody anything after a move belongs to the move. -/
theorem Move.grantsNothing (hm : Move g f f' utterance?) (h' : f'.GrantsNothing f'')
    (hsame : f''.mail = f'.mail) : Move g f f'' utterance? := by
  cases hm with
  | rests h hmail => exact .rests (h.trans h') (hsame ▸ hmail)
  | begins hnew hbegun h hmail =>
      exact .begins hnew (h'.begun.mpr hbegun) (h.trans { h' with begun := .rfl, launching := id })
        (hsame.trans hmail)
  | asks params hbefore hafter hid h hmail =>
      exact .asks params hbefore (hafter ∘ h'.launching) (fun n => hid n ∘ h'.initializing n)
        (h.trans { h' with initializing := fun _ => id }) (hsame.trans hmail)
  | greets n hopen hbefore hafter hanswered h hmail =>
      exact .greets n hopen hbefore (fun i => hafter i ∘ h'.initializing i)
        (h'.answered n hanswered) (h.trans { h' with owned := id, kept := id, ready := id })
        (hsame.trans hmail)
  | takes hbefore hafter h hmail =>
      exact .takes hbefore (hafter ∘ h'.owned) (h.trans { h' with stopping := fun _ => id })
        (hsame.trans hmail)
  | exits n hopen hbefore hafter h hmail =>
      exact .exits n hopen hbefore (fun i => hafter i ∘ h'.stopping i) (h.trans h')
        (hsame.trans hmail)
  | asked speech howned h hmail => exact .asked speech howned (h.trans h') (hsame.trans hmail)
  | relayed speech hkept h hmail => exact .relayed speech hkept (h.trans h') (hsame.trans hmail)

/-- A move leaves the mail at rest, or hands in what is said in it. -/
theorem mail_cases (hm : Move g f f' utterance?) :
    utterance? = none ∧ f.mail.AcceptsNothing f'.mail ∨
      ∃ u : Utterance, utterance? = some u ∧ f'.mail = f.mail.hand u.speech := by
  cases hm with
  | rests h hmail => exact .inl ⟨rfl, hmail⟩
  | begins hnew hbegun h hmail => exact .inl ⟨rfl, hmail ▸ Mail.acceptsNothing_refl f.mail⟩
  | asks params hbefore hafter hid h hmail => exact .inr ⟨_, rfl, hmail⟩
  | greets id hopen hbefore hafter hanswered h hmail => exact .inr ⟨_, rfl, hmail⟩
  | takes hbefore hafter h hmail => exact .inr ⟨_, rfl, hmail⟩
  | exits id hopen hbefore hafter h hmail => exact .inr ⟨_, rfl, hmail⟩
  | asked speech howned h hmail => exact .inr ⟨_, rfl, hmail⟩
  | relayed speech hkept h hmail => exact .inr ⟨_, rfl, hmail⟩

theorem said_some (m : Mail) (u : Utterance) :
    (m.said (some u)).map Said.message = (m.handed? u.speech).toList := by
  cases hhanded : m.handed? u.speech <;> simp [Mail.said, hhanded]

/-- **A move takes into the mail what is said in it**, and nothing else. -/
theorem mail_move (hm : Move g f f' utterance?) : ∃ post? : Option Post,
    f.mail.Move post? f'.mail ∧
      (post?.bind Post.accepted?).toList = (f.mail.said utterance?).map Said.message := by
  rcases mail_cases hm with ⟨rfl, post?, hmove, haccepted, -⟩ | ⟨u, rfl, hmail⟩
  · exact ⟨post?, hmove, by rw [haccepted]; rfl⟩
  · obtain ⟨post?, hmove, haccepted⟩ := Mail.move_hand f.mail u.speech
    exact ⟨post?, hmail ▸ hmove, by rw [haccepted, said_some]⟩

/-- What a move adds to the queue is what is said in it. -/
theorem queue_move (hm : Move g f f' utterance?) :
    f'.mail.queue.drop f.mail.queue.length = (f.mail.said utterance?).map Said.message := by
  rcases mail_cases hm with ⟨rfl, hrests⟩ | ⟨u, rfl, hmail⟩
  · exact List.drop_eq_nil_of_le (Mail.shrinks_of_acceptsNothing hrests).1
  · rw [hmail, Mail.queue_hand, List.drop_left, said_some]

end Speakers
end LanguageClient
