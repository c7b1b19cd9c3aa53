import LanguageClient.Proofs.Connection.Mail

/-!
# What a connection writes

The loop writes the calls that were taken and the answers to the requests that it handles, in whatever
order they come to the writer.  No call overtakes another one, no answer overtakes another one, and
nothing is written twice.

* `Mail.MatchesPosts` — the messages written, in the writer and in the queue make up what was put
  into the mail.
* **`Mail.matchesPosts_move`** — every move of the mail keeps this.
* `Connection.matchesPosts_run` — so it holds after every run.
-/

namespace LanguageClient
namespace Mail

/-- What was put into the mail is written, in the writer or in the queue; what waited when the loop
ended is not written any more. -/
structure MatchesPosts (m : Mail) (sent : List Outgoing) (posts : List Post) : Prop where
  written : m.written = sent.map Outgoing.toJson
  calls : m.isOpen → sent.filter Outgoing.isCall ++ m.writing?.toList.filter Outgoing.isCall ++
    m.queue = posts.filterMap Post.accepted?
  inOrder : sent.filter Outgoing.isCall <+: posts.filterMap Post.accepted?
  answers : sent.filter Outgoing.isAnswer ++ m.writing?.toList.filter Outgoing.isAnswer ++
    (posts.filterMap Post.cut?).filter Outgoing.isAnswer =
      (posts.filterMap Post.replied?).map fun request => .answer (answerFor request)
  queued : ∀ message ∈ m.queue, message.isCall
  whole : m.isOpen → posts.filterMap Post.cut? = []
  ended : m.isOpen = false → m.writing? = none ∧ m.queue = []

theorem matchesPosts_empty : ({} : Mail).MatchesPosts [] [] := by
  constructor <;> simp

variable {m n : Mail} {sent : List Outgoing} {posts : List Post}

theorem matchesPosts_accept (h : m.MatchesPosts sent posts) (message : Outgoing) (nextId : Nat)
    (hcall : message.isCall) (hopen : m.isOpen) :
    ({ m with nextId, queue := m.queue ++ [message] } : Mail).MatchesPosts sent
      (posts ++ [.accepted message]) where
  written := h.written
  calls _ := by
    rw [← List.append_assoc, h.calls hopen, List.filterMap_append]
    rfl
  inOrder := by
    rw [List.filterMap_append]
    exact h.inOrder.trans (List.prefix_append _ _)
  answers := by
    simpa [List.filterMap_append, List.filterMap_cons, Post.cut?, Post.replied?] using h.answers
  queued other hother := by
    rcases List.mem_append.mp hother with hold | hlast
    · exact h.queued other hold
    · rwa [List.mem_singleton.mp hlast]
  whole hopen := by simpa [List.filterMap_append, List.filterMap_cons, Post.cut?] using h.whole hopen
  ended hended := by
    rw [hopen] at hended
    cases hended

/-- A message of the queue goes to the writer. -/
theorem matchesPosts_begin (h : m.MatchesPosts sent posts) {message : Outgoing} {rest : List Outgoing}
    (hopen : m.isOpen) (hfree : m.writing? = none) (hfirst : m.queue = message :: rest) :
    ({ m with queue := rest, writing? := some message } : Mail).MatchesPosts sent posts := by
  have hcall : message.isCall := h.queued message (by simp [hfirst])
  refine ⟨h.written, ?_, h.inOrder, ?_, ?_, h.whole, ?_⟩
  · intro _
    rw [← h.calls hopen, hfree, hfirst]
    simp [hcall]
  · rw [← h.answers, hfree]
    simp [Outgoing.isAnswer, hcall]
  · intro other hother
    exact h.queued other (by rw [hfirst]; exact List.mem_cons_of_mem _ hother)
  · intro hended
    have hended' : m.isOpen = false := hended
    rw [hopen] at hended'
    cases hended'

theorem matchesPosts_wrote (h : m.MatchesPosts sent posts) {message : Outgoing} (hopen : m.isOpen)
    (hwriting : m.writing? = some message) :
    ({ m with writing? := none, written := m.written ++ [message.toJson] } : Mail).MatchesPosts
      (sent ++ [message]) posts := by
  have hcalls := h.calls hopen
  have hanswers := h.answers
  rw [hwriting, Option.toList_some] at hcalls hanswers
  refine ⟨?_, ?_, ?_, ?_, h.queued, h.whole, ?_⟩
  · simp [h.written]
  · intro _
    simpa [List.filter_append] using hcalls
  · rw [← hcalls, List.filter_append]
    exact List.prefix_append _ _
  · simpa [List.filter_append] using hanswers
  · intro hended
    have hended' : m.isOpen = false := hended
    rw [hopen] at hended'
    cases hended'

theorem matchesPosts_reply (h : m.MatchesPosts sent posts) (request : Request) (hopen : m.isOpen)
    (hfree : m.writing? = none) :
    ({ m with writing? := some (.answer (answerFor request)) } : Mail).MatchesPosts sent
      (posts ++ [.replied request]) := by
  have hcalls := h.calls hopen
  have hanswers := h.answers
  -- Nothing was cut short, so the new answer comes behind all the others.
  rw [hfree, h.whole hopen] at hanswers
  rw [hfree] at hcalls
  refine ⟨h.written, ?_, ?_, ?_, h.queued, ?_, ?_⟩
  · intro _
    simpa [List.filterMap_append, List.filterMap_cons, Post.accepted?, Outgoing.isCall] using hcalls
  · simpa [List.filterMap_append, List.filterMap_cons, Post.accepted?] using h.inOrder
  · rw [List.filterMap_append, List.filterMap_append, List.map_append, ← hanswers, h.whole hopen]
    simp [List.filterMap_cons, Post.cut?, Post.replied?, Outgoing.isAnswer, Outgoing.isCall]
  · intro hopen
    simpa [List.filterMap_append, List.filterMap_cons, Post.cut?] using h.whole hopen
  · intro hended
    have hended' : m.isOpen = false := hended
    rw [hopen] at hended'
    cases hended'

theorem matchesPosts_close (h : m.MatchesPosts sent posts) (hopen : m.isOpen) :
    m.close.MatchesPosts sent (posts ++ (m.writing?.map Post.cut).toList) := by
  have hanswers := h.answers
  rw [h.whole hopen] at hanswers
  refine ⟨h.written, ?_, ?_, ?_, by simp [close], ?_, fun _ => ⟨rfl, rfl⟩⟩
  · intro hopen
    cases hopen
  · rw [List.filterMap_append]
    exact h.inOrder.trans (List.prefix_append _ _)
  · -- What was in the writer is what was cut short.
    rw [List.filterMap_append, List.filterMap_append, h.whole hopen]
    cases hwriting : m.writing? with
    | none => simpa [close, hwriting] using hanswers
    | some message =>
        simpa [close, hwriting, List.filterMap_cons, Post.cut?, Post.replied?] using hanswers
  · intro hopen
    cases hopen

/-- **Every move of the mail keeps the account of it.** -/
theorem matchesPosts_move (h : m.MatchesPosts sent posts) {post? : Option Post}
    (hm : m.Move post? n) : ∃ more, n.MatchesPosts (sent ++ more) (posts ++ post?.toList) := by
  cases hm with
  | idle => exact ⟨[], by simpa using h⟩
  | request method params hopen =>
      refine ⟨[], ?_⟩
      have haccept :=
        matchesPosts_accept h (.request m.nextId method params) (m.nextId + 1) rfl hopen
      simpa [Mail.request, hopen] using haccept
  | refuse method params hended =>
      refine ⟨[], ?_⟩
      rw [List.append_nil, Option.toList_none, List.append_nil]
      have hqueue : (m.request method params).queue = m.queue := by simp [Mail.request, hended]
      exact ⟨h.written, fun hopen => hqueue ▸ h.calls hopen, h.inOrder, h.answers,
        hqueue ▸ h.queued, h.whole, fun hended => hqueue ▸ h.ended hended⟩
  | notify message hopen =>
      exact ⟨[], by
        rw [List.append_nil]
        exact matchesPosts_accept h (.notification message) m.nextId rfl hopen⟩
  | begin message rest hopen hfree hfirst =>
      exact ⟨[], by simpa using matchesPosts_begin h hopen hfree hfirst⟩
  | wrote message hopen hwriting =>
      exact ⟨[message], by simpa using matchesPosts_wrote h hopen hwriting⟩
  | reply request hopen hfree => exact ⟨[], by simpa using matchesPosts_reply h request hopen hfree⟩
  | close hopen => exact ⟨[], by simpa using matchesPosts_close h hopen⟩

end Mail

namespace Connection

theorem matchesPosts_run {c d : Connection} {actions : List Action} {sent : List Outgoing}
    {before : List Post} (h : c.mail.MatchesPosts sent before) (hrun : c.run? actions = some d) :
    ∃ more, d.mail.MatchesPosts (sent ++ more) (before ++ c.posts actions) := by
  induction actions generalizing c sent before with
  | nil =>
      cases hrun
      exact ⟨[], by simpa [posts, observe] using h⟩
  | cons action rest ih =>
      obtain ⟨next, hstep, hrest⟩ := Option.bind_eq_some_iff.mp hrun
      obtain ⟨first, hfirst⟩ := Mail.matchesPosts_move h (mail_step hstep)
      obtain ⟨more, hmore⟩ := ih hfirst hrest
      refine ⟨first ++ more, ?_⟩
      rw [posts, observe, hstep]
      simpa only [List.append_assoc, posts] using hmore

end Connection
end LanguageClient
