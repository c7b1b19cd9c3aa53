import LanguageClient.Connection.Step

/-!
# The history of a connection

A run of a connection is told by its deeds: which requests were made, written and settled, which
responses were handled, and when the loop ended.  What a call has a right to is read off the history
alone.

* `Deed`, `Connection.history` — the deeds of a run.
* `Connection.observe` — a run as any view of its steps shows it.
* `Connection.run_keeps` — what every step keeps, a run keeps.
* `answer?` — the first response to a request that was handled after the request was written.
* `answer?_snoc`, `answer?_of_not_written`, `answer?_keeps` — how it grows with the history.
-/

namespace LanguageClient

/-! ### Deeds -/

/-- Something done on a connection that concerns the calls. -/
inductive Deed where
  /-- A caller made a request. -/
  | requested (id : Nat) (method : String) (deadline : Nat)
  /-- A request was written. -/
  | wrote (id : Nat)
  /-- A response of the server was handled. -/
  | handled (response : Response)
  /-- The loop ended. -/
  | ended
  /-- A caller took the outcome of its request. -/
  | settled (now id : Nat) (outcome : Except SessionError Json)
  /-- A caller went away before it had an outcome. -/
  | forgot (id : Nat)

namespace Deed

/-- Whether a request was written. -/
def isWriteOf (id : Nat) : Deed → Bool
  | wrote i => i = id
  | _ => false

/-- Whether a call got an outcome. -/
def settles (id : Nat) : Deed → Bool
  | settled _ i _ => i = id
  | _ => false

/-- The response to a request, if that is what was handled. -/
def responseTo? (id : Nat) : Deed → Option Response
  | handled response => if response.id = .number id then some response else none
  | _ => none

end Deed

/-- Whether the caller of a request waits. -/
def Exchange.isWaiting (e : Exchange) : Bool :=
  match e.state with
  | .waiting => true
  | _ => false

namespace Connection

/-- What is done by a step, if it concerns the calls. -/
def deed? (c : Connection) : Action → Option Deed
  | .request method _ deadline => some (.requested c.nextId method deadline)
  | .settle now id => (c.settle? now id).map fun r => .settled now id r.2
  | .forget id => if c.exchanges.any fun e => e.id = id && e.isWaiting then some (.forgot id) else none
  | .finish => if c.peerReads then (c.writing?.bind Outgoing.id?).map .wrote else some .ended
  | .handle => match c.inbox with
      | .ok value :: _ => match Inbound.classify? value with
          | some (.response response) => some (.handled response)
          | _ => none
      | _ => some .ended
  | .remove => some .ended
  | _ => none

/-- The deeds of a sequence of steps, the oldest first. -/
def history (c : Connection) : List Action → List Deed
  | [] => []
  | action :: rest => match c.step? action with
      | some d => (c.deed? action).toList ++ d.history rest
      | none => []

/-! ### Views of a run -/

section Views

variable {α β γ : Type}

/-- What is seen of the steps of a sequence, the oldest first. -/
def observe (see : Connection → Action → Option α) (c : Connection) : List Action → List α
  | [] => []
  | action :: rest => match c.step? action with
      | some d => (see c action).toList ++ d.observe see rest
      | none => []

theorem history_eq_observe (c : Connection) (actions : List Action) :
    c.history actions = c.observe deed? actions := by
  induction actions generalizing c with
  | nil => rfl
  | cons action rest ih =>
      rw [history, observe]
      split
      · rw [ih]
      · rfl

theorem mem_observe {see : Connection → Action → Option α} {c : Connection} {actions : List Action}
    {a : α} (h : a ∈ c.observe see actions) : ∃ d action, see d action = some a := by
  induction actions generalizing c with
  | nil => cases h
  | cons action rest ih =>
      rw [observe] at h
      split at h
      · rcases List.mem_append.mp h with hfirst | hlater
        · exact ⟨c, action, Option.mem_toList.mp hfirst⟩
        · exact ih hlater
      · cases h

/-- What every step keeps, a run keeps. -/
theorem run_keeps {P : Connection → Prop}
    (hkeeps : ∀ {c d : Connection} {action : Action}, P c → c.step? action = some d → P d)
    {c d : Connection} {actions : List Action} (h : P c) (hrun : c.run? actions = some d) : P d := by
  induction actions generalizing c with
  | nil =>
      cases hrun
      exact h
  | cons action rest ih =>
      obtain ⟨next, hstep, hrest⟩ := Option.bind_eq_some_iff.mp hrun
      exact ih (hkeeps h hstep) hrest

theorem run?_append {c d : Connection} {actions : List Action} (h : c.run? actions = some d)
    (more : List Action) : c.run? (actions ++ more) = d.run? more := by
  rw [run?, List.foldlM_append, show actions.foldlM step? c = some d from h]
  rfl

theorem filterMap_toList (a : Option α) (p : α → Option β) :
    a.toList.filterMap p = (a.bind p).toList := by
  cases a with
  | none => rfl
  | some a => cases h : p a <;> simp [h]

/-- Two views of a run agree in what they both tell of each step. -/
theorem filterMap_observe {see : Connection → Action → Option α}
    {look : Connection → Action → Option β} {p : α → Option γ} {q : β → Option γ}
    (h : ∀ c action, (see c action).bind p = (look c action).bind q) (c : Connection)
    (actions : List Action) :
    (c.observe see actions).filterMap p = (c.observe look actions).filterMap q := by
  have hone : ∀ (c : Connection) (action : Action),
      (see c action).toList.filterMap p = (look c action).toList.filterMap q := by
    intro c action
    rw [filterMap_toList, filterMap_toList, h]
  induction actions generalizing c with
  | nil => rfl
  | cons action rest ih =>
      rw [observe, observe]
      split
      · rw [List.filterMap_append, List.filterMap_append, hone, ih]
      · rfl

end Views

end Connection

/-! ### Answers -/

/-- The first response to a request that was handled after the request was written. -/
def answer? (id : Nat) (history : List Deed) : Option Response :=
  (history.dropWhile fun deed => !deed.isWriteOf id).findSome? (Deed.responseTo? id)

/-- Whether a request was written at all. -/
def isWritten (id : Nat) (history : List Deed) : Bool := history.any (Deed.isWriteOf id)

variable {id : Nat} {history : List Deed} {deed : Deed}

theorem isWritten_snoc (id : Nat) (history : List Deed) (deed : Deed) :
    isWritten id (history ++ [deed]) = (isWritten id history || deed.isWriteOf id) := by
  simp [isWritten]

theorem dropWhile_snoc_of_written (h : isWritten id history) :
    (history ++ [deed]).dropWhile (fun deed => !deed.isWriteOf id) =
      history.dropWhile (fun deed => !deed.isWriteOf id) ++ [deed] := by
  induction history with
  | nil => simp [isWritten] at h
  | cons first rest ih =>
      by_cases hfirst : first.isWriteOf id
      · simp [hfirst]
      · have hrest : isWritten id rest := by simpa [isWritten, hfirst] using h
        simp [hfirst, ih hrest]

theorem dropWhile_of_not_written (h : isWritten id history = false) (rest : List Deed) :
    (history ++ rest).dropWhile (fun deed => !deed.isWriteOf id) =
      rest.dropWhile fun deed => !deed.isWriteOf id := by
  refine List.dropWhile_append_of_pos ?_
  intro deed hdeed
  have hnot := List.any_eq_false.mp h deed hdeed
  simpa using hnot

theorem answer?_of_not_written (h : isWritten id history = false) : answer? id history = none := by
  have hdrop := dropWhile_of_not_written h []
  rw [List.append_nil] at hdrop
  rw [answer?, hdrop]
  rfl

/-- A written request is answered by the first response to it. -/
theorem answer?_snoc (h : isWritten id history) :
    answer? id (history ++ [deed]) = (answer? id history).or (deed.responseTo? id) := by
  rw [answer?, dropWhile_snoc_of_written h, List.findSome?_append]
  simp [answer?]

theorem isWritten_of_answer? {response : Response} (h : answer? id history = some response) :
    isWritten id history := by
  cases hwritten : isWritten id history with
  | true => rfl
  | false =>
      rw [answer?_of_not_written hwritten] at h
      cases h

/-- What has been answered stays answered in the same way. -/
theorem answer?_keeps {response : Response} (h : answer? id history = some response) :
    answer? id (history ++ [deed]) = some response := by
  rw [answer?_snoc (isWritten_of_answer? h), h]
  rfl

/-- A deed that is no response to a request answers nothing. -/
theorem answer?_snoc_of_other (hother : deed.responseTo? id = none) :
    answer? id (history ++ [deed]) = answer? id history := by
  cases hwritten : isWritten id history with
  | true => rw [answer?_snoc hwritten, hother, Option.or_none]
  | false =>
      rw [answer?_of_not_written hwritten]
      rw [answer?, dropWhile_of_not_written hwritten]
      cases hwrite : deed.isWriteOf id <;> simp [hwrite, hother]

theorem id_of_answer? {response : Response} (h : answer? id history = some response) :
    response.id = .number id := by
  obtain ⟨deed, -, hdeed⟩ := List.exists_of_findSome?_eq_some h
  cases deed with
  | handled other =>
      unfold Deed.responseTo? at hdeed
      dsimp only at hdeed
      split at hdeed
      · rename_i hid
        injection hdeed with hsame
        rwa [← hsame]
      · cases hdeed
  | _ => cases hdeed

end LanguageClient
