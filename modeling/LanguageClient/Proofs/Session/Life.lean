import LanguageClient.Proofs.Session.Locality
import Mathlib.Logic.Relation

/-!
# The life of a client

The life of a client is the course of its sessions together with the lock, the calls and whether the
client has been given away.  Which steps a life can take is said here without connections, servers
and hosts; `Proofs/Session/LifeStep` shows that every event of a client is such a step.

* `Life` — the view, and `Life.proceed`, by which the end of a part of a turn changes it.
* `Life.CallChange` — a call comes, waits in line, leaves the line or goes on outside the line.
* `Life.Turn` — the call that has its turn goes on; `Life.SessionChange` — that, or a session is lost.
* `Life.Dropped` — the caller of a call that has its turn goes away.
* `Life.Moves` — changes to calls, and at most one that may concern the sessions.
* `Life.Step` — moves, after which a client that nobody holds lets its session go.
-/

namespace LanguageClient

/-! ### Phases and operations -/

/-- Whether a call has the lock or a place in its line. -/
def Phase.isInLine : Phase → Bool
  | queued => true
  | peeking => true
  | phase => phase.isTurn

/-- What a call of an operation ends with when its turn comes to an outcome. -/
def Operation.concluded : Operation → Outcome → Outcome
  | activate, _ => .done
  | command _ _ _, _ => .command (.ok ())
  | _, outcome => outcome

/-! ### The view -/

/-- What the life cycle shows of a client. -/
structure Life where
  course : Course
  lock : Lock
  calls : List Call
  released : Bool

namespace Life

/-- Whether somebody holds on to the client. -/
def isHeld (l : Life) : Bool := !l.released || l.calls.any Call.holdsClient

def setPhase (l : Life) (k : Nat) (phase : Phase) : Life :=
  { l with calls := l.calls.modify k fun call => { call with phase } }

/-- A call leaves the lock or its line and goes on. -/
def leave (l : Life) (k : Nat) (phase : Phase) : Life :=
  { l with lock := l.lock.leave k }.setPhase k phase

/-- A call asks for the lock and waits for it. -/
def enqueue (l : Life) (k : Nat) (phase : Phase) : Life :=
  { l with lock := l.lock.acquire k }.setPhase k phase

/-- The call that has its turn does what comes next. -/
def proceed (l : Life) (k : Nat) (operation : Operation) : Next → Life
  | .waits phase => l.setPhase k phase
  | .ends outcome => l.leave k (.finished (operation.concluded outcome))

/-- A client that nobody holds owns no session. -/
def tidy (l : Life) : Life := if l.isHeld then l else { l with course := l.course.letGo }

/-! ### Steps -/

/-- Whether a call that comes to a phase leaves it open who holds the client. -/
def MayHold (l : Life) (call : Call) (phase : Phase) : Prop :=
  l.isHeld ∨ ({ call with phase } : Call).holdsClient = false

/-- A change that leaves the sessions alone. -/
inductive CallChange : Life → Life → Prop
  | enter (l : Life) (operation : Operation)
      (hheld : l.isHeld ∨ operation.needsClient = false) :
      CallChange l { l with calls := l.calls ++ [{ operation }] }
  | shift (l : Life) (k : Nat) (call : Call) (phase : Phase) (hcall : l.calls[k]? = some call)
      (hline : call.phase.isInLine = false) (hover : call.phase.isOver = false)
      (hphase : phase.isInLine = false) (hheld : l.MayHold call phase) :
      CallChange l (l.setPhase k phase)
  | ask (l : Life) (k : Nat) (call : Call) (phase : Phase) (hcall : l.calls[k]? = some call)
      (hline : call.phase.isInLine = false) (hover : call.phase.isOver = false)
      (hphase : phase = .peeking ∨ phase = .queued ∧ ({ call with phase } : Call).holdsClient)
      (hheld : l.MayHold call phase) : CallChange l (l.enqueue k phase)
  | quit (l : Life) (k : Nat) (call : Call) (phase : Phase) (hcall : l.calls[k]? = some call)
      (hwaits : call.phase = .queued ∨ call.phase = .peeking) (hphase : phase.isInLine = false)
      (hheld : l.MayHold call phase) : CallChange l (l.leave k phase)
  | release (l : Life) : CallChange l { l with released := true }

/-- The call that has its turn begins it or goes on with it. -/
inductive Turn (l : Life) (k : Nat) : Life → Prop
  | begins (call : Call) (t : Course) (next : Next) (hcall : l.calls[k]? = some call)
      (hphase : call.phase = .queued) (hholder : l.lock.holder? = some k)
      (h : l.course.Begins call.operation t next) :
      Turn l k ({ l with course := t }.proceed k call.operation next)
  | starts (call : Call) (g : Nat) (t : Course) (next : Next) (hcall : l.calls[k]? = some call)
      (hphase : call.phase.startOf? = some g) (h : l.course.Starts g t next) :
      Turn l k ({ l with course := t }.proceed k call.operation next)
  | stops (call : Call) (g : Nat) (t : Course) (next : Next) (hcall : l.calls[k]? = some call)
      (hphase : call.phase.stopOf? = some g) (h : l.course.Stops call.operation g t next) :
      Turn l k ({ l with course := t }.proceed k call.operation next)

/-- A change that may concern the sessions. -/
inductive SessionChange (l : Life) : Life → Prop
  | turn (k : Nat) {m : Life} (h : l.Turn k m) : SessionChange l m
  | lose (g : Nat) (h : l.course.slot = some g) :
      SessionChange l { l with course := l.course.letGo.publish g .failed }

/-- The caller of a call that has its turn goes away. -/
def Dropped (l m : Life) : Prop :=
  ∃ (k : Nat) (call : Call), l.calls[k]? = some call ∧ call.phase.isTurn ∧ m = l.leave k .dropped

/-- Changes to calls, and at most one that may concern the sessions. -/
def Moves (l m : Life) : Prop :=
  ∃ l₁ : Life, Relation.ReflTransGen CallChange l l₁ ∧ (m = l₁ ∨ l₁.SessionChange m)

/-- One step in which no turn is dropped. -/
def Step (l m : Life) : Prop := ∃ l₁ : Life, l.Moves l₁ ∧ m = l₁.tidy

/-- One step in which a turn is dropped. -/
def DroppingStep (l m : Life) : Prop := ∃ l₁ : Life, l.Dropped l₁ ∧ m = l₁.tidy

theorem Moves.refl (l : Life) : l.Moves l := ⟨l, .refl, .inl rfl⟩

theorem Moves.callChange {l m : Life} (h : l.CallChange m) : l.Moves m := ⟨m, .single h, .inl rfl⟩

theorem Moves.sessionChange {l m : Life} (h : l.SessionChange m) : l.Moves m := ⟨l, .refl, .inr h⟩

/-- Changes to calls come first. -/
theorem Moves.head {l l' m : Life} (h : l.CallChange l') (hm : l'.Moves m) : l.Moves m := by
  obtain ⟨l₁, hchanges, hend⟩ := hm
  exact ⟨l₁, .head h hchanges, hend⟩

/-! ### Phases that are set twice -/

@[simp] theorem setPhase_setPhase (l : Life) (k : Nat) (p q : Phase) :
    (l.setPhase k p).setPhase k q = l.setPhase k q := by
  simp only [setPhase, List.modify_modify_eq]
  rfl

theorem getElem?_setPhase (l : Life) (k i : Nat) (p : Phase) :
    (l.setPhase k p).calls[i]? =
      if k = i then l.calls[i]?.map fun call => { call with phase := p } else l.calls[i]? := by
  simp only [setPhase, List.getElem?_modify]
  split
  · rfl
  · cases l.calls[i]? <;> rfl

theorem getElem?_setPhase_self {l : Life} {k : Nat} {call : Call} (h : l.calls[k]? = some call)
    (p : Phase) : (l.setPhase k p).calls[k]? = some { call with phase := p } := by
  rw [getElem?_setPhase, if_pos rfl, h]
  rfl

theorem getElem?_setPhase_ne (l : Life) {k i : Nat} (h : k ≠ i) (p : Phase) :
    (l.setPhase k p).calls[i]? = l.calls[i]? := by rw [getElem?_setPhase, if_neg h]

/-- A call is the one that comes to the phase, or it is as it was. -/
theorem call_of_setPhase {l : Life} {k i : Nat} {call other : Call} {p : Phase}
    (hcall : l.calls[k]? = some call) (h : (l.setPhase k p).calls[i]? = some other) :
    i = k ∧ other = { call with phase := p } ∨ i ≠ k ∧ l.calls[i]? = some other := by
  by_cases hi : k = i
  · subst hi
    rw [getElem?_setPhase_self hcall, Option.some.injEq] at h
    exact .inl ⟨rfl, h.symm⟩
  · rw [getElem?_setPhase_ne l hi] at h
    exact .inr ⟨Ne.symm hi, h⟩

/-- Whoever holds on to the client keeps it held. -/
theorem isHeld_of_holdsClient {l : Life} {k : Nat} {call : Call} (hcall : l.calls[k]? = some call)
    (h : call.holdsClient) : l.isHeld := by
  have hany : l.calls.any Call.holdsClient :=
    List.any_eq_true.mpr ⟨call, List.mem_of_getElem? hcall, h⟩
  simp [isHeld, hany]

end Life

namespace Client

/-- The life of a client. -/
def life (c : Client) : Life := ⟨c.course, c.lock, c.calls, c.released⟩

theorem isHeld_eq_life (c : Client) : c.isHeld = c.life.isHeld := rfl

end Client

end LanguageClient
