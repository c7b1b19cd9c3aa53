import LanguageClient.Proofs.Client.Tidy
import LanguageClient.Proofs.Session.LifeStep

/-!
# A client in which nobody waits for a turn

A call that only waits, for the lock or for a status, has done nothing yet.  The unqueued client is
the one in which such calls have not even begun: nobody is in line, and the lock is held by the call
that has its turn, if there is one.  Everything that happens to a client happens to the unqueued
client alike, apart from the polls after which a call still waits.

* `Phase.isPatient`, `Client.unqueued` — the view.
* `Client.Plain` — the calls start, stop, restart, wait or ask, and do nothing else.
* `Client.unqueued_of_beside` — what takes no notice of lock and calls commutes with the view.
* `Client.unqueued_proceed` — so does every part of a turn.
-/

namespace LanguageClient

/-! ### Calls -/

namespace Phase

/-- Whether a call has done nothing yet but wait: for the lock, for a status, or to look again. -/
def isPatient : Phase → Bool
  | queued => true
  | watching _ => true
  | peeking => true
  | _ => false

/-- The phase of a call as if it had not waited. -/
def unqueued (phase : Phase) : Phase := if phase.isPatient then fresh else phase

theorem unqueued_of_isTurn {phase : Phase} (h : phase.isTurn) : phase.unqueued = phase := by
  cases phase with
  | queued => cases h
  | watching seen => cases h
  | peeking => cases h
  | _ => rfl

theorem not_isTurn_of_isPatient {phase : Phase} (h : phase.isPatient) : phase.isTurn = false := by
  cases phase with
  | queued => rfl
  | watching seen => rfl
  | peeking => rfl
  | _ => cases h

@[simp] theorem isTurn_unqueued (phase : Phase) : phase.unqueued.isTurn = phase.isTurn := by
  cases phase <;> rfl

/-- In the view only the call that has its turn is in line. -/
@[simp] theorem isInLine_unqueued (phase : Phase) : phase.unqueued.isInLine = phase.isTurn := by
  cases phase <;> rfl

@[simp] theorem isOver_unqueued (phase : Phase) : phase.unqueued.isOver = phase.isOver := by
  cases phase <;> rfl

@[simp] theorem session?_unqueued (phase : Phase) : phase.unqueued.session? = phase.session? := by
  cases phase <;> rfl

@[simp] theorem connection?_unqueued (phase : Phase) :
    phase.unqueued.connection? = phase.connection? := by
  cases phase <;> rfl

@[simp] theorem exchange?_unqueued (phase : Phase) : phase.unqueued.exchange? = phase.exchange? := by
  cases phase <;> rfl

end Phase

/-- Whether an operation takes a turn of its own. -/
def Operation.takesTurn : Operation → Bool
  | start => true
  | stop => true
  | restart => true
  | _ => false

/-- Whether an operation is neither a command nor the activation. -/
def Operation.isPlain : Operation → Bool
  | activate => false
  | command _ _ _ => false
  | _ => true

namespace Call

/-- A call as if it had not waited. -/
def unqueued (call : Call) : Call := { call with phase := call.phase.unqueued }

/-- A plain operation in a phase that belongs to it. -/
structure IsPlain (call : Call) : Prop where
  plain : call.operation.isPlain
  turn : call.phase = .queued ∨ call.phase.isTurn → call.operation.takesTurn
  ready : call.phase = .peeking ∨ (∃ seen, call.phase = .watching seen) → call.operation = .ready

/-- A call that takes a turn waits only for that. -/
theorem IsPlain.eq_queued {call : Call} (h : call.IsPlain) (hop : call.operation.takesTurn)
    (hpatient : call.phase.isPatient) : call.phase = .queued := by
  have hready : call.operation ≠ .ready := by
    intro hready
    rw [hready] at hop
    cases hop
  cases hphase : call.phase with
  | queued => rfl
  | watching seen => exact absurd (h.ready (.inr ⟨seen, hphase⟩)) hready
  | peeking => exact absurd (h.ready (.inl hphase)) hready
  | _ => rw [hphase] at hpatient; cases hpatient

theorem holdsClient_unqueued {call : Call} (h : call.IsPlain) :
    call.unqueued.holdsClient = call.holdsClient := by
  have hplain := h.plain
  cases hop : call.operation <;> simp_all [holdsClient, unqueued, Operation.isPlain]

end Call

/-! ### The view -/

namespace Client

/-- The holder of the lock, if it has its turn. -/
def turnHolder? (c : Client) : Option Nat :=
  c.lock.holder?.filter fun k => c.calls[k]?.any fun call => call.phase.isTurn

/-- A client as if nobody had waited. -/
def unqueued (c : Client) : Client :=
  { c with lock := ⟨c.turnHolder?, []⟩, calls := c.calls.map Call.unqueued }

/-- A client as if nobody had waited, with a holder of the lock. -/
def unqueuedFor (c : Client) (k : Nat) : Client :=
  { c with lock := ⟨some k, []⟩, calls := c.calls.map Call.unqueued }

/-- All calls are plain. -/
def Plain (c : Client) : Prop := ∀ (k : Nat) (call : Call), c.calls[k]? = some call → call.IsPlain

variable {c d : Client} {k : Nat} {call : Call}

@[simp] theorem course_unqueued (c : Client) : c.unqueued.course = c.course := rfl

theorem getElem?_unqueued (c : Client) (k : Nat) :
    c.unqueued.calls[k]? = c.calls[k]?.map Call.unqueued := List.getElem?_map

/-- When a call has its turn, it holds the lock also in the view. -/
theorem unqueued_of_turn (hcall : c.calls[k]? = some call) (hholder : c.lock.holder? = some k)
    (hturn : call.phase.isTurn) : c.unqueued = c.unqueuedFor k := by
  have hholder' : c.turnHolder? = some k := by
    simp [turnHolder?, hholder, hcall, hturn]
  unfold unqueued unqueuedFor
  rw [hholder']

/-- When no call has its turn, the lock is free in the view. -/
theorem turnHolder?_of_nobody
    (h : ∀ (i : Nat) (other : Call), c.calls[i]? = some other → other.phase.isTurn = false) :
    c.turnHolder? = none := by
  unfold turnHolder?
  rw [Option.filter_eq_none_iff]
  intro k _ hany
  obtain ⟨other, hother, hturn⟩ : ∃ other, c.calls[k]? = some other ∧ other.phase.isTurn := by
    simpa [Option.any_eq_true] using hany
  rw [h k other hother] at hturn
  cases hturn

/-! ### What takes no notice of lock and calls -/

/-- An effect that neither sees nor changes lock and calls. -/
def IsBeside (f : Client → Client) : Prop := ∀ c b : Client, f (c.amid b) = (f c).amid b

theorem isBeside_of_workspaceEffect {f : Client → Client} (hf : WorkspaceEffect f) :
    IsBeside f := amid_of_workspaceEffect hf

theorem eq_amid_of_beside {f : Client → Client} (hf : IsBeside f) (c : Client) :
    f c = (f c).amid c := by
  have h := hf c c
  rwa [amid_self] at h

theorem unqueued_amid (hlock : d.lock = c.lock) (hcalls : d.calls = c.calls)
    (hreleased : d.released = c.released) : d.unqueued = d.amid c.unqueued := by
  simp [unqueued, amid, turnHolder?, hlock, hcalls, hreleased]

theorem unqueued_of_beside {f : Client → Client} (hf : IsBeside f) (c : Client) :
    (f c).unqueued = f c.unqueued := by
  have hsame := eq_amid_of_beside hf c
  have hview : (f c).unqueued = (f c).amid c.unqueued := by
    refine unqueued_amid ?_ ?_ ?_ <;> rw [hsame] <;> rfl
  rw [hview]
  exact (hf c c.unqueued).symm

/-! ### One call -/

theorem map_unqueued_modify (calls : List Call) (k : Nat) (phase : Phase) :
    (calls.modify k fun call => { call with phase }).map Call.unqueued =
      (calls.map Call.unqueued).modify k fun call => { call with phase := phase.unqueued } := by
  refine List.ext_getElem? ?_
  intro i
  simp only [List.getElem?_map, List.getElem?_modify]
  cases calls[i]? with
  | none => rfl
  | some call => by_cases hi : k = i <;> simp [hi, Call.unqueued]

/-- A call that waits on is in the view as if it had not begun. -/
theorem map_unqueued_of_patient {calls : List Call} (hcall : calls[k]? = some call)
    {phase : Phase} (hphase : phase.isPatient) (hbefore : call.phase.unqueued = .fresh) :
    (calls.modify k fun call => { call with phase }).map Call.unqueued =
      calls.map Call.unqueued := by
  refine List.ext_getElem? ?_
  intro i
  simp only [List.getElem?_map, List.getElem?_modify]
  by_cases hi : k = i
  · subst hi
    have hafter : phase.unqueued = .fresh := by simp [Phase.unqueued, hphase]
    simp [hcall, Call.unqueued, hbefore, hafter]
  · simp [hi]

/-! ### Turns -/

theorem beginCall_of_takesTurn {operation : Operation} (hop : operation.takesTurn) (c : Client)
    (k : Nat) : c.beginCall k operation = c.askTurn k operation := by
  cases operation with
  | start => rfl
  | stop => rfl
  | restart => rfl
  | _ => cases hop

theorem askTurn_of_free (hfree : c.lock.isFree) (k : Nat) (operation : Operation) :
    c.askTurn k operation =
      proceed k (({ c with lock := c.lock.acquire k } : Client).beginTurn operation) := by
  simp [askTurn, hfree]

theorem askTurn_of_held (hheld : c.lock.isFree = false) (k : Nat) (operation : Operation) :
    c.askTurn k operation =
      ({ c with lock := c.lock.acquire k } : Client).setPhase k .queued := by
  simp [askTurn, hheld]

theorem conclude_of_takesTurn (hcall : c.calls[k]? = some call) (hop : call.operation.takesTurn)
    (outcome : Outcome) :
    c.conclude k outcome = ({ c with lock := c.lock.leave k } : Client).finish k outcome := by
  have hoperation : ({ c with lock := c.lock.leave k } : Client).operation? k =
      some call.operation := by simp [operation?, hcall]
  unfold conclude
  dsimp only
  rw [hoperation]
  cases hop' : call.operation <;> simp_all [Operation.takesTurn]

/-- **Every part of a turn happens alike in the view.** -/
theorem unqueued_proceed {part : Client → Client × Next} (hpart : IsLocal part)
    (hcall : c.calls[k]? = some call) (hop : call.operation.takesTurn)
    (hholder : c.lock.holder? = some k)
    (hothers : ∀ (i : Nat) (other : Call), i ≠ k → c.calls[i]? = some other →
      other.phase.isTurn = false)
    (hnext : ∀ phase, (part c).2 = .waits phase → phase.isTurn) :
    (proceed k (part c)).unqueued = proceed k (part (c.unqueuedFor k)) := by
  have hview : part (c.unqueuedFor k) = ((part c).1.amid (c.unqueuedFor k), (part c).2) :=
    hpart c (c.unqueuedFor k)
  have hlock := hpart.lock c
  have hcalls := hpart.calls c
  have hreleased := hpart.released c
  rw [hview]
  cases hpair : part c with
  | mk d next =>
      rw [hpair] at hlock hcalls hreleased hnext
      dsimp only at hlock hcalls hreleased
      cases next with
      | waits phase =>
          have hturn := hnext phase rfl
          have hself : (d.setPhase k phase).calls[k]? = some { call with phase } := by
            simp [setPhase, hcalls, hcall]
          have hheld : (d.setPhase k phase).lock.holder? = some k := by
            simp [setPhase, hlock, hholder]
          dsimp only [proceed]
          rw [unqueued_of_turn hself hheld hturn]
          simp [unqueuedFor, setPhase, amid, map_unqueued_modify, hcalls, hreleased,
            Phase.unqueued_of_isTurn hturn]
      | ends outcome =>
          have hself : (d.amid (c.unqueuedFor k)).calls[k]? = some call.unqueued := by
            simp [amid, unqueuedFor, hcall]
          have hcall' : d.calls[k]? = some call := by rw [hcalls, hcall]
          dsimp only [proceed]
          rw [conclude_of_takesTurn hcall' hop, conclude_of_takesTurn hself hop]
          -- Only this call had a turn, so the lock becomes free in the view.
          have hnobody : (({ d with lock := d.lock.leave k } : Client).finish k
              outcome).turnHolder? = none := by
            refine turnHolder?_of_nobody ?_
            intro i other hother
            by_cases hi : i = k
            · subst hi
              have hover : other.phase = .finished outcome := by
                simp only [finish, setPhase, hcalls, List.getElem?_modify, hcall] at hother
                obtain rfl := by simpa using hother
                rfl
              rw [hover]
              rfl
            · refine hothers i other hi ?_
              simpa [finish, setPhase, hcalls, List.getElem?_modify, Ne.symm hi] using hother
          have hfinished : (Phase.finished outcome).unqueued = .finished outcome := rfl
          have hfree : (⟨some k, []⟩ : Lock).leave k = ⟨none, []⟩ := by
            simp [Lock.leave, Lock.release]
          unfold unqueued
          rw [hnobody]
          simp [finish, setPhase, amid, unqueuedFor, map_unqueued_modify, hcalls, hreleased,
            hfinished, hfree]

/-! ### Changes outside a turn -/

theorem turnHolder?_setPhase (hcall : c.calls[k]? = some call) (hbefore : call.phase.isTurn = false)
    {phase : Phase} (hafter : phase.isTurn = false) :
    (c.setPhase k phase).turnHolder? = c.turnHolder? := by
  unfold turnHolder?
  have hlock : (c.setPhase k phase).lock = c.lock := rfl
  rw [hlock]
  congr 1
  funext i
  by_cases hi : k = i
  · subst hi
    simp [setPhase, hcall, hbefore, hafter]
  · simp [setPhase, hi]

/-- A call outside its turn goes on alike in the view. -/
theorem unqueued_setPhase (hcall : c.calls[k]? = some call) (hbefore : call.phase.isTurn = false)
    {phase : Phase} (hafter : phase.isTurn = false) :
    (c.setPhase k phase).unqueued = c.unqueued.setPhase k phase.unqueued := by
  unfold unqueued
  rw [turnHolder?_setPhase hcall hbefore hafter]
  simp [setPhase, map_unqueued_modify]

/-- A call that waits on leaves the view as it was. -/
theorem unqueued_setPhase_of_patient (hcall : c.calls[k]? = some call)
    (hbefore : call.phase.unqueued = .fresh) {phase : Phase} (hphase : phase.isPatient) :
    (c.setPhase k phase).unqueued = c.unqueued := by
  have hout : call.phase.isTurn = false := by
    rw [← Phase.isTurn_unqueued, hbefore]
    rfl
  have hafter := Phase.not_isTurn_of_isPatient hphase
  unfold unqueued
  rw [turnHolder?_setPhase hcall hout hafter]
  simp [setPhase, map_unqueued_of_patient hcall hphase hbefore]

/-- Who waits in line does not matter to the view. -/
theorem unqueued_of_lock {lock : Lock} (h : ({ c with lock } : Client).turnHolder? = c.turnHolder?) :
    ({ c with lock } : Client).unqueued = c.unqueued := by
  unfold unqueued
  rw [h]

theorem turnHolder?_acquire_of_held (hheld : c.lock.isFree = false) (k : Nat) :
    ({ c with lock := c.lock.acquire k } : Client).turnHolder? = c.turnHolder? := by
  unfold turnHolder?
  dsimp only
  rw [Lock.holder?_acquire_of_held hheld]

/-- A call that asks for a lock that is held, and waits, leaves the view as it was. -/
theorem unqueued_enqueue (hheld : c.lock.isFree = false) (hcall : c.calls[k]? = some call)
    (hbefore : call.phase.unqueued = .fresh) {phase : Phase} (hphase : phase.isPatient) :
    (({ c with lock := c.lock.acquire k } : Client).setPhase k phase).unqueued = c.unqueued := by
  rw [← unqueued_of_lock (turnHolder?_acquire_of_held hheld k)]
  exact unqueued_setPhase_of_patient (c := { c with lock := c.lock.acquire k }) hcall hbefore hphase

theorem isFree_unqueued (hfree : c.lock.isFree) : c.unqueued.lock.isFree := by
  have hholder : c.lock.holder? = none := by simpa [Lock.isFree] using hfree
  simp [unqueued, turnHolder?, hholder, Lock.isFree]

theorem turnHolder?_leave (h : c.life.Orderly) (hcall : c.calls[k]? = some call)
    (hout : call.phase.isTurn = false) :
    ({ c with lock := c.lock.leave k } : Client).turnHolder? = c.turnHolder? := by
  by_cases hholder : c.lock.holder? = some k
  · -- Only the holder could have its turn, and it has not.
    have hnobody := Life.not_isTurn_of_waiting h hholder hcall hout
    rw [turnHolder?_of_nobody hnobody]
    exact turnHolder?_of_nobody hnobody
  · have hsame : (c.lock.leave k).holder? = c.lock.holder? := by simp [Lock.leave, hholder]
    unfold turnHolder?
    dsimp only
    rw [hsame]

/-- A call that does not have its turn leaves the line without a trace in the view. -/
theorem unqueued_leave (h : c.life.Orderly) (hcall : c.calls[k]? = some call)
    (hout : call.phase.isTurn = false) :
    ({ c with lock := c.lock.leave k } : Client).unqueued = c.unqueued :=
  unqueued_of_lock (turnHolder?_leave h hcall hout)

end Client
end LanguageClient
