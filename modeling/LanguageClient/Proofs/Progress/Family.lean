import LanguageClient.Progress
import Mathlib.Data.List.Basic
import Mathlib.Data.List.Nodup

/-!
# Families of operations under indicators

Operations run under indicators of one host, side by side and inside each other, and come to an end
or are dropped at any time.  A wrap is one operation with its indicator: the indicator begins when the
wrap is polled for the first time, and ends when the operation has come to its output or the wrap is
dropped.  Whatever an operation holds is dropped with it, before its own indicator ends.

* `Progress.Stage`, `Progress.Wrap` — how far a wrap has come, and where it runs.
* `Progress.Family`, `Progress.Event`, `Progress.Family.run` — wraps that share the indicators of a
  host, and what happens to them.
* `Progress.Family.Sound` — what holds of a family at any time.
* `sound_add`, `sound_enter`, `sound_close` — each change to one wrap keeps it.
-/

namespace LanguageClient

/-- The identifier of the indicator that a host call is about. -/
def HostCall.indicator? : HostCall → Option Nat
  | beginProgress id _ _ => some id
  | endProgress id => some id
  | _ => none

namespace Progress

variable {α : Type}

/-! ### Wraps -/

/-- How far a wrap has come. -/
inductive Stage (α : Type) where
  /-- It has not been polled. -/
  | fresh
  /-- Its operation runs under an indicator. -/
  | running (id : Nat)
  /-- It is over: its indicator, if it had one, and the output that it returned, unless it was
  dropped. -/
  | ended (id? : Option Nat) (output? : Option α)

namespace Stage

/-- The indicator that a wrap has or had. -/
def id? : Stage α → Option Nat
  | fresh => none
  | running id => some id
  | ended id? _ => id?

/-- The output that a wrap returned. -/
def output? : Stage α → Option α
  | ended _ output? => output?
  | _ => none

/-- Whether a wrap is over. -/
def isOver : Stage α → Bool
  | ended _ _ => true
  | _ => false

/-- Whether the operation of a wrap runs. -/
def isRunning : Stage α → Bool
  | running _ => true
  | _ => false

end Stage

/-- An operation under an indicator. -/
structure Wrap (α : Type) where
  title : String
  location : ProgressLocation
  /-- The wraps in whose operations it runs, the innermost first. -/
  around : List Nat
  stage : Stage α := .fresh

/-- The calls that a wrap has made so far. -/
def Wrap.calls (wrap : Wrap α) : List HostCall :=
  match wrap.stage with
  | .fresh => []
  | .running id => [.beginProgress id wrap.title wrap.location]
  | .ended none _ => []
  | .ended (some id) _ => [.beginProgress id wrap.title wrap.location, .endProgress id]

/-! ### Families -/

/-- Wraps with the indicators of their host.  A wrap is known by its place; its indicator is that of
a task of its own. -/
structure Family (α : Type) where
  progress : Progress := {}
  wraps : List (Wrap α) := []
  /-- Every call of the host in order, with the wrap that made it. -/
  journal : List (Nat × HostCall) := []

/-- Something that happens to a family. -/
inductive Event (α : Type) where
  /-- A wrap is put into the operation of another one, or stands for itself. -/
  | wrap (owner? : Option Nat) (title : String) (location : ProgressLocation)
  /-- A wrap is polled for the first time. -/
  | poll (wrap : Nat)
  /-- The operation of a wrap comes to its output. -/
  | settle (wrap : Nat) (output : α)
  /-- A wrap is dropped. -/
  | drop (wrap : Nat)

/-- The calls that one wrap made, among those of a journal. -/
def callsIn (journal : List (Nat × HostCall)) (w : Nat) : List HostCall :=
  (journal.filter fun entry => entry.1 = w).map Prod.snd

namespace Family

/-- The wraps around a wrap. -/
def around (f : Family α) (w : Nat) : List Nat := (f.wraps[w]?).elim [] Wrap.around

/-- How far a wrap has come. -/
def stage? (f : Family α) (w : Nat) : Option (Stage α) := (f.wraps[w]?).map Wrap.stage

/-- Whether there is a wrap that is not over. -/
def isAlive (f : Family α) (w : Nat) : Bool := (f.stage? w).any fun stage => !stage.isOver

/-- Whether the operation of a wrap runs. -/
def isRunning (f : Family α) (w : Nat) : Bool := (f.stage? w).any Stage.isRunning

/-- Whether a wrap can be polled for the first time: the operations around it run. -/
def canBegin (f : Family α) (w : Nat) : Bool :=
  (f.stage? w).any (fun stage => stage matches .fresh) && (f.around w).all f.isRunning

/-- A wrap is added. -/
def add (f : Family α) (title : String) (location : ProgressLocation) (around : List Nat) :
    Family α := { f with wraps := f.wraps ++ [{ title, location, around }] }

/-- A wrap takes the next identifier and begins its indicator. -/
def enter (f : Family α) (w : Nat) : Family α :=
  match f.wraps[w]? with
  | none => f
  | some wrap =>
      match f.progress.enter w wrap.title wrap.location with
      | (progress, calls) =>
          { progress
            wraps := f.wraps.set w { wrap with stage := .running f.progress.nextId }
            journal := f.journal ++ calls.map (w, ·) }

/-- A wrap goes away, and its indicator ends if it has one. -/
def close (f : Family α) (w : Nat) (output? : Option α) : Family α :=
  match f.wraps[w]? with
  | none => f
  | some wrap =>
      match f.progress.leave w with
      | (progress, calls) =>
          { progress
            wraps := f.wraps.set w { wrap with stage := .ended wrap.stage.id? output? }
            journal := f.journal ++ calls.map (w, ·) }

/-- Of the first wraps, those inside a wrap are dropped, the last one first.  For wraps side by side
any other order is that of drops of their own just before. -/
def dropInside (w : Nat) : Nat → Family α → Family α
  | 0, f => f
  | i + 1, f => dropInside w i (if f.isAlive i && (f.around i).contains w then f.close i none else f)

/-- A wrap ends: first everything inside it is dropped. -/
def finish (f : Family α) (w : Nat) (output? : Option α) : Family α :=
  (dropInside w f.wraps.length f).close w output?

/-- What an event does.  Nothing is put into an operation that is over or polled there, and what is
over stays as it is. -/
def step (f : Family α) : Event α → Family α
  | .wrap none title location => f.add title location []
  | .wrap (some owner) title location =>
      if f.isAlive owner then f.add title location (owner :: f.around owner) else f
  | .poll w => if f.canBegin w then f.enter w else f
  | .settle w output => if f.isRunning w then f.finish w (some output) else f
  | .drop w => if f.isAlive w then f.finish w none else f

/-- A family after some events. -/
def run (f : Family α) (events : List (Event α)) : Family α := events.foldl step f

variable {f g : Family α} {w i j : Nat} {wrap : Wrap α}

theorem run_append (f : Family α) (past later : List (Event α)) :
    f.run (past ++ later) = (f.run past).run later := List.foldl_append

/-! ### What can be seen of a wrap -/

theorem stage?_of_wrap (h : f.wraps[w]? = some wrap) : f.stage? w = some wrap.stage := by
  rw [stage?, h, Option.map_some]

theorem exists_wrap {stage : Stage α} (h : f.stage? w = some stage) :
    ∃ wrap : Wrap α, f.wraps[w]? = some wrap ∧ wrap.stage = stage := Option.map_eq_some_iff.mp h

theorem isAlive_of_isRunning (h : f.isRunning w) : f.isAlive w := by
  obtain ⟨stage, hstage, hrunning⟩ := (Option.any_eq_true _ _).mp h
  refine (Option.any_eq_true _ _).mpr ⟨stage, hstage, ?_⟩
  cases stage <;> simp_all [Stage.isRunning, Stage.isOver]

/-- Wraps that stand at the same places. -/
theorem around_eq_of_set {wrap' : Wrap α} (h : f.wraps[w]? = some wrap)
    (haround : wrap'.around = wrap.around) (hwraps : g.wraps = f.wraps.set w wrap') :
    g.around = f.around := by
  funext j
  rw [around, around, hwraps, List.getElem?_set]
  obtain ⟨hlength, -⟩ := List.getElem?_eq_some_iff.mp h
  split
  · rename_i hj
    subst hj
    rw [h]
    exact haround
  · rfl

theorem stage?_eq_of_set {wrap' : Wrap α} (h : f.wraps[w]? = some wrap)
    (hwraps : g.wraps = f.wraps.set w wrap') :
    g.stage? j = if w = j then some wrap'.stage else f.stage? j := by
  obtain ⟨hlength, -⟩ := List.getElem?_eq_some_iff.mp h
  rw [stage?, stage?, hwraps, List.getElem?_set]
  split <;> rfl

theorem lt_of_stage? {stage : Stage α} (h : f.stage? w = some stage) : w < f.wraps.length := by
  obtain ⟨wrap, hwrap, -⟩ := exists_wrap h
  exact (List.getElem?_eq_some_iff.mp hwrap).1

theorem exists_wrap_of_isAlive (h : f.isAlive w) :
    ∃ wrap : Wrap α, f.wraps[w]? = some wrap ∧ wrap.stage.isOver = false := by
  obtain ⟨stage, hstage, hopen⟩ := (Option.any_eq_true _ _).mp h
  obtain ⟨wrap, hwrap, rfl⟩ := exists_wrap hstage
  exact ⟨wrap, hwrap, by simpa using hopen⟩

theorem lt_of_isAlive (h : f.isAlive w) : w < f.wraps.length := by
  obtain ⟨wrap, hwrap, -⟩ := exists_wrap_of_isAlive h
  exact (List.getElem?_eq_some_iff.mp hwrap).1

theorem isAlive_iff :
    f.isAlive w ↔ f.stage? w = some .fresh ∨ ∃ id, f.stage? w = some (.running id) := by
  rw [isAlive]
  cases h : f.stage? w with
  | none => simp
  | some stage => cases stage <;> simp [Stage.isOver]

theorem isRunning_iff : f.isRunning w ↔ ∃ id, f.stage? w = some (.running id) := by
  rw [isRunning]
  cases h : f.stage? w with
  | none => simp
  | some stage => cases stage <;> simp [Stage.isRunning]

theorem canBegin_iff :
    f.canBegin w ↔ f.stage? w = some .fresh ∧ ∀ i ∈ f.around w, f.isRunning i := by
  rw [canBegin, Bool.and_eq_true, List.all_eq_true]
  refine and_congr_left fun _ => ?_
  cases f.stage? w with
  | none => simp
  | some stage => cases stage <;> simp

/-! ### Journals -/

theorem callsIn_append (past later : List (Nat × HostCall)) (w : Nat) :
    callsIn (past ++ later) w = callsIn past w ++ callsIn later w := by
  simp [callsIn]

theorem callsIn_singleton (w j : Nat) (call : HostCall) :
    callsIn [(w, call)] j = if w = j then [call] else [] := by
  by_cases h : w = j <;> simp [callsIn, h]

/-- What a call may find before it: its identifier has never been used when it begins an indicator,
and all indicators around it have begun and not ended. -/
def IsAllowedAfter (around : Nat → List Nat) (past : List (Nat × HostCall))
  (entry : Nat × HostCall) : Prop :=
  (∀ id title location, entry.2 = .beginProgress id title location →
    ∀ earlier ∈ past, earlier.2.indicator? ≠ some id) ∧
  ∀ i ∈ around entry.1, ∃ id title location, callsIn past i = [.beginProgress id title location]

/-- Every call of a journal fits what stands before it. -/
def Ordered (around : Nat → List Nat) (journal : List (Nat × HostCall)) : Prop :=
  ∀ past entry later, journal = past ++ entry :: later → IsAllowedAfter around past entry

theorem ordered_snoc {around : Nat → List Nat} {journal : List (Nat × HostCall)}
    {entry : Nat × HostCall} (h : Ordered around journal)
    (hentry : IsAllowedAfter around journal entry) :
    Ordered around (journal ++ [entry]) := by
  intro past next later hsplit
  rcases List.eq_nil_or_concat later with rfl | ⟨earlier, last, rfl⟩
  · obtain ⟨rfl, hlast⟩ := List.append_inj' hsplit rfl
    obtain rfl := List.singleton_injective hlast
    exact hentry
  · rw [List.concat_eq_append, ← List.cons_append, ← List.append_assoc] at hsplit
    exact h past next earlier (List.append_inj' hsplit rfl).1

/-! ### What holds at any time -/

/-- What holds of a family at any time. -/
structure Sound (f : Family α) : Prop where
  /-- What is around a wrap was there before it. -/
  before : ∀ {i j}, i ∈ f.around j → i < j
  /-- What is around something around a wrap is around the wrap. -/
  nested : ∀ {i j}, i ∈ f.around j → f.around i ⊆ f.around j
  /-- Nothing stays inside a wrap that is over. -/
  alive : ∀ {i j}, i ∈ f.around j → f.isAlive j → f.isAlive i
  /-- Nothing runs inside a wrap that does not. -/
  running : ∀ {i j}, i ∈ f.around j → f.isRunning j → f.isRunning i
  /-- The open indicators are those of the operations that run. -/
  opened : ∀ j id, (j, id) ∈ f.progress.opened ↔ f.stage? j = some (.running id)
  single : (f.progress.opened.map Prod.fst).Nodup
  /-- Every wrap has made the calls of its stage. -/
  calls : ∀ j, callsIn f.journal j = (f.wraps[j]?).elim [] Wrap.calls
  /-- Whatever identifier was used is smaller than the next one. -/
  used : ∀ entry ∈ f.journal, ∀ id, entry.2.indicator? = some id → id < f.progress.nextId
  ordered : Ordered f.around f.journal

theorem sound_empty : ({} : Family α).Sound where
  before h := by cases h
  nested h := by cases h
  alive h := by cases h
  running h := by cases h
  opened j id := by simp [stage?]
  single := List.nodup_nil
  calls j := rfl
  used entry h := by cases h
  ordered past entry later h := by simp at h

/-- While an operation runs, its wrap has begun the indicator and not ended it. -/
theorem calls_of_running (h : f.Sound) (hrunning : f.isRunning w) :
    ∃ id title location, callsIn f.journal w = [.beginProgress id title location] := by
  obtain ⟨id, hstage⟩ := isRunning_iff.mp hrunning
  obtain ⟨wrap, hwrap, hrun⟩ := exists_wrap hstage
  refine ⟨id, wrap.title, wrap.location, ?_⟩
  rw [h.calls, hwrap, Option.elim_some, Wrap.calls, hrun]

/-- The indicator of an operation that runs was begun, so its identifier has been used. -/
theorem lt_of_running (h : f.Sound) {id : Nat} (hstage : f.stage? w = some (.running id)) :
    id < f.progress.nextId := by
  obtain ⟨wrap, hwrap, hrun⟩ := exists_wrap hstage
  have hcalls := h.calls w
  rw [hwrap, Option.elim_some, Wrap.calls, hrun] at hcalls
  have hmem : HostCall.beginProgress id wrap.title wrap.location ∈ callsIn f.journal w := by
    rw [hcalls]
    exact List.mem_singleton_self _
  obtain ⟨entry, hentry, hcall⟩ := List.mem_map.mp hmem
  exact h.used entry (List.mem_of_mem_filter hentry) id (by rw [hcall]; rfl)

/-- A wrap that has not been there has made no call. -/
theorem lt_of_mem_journal (h : f.Sound) {entry : Nat × HostCall} (hentry : entry ∈ f.journal) :
    entry.1 < f.wraps.length := by
  by_contra hlength
  have hcalls := h.calls entry.1
  rw [List.getElem?_eq_none (Nat.le_of_not_lt hlength)] at hcalls
  have hmem : entry.2 ∈ callsIn f.journal entry.1 :=
    List.mem_map_of_mem (List.mem_filter.mpr ⟨hentry, by simp⟩)
  rw [hcalls] at hmem
  cases hmem

/-! ### A wrap is added -/

theorem getElem?_add (f : Family α) (title : String) (location : ProgressLocation)
    (around : List Nat) (j : Nat) : (f.add title location around).wraps[j]? =
      if j = f.wraps.length then some { title, location, around } else f.wraps[j]? := by
  rw [add, List.getElem?_append]
  split_ifs with hlt heq heq
  · omega
  · rfl
  · simp [heq]
  · rw [List.getElem?_eq_none (by simp; omega), List.getElem?_eq_none (by omega)]

theorem around_add (f : Family α) (title : String) (location : ProgressLocation)
    (around : List Nat) (j : Nat) : (f.add title location around).around j =
      if j = f.wraps.length then around else f.around j := by
  rw [Family.around, getElem?_add]
  split <;> rfl

theorem stage?_add (f : Family α) (title : String) (location : ProgressLocation)
    (around : List Nat) (j : Nat) : (f.add title location around).stage? j =
      if j = f.wraps.length then some .fresh else f.stage? j := by
  rw [stage?, getElem?_add]
  split <;> rfl

theorem isAlive_add_of_alive (title : String) (location : ProgressLocation) (around : List Nat)
    (hj : f.isAlive j) : (f.add title location around).isAlive j := by
  rw [isAlive, stage?_add, if_neg (Nat.ne_of_lt (lt_of_isAlive hj))]
  exact hj

theorem sound_add (h : f.Sound) {around : List Nat}
    (haround : ∀ i ∈ around, f.isAlive i ∧ f.around i ⊆ around) (title : String)
    (location : ProgressLocation) : (f.add title location around).Sound := by
  -- What is around an old wrap is older than it, so the new wrap is around none of them.
  have hold : ∀ {i j}, i ∈ f.around j → i ≠ f.wraps.length := by
    intro i j hi hlength
    have hj : j < f.wraps.length := by
      by_contra hj
      simp [Family.around, List.getElem?_eq_none (Nat.le_of_not_lt hj)] at hi
    have hbefore := h.before hi
    omega
  have hnew : ∀ {i}, i ∈ around → i ≠ f.wraps.length := fun hi =>
    Nat.ne_of_lt (lt_of_isAlive (haround _ hi).1)
  constructor
  case before =>
    intro i j hi
    rw [around_add] at hi
    split at hi
    · rename_i hj
      rw [hj]
      exact lt_of_isAlive (haround i hi).1
    · exact h.before hi
  case nested =>
    intro i j hi
    rw [around_add f title location around j] at hi ⊢
    split at hi
    · rename_i hj
      rw [around_add, if_neg (hnew hi), if_pos hj]
      exact (haround i hi).2
    · rename_i hj
      rw [around_add, if_neg (hold hi), if_neg hj]
      exact h.nested hi
  case alive =>
    intro i j hi hj
    rw [around_add] at hi
    split at hi
    · exact isAlive_add_of_alive title location around (haround i hi).1
    · rename_i hne
      rw [isAlive, stage?_add, if_neg hne] at hj
      exact isAlive_add_of_alive title location around (h.alive hi hj)
  case running =>
    intro i j hi hj
    rw [isRunning, stage?_add] at hj
    split at hj
    · cases hj
    · rename_i hne
      rw [around_add, if_neg hne] at hi
      rw [isRunning, stage?_add, if_neg (hold hi)]
      exact h.running hi hj
  case opened =>
    intro j id
    rw [stage?_add]
    split
    · rename_i hj
      -- Before it was added there was nothing at its place, and so no indicator that is open.
      have hnone : f.stage? j = none := by
        rw [stage?, List.getElem?_eq_none (by omega), Option.map_none]
      have hopened := h.opened j id
      rw [hnone] at hopened
      exact ⟨fun hmem => (by cases hopened.mp hmem), fun hfresh => by cases hfresh⟩
    · exact h.opened j id
  case single => exact h.single
  case calls =>
    intro j
    rw [getElem?_add]
    split
    · rename_i hj
      rw [hj]
      have hcalls := h.calls f.wraps.length
      rwa [List.getElem?_eq_none (Nat.le_refl _)] at hcalls
    · exact h.calls j
  case used => exact h.used
  case ordered =>
    intro past entry later hsplit
    have hmem : entry ∈ f.journal := by
      have hjournal : f.journal = past ++ entry :: later := hsplit
      simp [hjournal]
    -- The journal is the same, and only old wraps have made calls in it.
    obtain ⟨hfresh, hbegun⟩ := h.ordered past entry later hsplit
    refine ⟨hfresh, fun i hi => hbegun i ?_⟩
    rwa [around_add, if_neg (Nat.ne_of_lt (lt_of_mem_journal h hmem))] at hi

/-! ### A wrap begins -/

/-- A wrap that has not been polled becomes one that runs, and its indicator is the newest. -/
theorem enter_eq (hwrap : f.wraps[w]? = some wrap) : f.enter w =
    { progress :=
        { nextId := f.progress.nextId + 1
          opened := (w, f.progress.nextId) :: f.progress.opened }
      wraps := f.wraps.set w { wrap with stage := .running f.progress.nextId }
      journal :=
        f.journal ++ [(w, .beginProgress f.progress.nextId wrap.title wrap.location)] } := by
  rw [enter, hwrap]
  rfl

theorem wraps_enter (hwrap : f.wraps[w]? = some wrap) : (f.enter w).wraps =
    f.wraps.set w { wrap with stage := .running f.progress.nextId } := by
  rw [enter_eq hwrap]

theorem stage?_enter (hwrap : f.wraps[w]? = some wrap) (j : Nat) : (f.enter w).stage? j =
    if w = j then some (.running f.progress.nextId) else f.stage? j :=
  stage?_eq_of_set hwrap (wraps_enter hwrap)

theorem around_enter (f : Family α) (w : Nat) : (f.enter w).around = f.around := by
  cases hwrap : f.wraps[w]? with
  | none => rw [enter, hwrap]
  | some wrap =>
      refine around_eq_of_set hwrap ?_ (wraps_enter hwrap)
      rfl

/-- The calls of all wraps are those of their stages, when one of them has made another call. -/
theorem calls_snoc (h : f.Sound) {wrap' : Wrap α} (hwrap : f.wraps[w]? = some wrap)
    {call : HostCall} (hcalls : wrap'.calls = wrap.calls ++ [call]) (j : Nat) :
    callsIn (f.journal ++ [(w, call)]) j =
      ((f.wraps.set w wrap')[j]?).elim [] Wrap.calls := by
  obtain ⟨hlength, -⟩ := List.getElem?_eq_some_iff.mp hwrap
  rw [callsIn_append, callsIn_singleton, h.calls, List.getElem?_set]
  split
  · rename_i hj
    subst hj
    rw [hwrap, Option.elim_some, Option.elim_some, hcalls]
  · rw [List.append_nil]

theorem sound_enter (h : f.Sound) (hcan : f.canBegin w) : (f.enter w).Sound := by
  obtain ⟨hstage, haround⟩ := canBegin_iff.mp hcan
  obtain ⟨wrap, hwrap, hfresh⟩ := exists_wrap hstage
  have hnone : ∀ id, (w, id) ∉ f.progress.opened := by
    intro id hid
    rw [h.opened, hstage] at hid
    cases hid
  constructor
  case before => exact fun hi => h.before (around_enter f w ▸ hi)
  case nested =>
    intro i j hi
    rw [around_enter] at hi ⊢
    exact h.nested hi
  case alive =>
    intro i j hi hj
    rw [around_enter] at hi
    rw [isAlive, stage?_enter hwrap] at hj ⊢
    split
    · rfl
    · split at hj
      · rename_i hwj
        subst hwj
        -- A wrap begins only while the operations around it run.
        exact isAlive_of_isRunning (haround i hi)
      · exact h.alive hi hj
  case running =>
    intro i j hi hj
    rw [around_enter] at hi
    rw [isRunning, stage?_enter hwrap] at hj ⊢
    split
    · rfl
    · split at hj
      · rename_i hwj
        subst hwj
        exact haround i hi
      · exact h.running hi hj
  case opened =>
    intro j id
    rw [stage?_enter hwrap, enter_eq hwrap]
    dsimp only
    rw [List.mem_cons, h.opened, Prod.mk.injEq]
    split
    · rename_i hwj
      subst hwj
      simp [hstage, eq_comm]
    · rename_i hwj
      simp [Ne.symm hwj]
  case single =>
    rw [enter_eq hwrap]
    refine List.nodup_cons.mpr ⟨?_, h.single⟩
    intro hmem
    obtain ⟨⟨other, id⟩, hentry, rfl⟩ := List.mem_map.mp hmem
    exact hnone id hentry
  case calls =>
    intro j
    rw [enter_eq hwrap]
    exact calls_snoc h hwrap (by simp [Wrap.calls, hfresh]) j
  case used =>
    intro entry hentry id hid
    rw [enter_eq hwrap] at hentry ⊢
    rcases List.mem_append.mp hentry with hold | hlast
    · exact Nat.lt_succ_of_lt (h.used entry hold id hid)
    · obtain rfl := List.mem_singleton.mp hlast
      rw [HostCall.indicator?, Option.some.injEq] at hid
      exact hid ▸ Nat.lt_succ_self _
  case ordered =>
    rw [around_enter, enter_eq hwrap]
    -- Its identifier is the next one, and every used one is smaller.
    refine ordered_snoc h.ordered ⟨?_, fun i hi => ?_⟩
    · rintro id title location hbegin earlier hearlier hused
      cases hbegin
      exact Nat.lt_irrefl _ (h.used earlier hearlier _ hused)
    · exact calls_of_running h (haround i hi)

/-! ### A wrap goes away -/

theorem leave_of_fresh (h : f.Sound) (hstage : f.stage? w = some .fresh) :
    f.progress.leave w = (f.progress, []) := by
  have hnone : (f.progress.opened.find? fun entry => entry.1 = w) = none := by
    refine List.find?_eq_none.mpr fun entry hentry hkey => ?_
    obtain ⟨j, id⟩ := entry
    obtain rfl : j = w := by simpa using hkey
    rw [h.opened, hstage] at hentry
    cases hentry
  rw [leave, hnone]

theorem leave_of_running (h : f.Sound) {id : Nat} (hstage : f.stage? w = some (.running id)) :
    f.progress.leave w =
      ({ f.progress with opened := f.progress.opened.erase (w, id) }, [.endProgress id]) := by
  have hfound : (f.progress.opened.find? fun entry => entry.1 = w) = some (w, id) := by
    cases hfind : f.progress.opened.find? fun entry => entry.1 = w with
    | none =>
        have hmem := (h.opened w id).mpr hstage
        simpa using List.find?_eq_none.mp hfind _ hmem
    | some entry =>
        obtain ⟨j, other⟩ := entry
        obtain rfl : j = w := by simpa using List.find?_some hfind
        have hother := (h.opened j other).mp (List.mem_of_find?_eq_some hfind)
        rw [hstage, Option.some.injEq, Stage.running.injEq] at hother
        rw [hother]
  rw [leave, hfound]

/-- The wrap after it has gone away. -/
theorem wraps_close (hwrap : f.wraps[w]? = some wrap) (output? : Option α) :
    (f.close w output?).wraps =
      f.wraps.set w { wrap with stage := .ended wrap.stage.id? output? } := by
  rw [close, hwrap]

theorem stage?_close (hwrap : f.wraps[w]? = some wrap) (output? : Option α) (j : Nat) :
    (f.close w output?).stage? j =
      if w = j then some (.ended wrap.stage.id? output?) else f.stage? j :=
  stage?_eq_of_set hwrap (wraps_close hwrap output?)

theorem around_close (f : Family α) (w : Nat) (output? : Option α) :
    (f.close w output?).around = f.around := by
  cases hwrap : f.wraps[w]? with
  | none => rw [close, hwrap]
  | some wrap =>
      refine around_eq_of_set hwrap ?_ (wraps_close hwrap output?)
      rfl

/-- A wrap that has not been polled goes away without a call, one that runs ends its indicator. -/
theorem progress_close (h : f.Sound) (halive : f.isAlive w) (output? : Option α) :
    (f.stage? w = some .fresh ∧ (f.close w output?).progress = f.progress ∧
        (f.close w output?).journal = f.journal) ∨
      ∃ id, f.stage? w = some (.running id) ∧
        (f.close w output?).progress =
          { f.progress with opened := f.progress.opened.erase (w, id) } ∧
        (f.close w output?).journal = f.journal ++ [(w, .endProgress id)] := by
  rcases isAlive_iff.mp halive with hstage | ⟨id, hstage⟩
  · obtain ⟨wrap, hwrap, -⟩ := exists_wrap hstage
    refine .inl ⟨hstage, ?_⟩
    rw [close, hwrap, leave_of_fresh h hstage]
    exact ⟨rfl, List.append_nil _⟩
  · obtain ⟨wrap, hwrap, -⟩ := exists_wrap hstage
    refine .inr ⟨id, hstage, ?_⟩
    rw [close, hwrap, leave_of_running h hstage]
    exact ⟨rfl, rfl⟩

theorem isAlive_close {output? : Option α} (hj : (f.close w output?).isAlive j) :
    w ≠ j ∧ f.isAlive j := by
  cases hwrap : f.wraps[w]? with
  | none =>
      have hsame : f.close w output? = f := by rw [close, hwrap]
      rw [hsame] at hj
      refine ⟨?_, hj⟩
      rintro rfl
      simp [isAlive, stage?, hwrap] at hj
  | some wrap =>
      rw [isAlive, stage?_close hwrap] at hj
      split at hj
      · simp [Stage.isOver] at hj
      · exact ⟨‹_›, hj⟩

theorem isRunning_close {output? : Option α} (hwrap : f.wraps[w]? = some wrap)
    (hj : (f.close w output?).isRunning j) : w ≠ j ∧ f.isRunning j := by
  rw [isRunning, stage?_close hwrap] at hj
  split at hj
  · simp [Stage.isRunning] at hj
  · exact ⟨‹_›, hj⟩

theorem mem_erase_single {opened : List (Nat × Nat)} (h : (opened.map Prod.fst).Nodup) {id : Nat}
    (hmem : (w, id) ∈ opened) {entry : Nat × Nat} :
    entry ∈ opened.erase (w, id) ↔ entry.1 ≠ w ∧ entry ∈ opened := by
  rw [(List.Nodup.of_map _ h).mem_erase_iff]
  refine and_congr_left fun hentry => not_congr ⟨fun heq => by rw [heq], fun hkey => ?_⟩
  exact List.inj_on_of_nodup_map h hentry hmem hkey

/-- A wrap goes away when nothing inside it is left. -/
theorem sound_close (h : f.Sound) (halive : f.isAlive w)
    (hinside : ∀ j, w ∈ f.around j → ¬ f.isAlive j) (output? : Option α) :
    (f.close w output?).Sound := by
  obtain ⟨wrap, hwrap, -⟩ := exists_wrap_of_isAlive halive
  have hprogress := progress_close h halive output?
  have hstage? := stage?_of_wrap hwrap
  constructor
  case before => exact fun hi => h.before (around_close f w output? ▸ hi)
  case nested =>
    intro i j hi
    rw [around_close] at hi ⊢
    exact h.nested hi
  case alive =>
    intro i j hi hj
    rw [around_close] at hi
    obtain ⟨-, hj⟩ := isAlive_close hj
    rw [isAlive, stage?_close hwrap]
    split
    · rename_i hwi
      subst hwi
      -- Whatever is inside the wrap that goes away is over already.
      exact absurd hj (hinside j hi)
    · exact h.alive hi hj
  case running =>
    intro i j hi hj
    rw [around_close] at hi
    obtain ⟨-, hj⟩ := isRunning_close hwrap hj
    rw [isRunning, stage?_close hwrap]
    split
    · rename_i hwi
      subst hwi
      exact absurd (isAlive_of_isRunning hj) (hinside j hi)
    · exact h.running hi hj
  case opened =>
    intro j id
    rw [stage?_close hwrap]
    rcases hprogress with ⟨hstage, hsame, -⟩ | ⟨other, hstage, hsame, -⟩
    · rw [hsame, h.opened]
      split
      · rename_i hwj
        subst hwj
        simp [hstage]
      · rfl
    · rw [hsame]
      dsimp only
      rw [mem_erase_single h.single ((h.opened w other).mpr hstage), h.opened]
      split
      · rename_i hwj
        simp [hwj]
      · rename_i hwj
        simp [Ne.symm hwj]
  case single =>
    rcases hprogress with ⟨-, hsame, -⟩ | ⟨other, -, hsame, -⟩
    · rw [hsame]
      exact h.single
    · rw [hsame]
      exact h.single.sublist (List.erase_sublist.map _)
  case calls =>
    intro j
    rw [wraps_close hwrap]
    rcases hprogress with ⟨hstage, -, hjournal⟩ | ⟨other, hstage, -, hjournal⟩
    · rw [hstage?, Option.some.injEq] at hstage
      rw [hjournal, h.calls, List.getElem?_set]
      split
      · rename_i hwj
        subst hwj
        rw [hwrap, if_pos (lt_of_stage? hstage?)]
        simp [Wrap.calls, hstage, Stage.id?]
      · rfl
    · rw [hstage?, Option.some.injEq] at hstage
      rw [hjournal]
      exact calls_snoc h hwrap (by simp [Wrap.calls, hstage, Stage.id?]) j
  case used =>
    rcases hprogress with ⟨-, hsame, hjournal⟩ | ⟨other, hstage, hsame, hjournal⟩
    · rw [hsame, hjournal]
      exact h.used
    · rw [hsame, hjournal]
      intro entry hentry id hid
      rcases List.mem_append.mp hentry with hold | hlast
      · exact h.used entry hold id hid
      · obtain rfl := List.mem_singleton.mp hlast
        obtain rfl : other = id := by simpa [HostCall.indicator?] using hid
        exact lt_of_running h hstage
  case ordered =>
    rw [around_close]
    rcases hprogress with ⟨-, -, hjournal⟩ | ⟨other, hstage, -, hjournal⟩
    · rw [hjournal]
      exact h.ordered
    · rw [hjournal]
      -- What is around an operation that runs has begun and not ended.
      refine ordered_snoc h.ordered ⟨?_, fun i hi => ?_⟩
      · rintro id title location hbegin
        cases hbegin
      · exact calls_of_running h (h.running hi (isRunning_iff.mpr ⟨other, hstage⟩))

end Family
end Progress
end LanguageClient
